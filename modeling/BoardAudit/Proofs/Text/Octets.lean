import BoardAudit.Text.Utf8
import Mathlib.Data.Nat.Notation
import Mathlib.Tactic.Lemma
import Mathlib.Tactic.SplitIfs

/-!
# The octets of a text

A text reads back from its octets (`decodeUtf8?_encodeUtf8`). An octet below 128 is a character of its
own (`toNat_of_mem_utf8EncodeChar`), so what a text does not hold of these, its octets do not hold.
-/

namespace BoardAudit.Text

/-! ### Octets in a list -/

lemma toList_loop (bs : ByteArray) (i : ℕ) (acc : List UInt8) :
    ByteArray.toList.loop bs i acc = acc.reverse ++ bs.data.toList.drop i := by
  fun_induction ByteArray.toList.loop bs i acc with
  | case1 i acc h ih =>
    have hi : i < bs.data.toList.length := by simpa using h
    rw [ih, List.drop_eq_getElem_cons hi]
    simp [ByteArray.get!, h]
  | case2 i acc h =>
    have hle : bs.data.toList.length ≤ i := by simpa using h
    rw [List.drop_eq_nil_of_le hle, List.append_nil]

lemma toList_eq_data (bs : ByteArray) : bs.toList = bs.data.toList := by
  simp [ByteArray.toList, toList_loop]

lemma toByteArray_toList (bs : ByteArray) : bs.toList.toByteArray = bs := by
  apply ByteArray.ext
  rw [List.data_toByteArray, toList_eq_data, Array.toArray_toList]

/-- A text reads back from its octets. -/
@[simp] theorem decodeUtf8?_encodeUtf8 (s : String) : decodeUtf8? (encodeUtf8 s) = some s := by
  have hvalid : s.toUTF8.IsValidUTF8 := s.isValidUTF8
  rw [decodeUtf8?, encodeUtf8, toByteArray_toList, String.fromUTF8?, dif_pos hvalid]
  rfl

/-- A content is a text exactly when it is the octets of that text. -/
theorem decodeUtf8?_eq_some_iff {bs : List UInt8} {s : String} :
    decodeUtf8? bs = some s ↔ bs = encodeUtf8 s := by
  constructor
  · intro h
    rw [decodeUtf8?, String.fromUTF8?] at h
    split at h
    · next hvalid =>
      cases h
      show bs = bs.toByteArray.toList
      rw [toList_eq_data, List.data_toByteArray]
    · cases h
  · rintro rfl
    exact decodeUtf8?_encodeUtf8 s

lemma encodeUtf8_injective : Function.Injective encodeUtf8 := by
  intro s t h
  have hs := decodeUtf8?_encodeUtf8 s
  rw [h, decodeUtf8?_encodeUtf8] at hs
  exact (Option.some.inj hs).symm

/-! ### Characters of one octet -/

lemma encodeUtf8_eq (s : String) : encodeUtf8 s = s.toList.flatMap String.utf8EncodeChar := by
  have hbytes : s.toByteArray = s.toList.utf8Encode := by
    rw [← String.toByteArray_ofList, String.ofList_toList]
  rw [encodeUtf8, String.toUTF8_eq_toByteArray, hbytes, toList_eq_data, List.utf8Encode,
    List.toList_data_toByteArray]

lemma encodeUtf8_append (s t : String) : encodeUtf8 (s ++ t) = encodeUtf8 s ++ encodeUtf8 t := by
  rw [encodeUtf8_eq, encodeUtf8_eq, encodeUtf8_eq, String.toList_append, List.flatMap_append]

/-- An octet below 128 is that of a character of one octet, of its code. -/
lemma toNat_of_mem_utf8EncodeChar {c : Char} {b : UInt8} (h : b ∈ String.utf8EncodeChar c)
    (hb : b.toNat < 128) : c.toNat = b.toNat := by
  have hc : c.val.toNat = c.toNat := rfl
  have hmod (n : ℕ) : (UInt8.ofNat n).toNat = n % 256 := rfl
  unfold String.utf8EncodeChar at h
  simp only [hc] at h
  split_ifs at h with hone htwo hthree
  · obtain rfl := List.mem_singleton.mp h
    rw [hmod]
    omega
  -- the octets of longer characters have their highest bit set
  all_goals
    simp only [List.mem_cons, List.not_mem_nil, or_false] at h
    rcases h with rfl | rfl | rfl | rfl
    all_goals
      rw [hmod] at hb
      omega

/-- A text without control characters has no control octets. -/
theorem le_toNat_of_mem_encodeUtf8 {s : String} (h : ∀ c ∈ s.toList, 0x20 ≤ c.toNat) :
    ∀ b ∈ encodeUtf8 s, 0x20 ≤ b.toNat := by
  intro b hb
  rw [encodeUtf8_eq] at hb
  obtain ⟨c, hc, hb⟩ := List.mem_flatMap.mp hb
  by_cases hlow : b.toNat < 128
  · rw [← toNat_of_mem_utf8EncodeChar hb hlow]
    exact h c hc
  · omega

/-- A character of a code below 128 is one octet. -/
lemma utf8EncodeChar_of_lt {c : Char} (h : c.toNat < 128) :
    String.utf8EncodeChar c = [UInt8.ofNat c.toNat] := by
  have hc : c.val.toNat = c.toNat := rfl
  unfold String.utf8EncodeChar
  simp only [hc]
  rw [if_pos (by omega)]

/-- Where the octets of a text end with one below 128, this is its last character. -/
lemma exists_of_encodeUtf8_eq_concat {s : String} {bs : List UInt8} {b : UInt8}
    (h : encodeUtf8 s = bs ++ [b]) (hb : b.toNat < 128) :
    ∃ t c, s = String.push t c ∧ c.toNat = b.toNat ∧ bs = encodeUtf8 t := by
  rw [encodeUtf8_eq] at h
  obtain hnil | ⟨cs, c, hcs⟩ := List.eq_nil_or_concat s.toList
  · rw [hnil] at h
    simp at h
  · rw [hcs, List.concat_eq_append, List.flatMap_append, List.flatMap_singleton] at h
    obtain hnil | ⟨front, last, hlast⟩ := List.eq_nil_or_concat (String.utf8EncodeChar c)
    · have hsize := Char.utf8Size_pos c
      rw [← String.length_utf8EncodeChar, hnil] at hsize
      cases hsize
    rw [List.concat_eq_append] at hlast
    have hmem : last = b := by
      rw [hlast, ← List.append_assoc] at h
      simpa using (List.append_inj' h rfl).2
    subst hmem
    have hc : c.toNat = last.toNat := toNat_of_mem_utf8EncodeChar (by simp [hlast]) hb
    rw [utf8EncodeChar_of_lt (by omega)] at h
    obtain ⟨hbs, -⟩ := List.append_inj' h rfl
    refine ⟨String.ofList cs, c, ?_, hc, ?_⟩
    · rw [← String.toList_inj, hcs, String.toList_push, String.toList_ofList]
      simp
    · rw [encodeUtf8_eq, String.toList_ofList, hbs]

end BoardAudit.Text
