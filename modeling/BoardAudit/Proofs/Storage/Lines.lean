import BoardAudit.Proofs.Json.Codecs
import BoardAudit.Proofs.Text.Octets
import BoardAudit.Storage.AuditFile

/-!
# The lines of a file

Where one content ends with a line feed, the lines of another behind it are the lines of both
(`Line.split_append`), and they are read one after the other (`Line.readAll_append`). The line that is
written of an entry is one line, and reads as that entry (`LogEntry.split_line`, `LogEntry.read_line`).
-/

namespace BoardAudit

open Text

/-- Whether the last line of a content is ended, so that what is appended begins a line. -/
def Whole (c : List UInt8) : Prop := c = [] ∨ c.getLast? = some 0x0A

instance (c : List UInt8) : Decidable (Whole c) := by unfold Whole; infer_instance

lemma whole_append_line (c bs : List UInt8) : Whole (c ++ (bs ++ [0x0A])) := by
  right
  simp

lemma LogEntry.whole_line (e : LogEntry) : Whole e.line := whole_append_line [] _

lemma whole_cons {b : UInt8} {c : List UInt8} :
    Whole (b :: c) ↔ (c = [] → b = 0x0A) ∧ Whole c := by
  cases c with
  | nil => simp [Whole]
  | cons b' c => simp [Whole]

namespace Line

/-! ### Splitting -/

lemma split_ne_nil {c : List UInt8} (h : c ≠ []) : split c ≠ [] := by
  obtain ⟨b, c, rfl⟩ := List.exists_cons_of_ne_nil h
  rw [split]
  split
  · simp
  · split <;> simp

/-- The lines of two contents are the lines of both, if the first one ends its last line. -/
theorem split_append {c : List UInt8} (h : Whole c) (d : List UInt8) :
    split (c ++ d) = split c ++ split d := by
  induction c with
  | nil => rfl
  | cons b c ih =>
    obtain ⟨hlast, hc⟩ := whole_cons.mp h
    rw [List.cons_append, split, split, ih hc]
    by_cases hb : b = 0x0A
    · rw [if_pos hb, if_pos hb, List.cons_append]
    · -- `b` begins the first line of what is left of the first content
      obtain ⟨l, ls, hls⟩ := List.exists_cons_of_ne_nil (split_ne_nil fun he => hb (hlast he))
      rw [if_neg hb, if_neg hb, hls]
      rfl

/-- Octets without a line feed are one line with it. -/
theorem split_line {bs : List UInt8} (h : 0x0A ∉ bs) : split (bs ++ [0x0A]) = [⟨bs, true⟩] := by
  induction bs with
  | nil => rfl
  | cons b bs ih =>
    rw [List.mem_cons, not_or] at h
    rw [List.cons_append, split, if_neg (Ne.symm h.1), ih h.2]

/-! ### Reading -/

/-- The entries of lines are those of the first lines, then those of the others; an error in the first
lines decides. -/
theorem readAll_append (ls ls' : List Line) :
    readAll (ls ++ ls') = (readAll ls).bind fun es => (readAll ls').map (es ++ ·) := by
  induction ls with
  | nil =>
    rw [List.nil_append, readAll]
    cases readAll ls' <;> rfl
  | cons l ls ih =>
    rw [List.cons_append, readAll, readAll, ih]
    cases l.read with
    | error e => rfl
    | ok e =>
      cases readAll ls with
      | error e => rfl
      | ok es =>
        cases readAll ls' with
        | error e => rfl
        | ok es' => exact congrArg Except.ok (List.append_assoc e.toList es es').symm

end Line

namespace LogEntry

/-- The line of an entry, without its line feed. -/
def octets (e : LogEntry) : List UInt8 := encodeUtf8 e.toJson.compress

lemma le_toNat_of_mem_octets (e : LogEntry) : ∀ b ∈ e.octets, 0x20 ≤ b.toNat := by
  apply le_toNat_of_mem_encodeUtf8
  rw [Json.compress, String.toList_ofList]
  exact Json.printable_render e.toJson

lemma feed_not_mem_octets (e : LogEntry) : 0x0A ∉ e.octets := by
  intro h
  have hle := e.le_toNat_of_mem_octets _ h
  simp at hle

theorem split_line (e : LogEntry) : Line.split e.line = [⟨e.octets, true⟩] :=
  Line.split_line e.feed_not_mem_octets

/-- The line of an entry reads as this entry. -/
theorem read_line (e : LogEntry) : Line.read ⟨e.octets, true⟩ = .ok (some e) := by
  have hcontent : Line.content ⟨e.octets, true⟩ = e.octets := by
    apply if_neg
    rintro ⟨-, h⟩
    have hle := e.le_toNat_of_mem_octets _ (List.mem_of_getLast? h)
    simp at hle
  have htext : decodeUtf8? (Line.content ⟨e.octets, true⟩) = some e.toJson.compress := by
    rw [hcontent, octets, decodeUtf8?_encodeUtf8]
  have hblank : trim e.toJson.compress.toList ≠ [] := by
    intro h
    have hbrace := trim_eq_nil_iff.mp h '\x7b' (by simp [Json.compress, toJson, Json.record, Json.render])
    exact absurd hbrace (by decide)
  rw [Line.read, htext]
  simp only
  rw [if_neg hblank, Json.ofText?_compress, Option.bind_some, ofJson?_toJson]

/-- A file of one line reads as its entry. -/
lemma readAll_line (e : LogEntry) : Line.readAll (Line.split e.line) = .ok [e] := by
  rw [split_line, Line.readAll, read_line]
  rfl

end LogEntry

lemma AuditFile.readAll_opened_line (e : LogEntry) (ids : IdSource) :
    (opened (some e.line) ids).readAll = .ok [e] := e.readAll_line

end BoardAudit
