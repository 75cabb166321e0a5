import BoardAudit.Proofs.Json.Locality
import BoardAudit.Proofs.Storage.Lines
import Mathlib.Data.List.ReduceOption
import Mathlib.Logic.Relation

/-!
# Any content

What a file reads as is told line by line, whoever wrote it. `Line.Reads` says what one line reads as, from
its octets alone: a carriage return at its end has no say in it (`Line.Reads.append_return`). So a content
reads as its lines do one after the other, up to the first that is in error, and neither blank lines nor the
way in which lines are ended change that (`AuditFile.readAll_lines`).
-/

namespace BoardAudit

open Text

namespace Line

/-! ### One line -/

/-- What the octets of a line read as. -/
inductive Reads (bs : List UInt8) : Except SinkError (Option LogEntry) → Prop
  /-- The octets are no text. -/
  | garbled (h : ∀ s, bs ≠ encodeUtf8 s) : Reads bs (.error (.file .invalidData))
  /-- There is nothing but blank characters. -/
  | blank (s : String) (h : bs = encodeUtf8 s) (hs : ∀ c ∈ s.toList, isBlank c = true) :
      Reads bs (.ok none)
  /-- The text is that of an entry. -/
  | entry (s : String) (e : LogEntry) (h : bs = encodeUtf8 s)
      (hs : ¬∀ c ∈ s.toList, isBlank c = true)
      (he : (Json.ofText? s).bind LogEntry.ofJson? = some e) : Reads bs (.ok (some e))
  /-- The text is that of something else. -/
  | malformed (s : String) (h : bs = encodeUtf8 s) (hs : ¬∀ c ∈ s.toList, isBlank c = true)
      (he : (Json.ofText? s).bind LogEntry.ofJson? = none) :
      Reads bs (.error (.serialization "not an audit entry"))

lemma reads_content (l : Line) : Reads l.content l.read := by
  rw [read]
  cases hs : decodeUtf8? l.content with
  | none =>
    refine .garbled fun s he => ?_
    rw [decodeUtf8?_eq_some_iff.mpr he] at hs
    cases hs
  | some s =>
    have hl := decodeUtf8?_eq_some_iff.mp hs
    simp only
    split
    · next hblank => exact .blank s hl (trim_eq_nil_iff.mp hblank)
    · next hblank =>
      have hblank := mt trim_eq_nil_iff.mpr hblank
      split
      · next e he => exact .entry s e hl hblank he
      · next he => exact .malformed s hl hblank he

namespace Reads

variable {bs : List UInt8} {x y : Except SinkError (Option LogEntry)}

lemma read_eq {l : Line} (h : Reads l.content x) : l.read = x := by
  cases h with
  | garbled h =>
    have hnone : decodeUtf8? l.content = none := by
      by_contra hne
      obtain ⟨s, hs⟩ := Option.ne_none_iff_exists'.mp hne
      exact h s (decodeUtf8?_eq_some_iff.mp hs)
    rw [read, hnone]
  | blank s h hs =>
    rw [read, decodeUtf8?_eq_some_iff.mpr h]
    exact if_pos (trim_eq_nil_iff.mpr hs)
  | entry s e h hs he =>
    rw [read, decodeUtf8?_eq_some_iff.mpr h]
    simp only
    rw [if_neg (mt trim_eq_nil_iff.mp hs), he]
  | malformed s h hs he =>
    rw [read, decodeUtf8?_eq_some_iff.mpr h]
    simp only
    rw [if_neg (mt trim_eq_nil_iff.mp hs), he]

/-- Octets read as one thing. -/
lemma unique (hx : Reads bs x) (hy : Reads bs y) : x = y := by
  have hcontent : Line.content ⟨bs, false⟩ = bs := if_neg (by simp)
  rw [← hcontent] at hx hy
  rw [← hx.read_eq, hy.read_eq]

/-- A carriage return behind a line does not change what it reads as. -/
lemma append_return (h : Reads bs x) : Reads (bs ++ [0x0D]) x := by
  have hreturn (s : String) : encodeUtf8 s ++ [0x0D] = encodeUtf8 (s.push '\r') := by
    rw [encodeUtf8_eq, encodeUtf8_eq, String.toList_push, List.flatMap_append, List.flatMap_singleton]
    rfl
  have hblank (s : String) : (∀ c ∈ (s.push '\r').toList, isBlank c = true) ↔
      ∀ c ∈ s.toList, isBlank c = true := by
    rw [String.toList_push, List.forall_mem_append, List.forall_mem_singleton]
    exact and_iff_left rfl
  have hvalue (s : String) : Json.ofText? (s.push '\r') = Json.ofText? s := by
    rw [Json.ofText?, String.toList_push, Json.parse?_append_gap (by decide), Json.ofText?]
  cases h with
  | garbled h =>
    refine .garbled fun s hs => ?_
    obtain ⟨t, c, -, -, ht⟩ := exists_of_encodeUtf8_eq_concat hs.symm (by decide)
    exact h t ht
  | blank s h hs =>
    rw [h, hreturn]
    exact .blank _ rfl ((hblank s).mpr hs)
  | entry s e h hs he =>
    rw [h, hreturn]
    exact .entry _ e rfl (mt (hblank s).mp hs) (by rwa [hvalue])
  | malformed s h hs he =>
    rw [h, hreturn]
    exact .malformed _ rfl (mt (hblank s).mp hs) (by rwa [hvalue])

end Reads

/-- What a line reads as hangs on its octets alone, and not on how it is ended. -/
theorem reads_iff {l : Line} {x : Except SinkError (Option LogEntry)} :
    Reads l.octets x ↔ l.read = x := by
  have hread : Reads l.octets l.read := by
    have h := l.reads_content
    rw [content] at h
    split at h
    · next hend =>
      -- the carriage return that was taken away can be put back
      obtain ⟨init, hinit⟩ := List.getLast?_eq_some_iff.mp hend.2
      rw [hinit, List.dropLast_concat] at h
      rw [hinit]
      exact h.append_return
    · exact h
  constructor
  · exact fun h => hread.unique h
  · rintro rfl
    exact hread

/-! ### Several lines -/

lemma readAll_cons (l : Line) (ls : List Line) :
    readAll (l :: ls) = l.read.bind fun o => (readAll ls).map (o.toList ++ ·) := by
  rw [readAll]
  cases l.read with
  | error e => rfl
  | ok o => cases readAll ls <;> rfl

lemma readAll_cons_eq_ok_iff {l : Line} {ls : List Line} {es : List LogEntry} :
    readAll (l :: ls) = .ok es ↔
      ∃ o es', l.read = .ok o ∧ readAll ls = .ok es' ∧ es = o.toList ++ es' := by
  rw [readAll_cons]
  cases l.read with
  | error e => simp [Except.bind]
  | ok o => cases readAll ls <;> simp [Except.bind, Except.map, eq_comm]

lemma readAll_cons_eq_error_iff {l : Line} {ls : List Line} {e : SinkError} :
    readAll (l :: ls) = .error e ↔ l.read = .error e ∨ ∃ o, l.read = .ok o ∧ readAll ls = .error e := by
  rw [readAll_cons]
  cases l.read with
  | error e' => simp [Except.bind]
  | ok o => cases readAll ls <;> simp [Except.bind, Except.map]

/-- Lines are read if each of them is, and then each one that is not blank gives one entry. -/
lemma readAll_eq_ok_iff {ls : List Line} {es : List LogEntry} :
    readAll ls = .ok es ↔ ∃ os,
      List.Forall₂ (fun l o => Reads l.octets (.ok o)) ls os ∧ es = os.reduceOption := by
  induction ls generalizing es with
  | nil => simp [readAll, eq_comm]
  | cons l ls ih =>
    constructor
    · intro h
      obtain ⟨o, es', hl, hls, rfl⟩ := readAll_cons_eq_ok_iff.mp h
      obtain ⟨os, hos, rfl⟩ := ih.mp hls
      exact ⟨o :: os, .cons (reads_iff.mpr hl) hos, by cases o <;> rfl⟩
    · rintro ⟨_, hos, rfl⟩
      cases hos with
      | @cons _ o _ os hl hos =>
        refine readAll_cons_eq_ok_iff.mpr ⟨o, _, reads_iff.mp hl, ih.mpr ⟨os, hos, rfl⟩, ?_⟩
        cases o <;> rfl

/-- The first line in error decides. -/
lemma readAll_eq_error_iff {ls : List Line} {e : SinkError} :
    readAll ls = .error e ↔ ∃ pre l post, ls = pre ++ l :: post ∧
      (∀ k ∈ pre, ∃ o, Reads k.octets (.ok o)) ∧ Reads l.octets (.error e) := by
  induction ls with
  | nil => simp [readAll]
  | cons l ls ih =>
    rw [readAll_cons_eq_error_iff]
    constructor
    · rintro (hl | ⟨o, hl, hls⟩)
      · exact ⟨[], l, ls, rfl, by simp, reads_iff.mpr hl⟩
      · obtain ⟨pre, l', post, rfl, hpre, hl'⟩ := ih.mp hls
        exact ⟨l :: pre, l', post, rfl, List.forall_mem_cons.mpr ⟨⟨o, reads_iff.mpr hl⟩, hpre⟩, hl'⟩
    · rintro ⟨pre, l', post, he, hpre, hl'⟩
      cases pre with
      | nil =>
        obtain ⟨rfl, rfl⟩ := List.cons.inj he
        exact .inl (reads_iff.mp hl')
      | cons k pre =>
        obtain ⟨rfl, rfl⟩ := List.cons.inj he
        obtain ⟨⟨o, ho⟩, hpre⟩ := List.forall_mem_cons.mp hpre
        exact .inr ⟨o, reads_iff.mp ho, ih.mpr ⟨pre, l', post, rfl, hpre, hl'⟩⟩

/-! ### Line feeds -/

/-- A content is lines that are ended, and what stands behind the last line feed. -/
lemma exists_whole (c : List UInt8) : ∃ d t, c = d ++ t ∧ Whole d ∧ 0x0A ∉ t := by
  induction c using List.reverseRecOn with
  | nil => exact ⟨[], [], rfl, .inl rfl, by simp⟩
  | append_singleton c b ih =>
    by_cases hb : b = 0x0A
    · subst hb
      exact ⟨c ++ [0x0A], [], by simp, whole_append_line c [], by simp⟩
    · obtain ⟨d, t, rfl, hd, ht⟩ := ih
      refine ⟨d, t ++ [b], by simp, hd, ?_⟩
      simpa [ht] using Ne.symm hb

lemma split_feed {t : List UInt8} (h : 0x0A ∉ t) (c : List UInt8) :
    split (t ++ 0x0A :: c) = ⟨t, true⟩ :: split c := by
  have happend : t ++ 0x0A :: c = t ++ [0x0A] ++ c := by simp
  rw [happend, split_append (.inr (by simp)), split_line h]
  rfl

/-- A text without a line feed has no octet of one. -/
lemma feed_not_mem {s : String} (h : '\n' ∉ s.toList) : 0x0A ∉ encodeUtf8 s := by
  intro hmem
  rw [encodeUtf8_eq] at hmem
  obtain ⟨c, hc, hb⟩ := List.mem_flatMap.mp hmem
  obtain rfl : c = '\n' := Char.toNat_inj.mp (toNat_of_mem_utf8EncodeChar hb (by decide))
  exact h hc

end Line

/-! ### Contents -/

/-- A content with one more blank line between its lines, or one more carriage return before one of its line
feeds. -/
inductive Relined : List UInt8 → List UInt8 → Prop
  | blank {c : List UInt8} (h : Whole c) {s : String} (hs : ∀ x ∈ s.toList, isBlank x = true)
      (hfeed : '\n' ∉ s.toList) (d : List UInt8) :
      Relined (c ++ d) (c ++ (encodeUtf8 s ++ 0x0A :: d))
  | feed (c d : List UInt8) : Relined (c ++ 0x0A :: d) (c ++ 0x0D :: 0x0A :: d)

namespace Relined

variable {c d : List UInt8}

lemma readAll_eq (h : Relined c d) : Line.readAll (Line.split d) = Line.readAll (Line.split c) := by
  cases h with
  | @blank c h s hs hfeed d =>
    have hread : Line.read ⟨encodeUtf8 s, true⟩ = .ok none :=
      Line.reads_iff.mp (.blank s rfl hs)
    have hskip : Line.readAll (⟨encodeUtf8 s, true⟩ :: Line.split d) = Line.readAll (Line.split d) := by
      rw [Line.readAll_cons, hread]
      cases Line.readAll (Line.split d) <;> rfl
    rw [Line.split_append h, Line.split_append h, Line.readAll_append, Line.readAll_append,
      Line.split_feed (Line.feed_not_mem hfeed), hskip]
  | feed c d =>
    obtain ⟨c, t, rfl, hc, ht⟩ := Line.exists_whole c
    have hread : Line.Reads (Line.mk t true).octets (Line.read ⟨t, true⟩) := Line.reads_iff.mpr rfl
    have hreturn : Line.read ⟨t ++ [0x0D], true⟩ = Line.read ⟨t, true⟩ :=
      Line.reads_iff.mp hread.append_return
    have happend : c ++ t ++ 0x0D :: 0x0A :: d = c ++ ((t ++ [0x0D]) ++ 0x0A :: d) := by simp
    rw [happend, List.append_assoc c, Line.split_append hc, Line.split_append hc,
      Line.split_feed (by simpa using ht), Line.split_feed ht, Line.readAll_append, Line.readAll_append,
      Line.readAll_cons, Line.readAll_cons, hreturn]

/-- However often it is done. -/
lemma readAll_eq_of_many (h : Relation.ReflTransGen Relined c d) :
    Line.readAll (Line.split d) = Line.readAll (Line.split c) := by
  induction h with
  | refl => rfl
  | tail _ hstep ih => rw [hstep.readAll_eq, ih]

end Relined

namespace AuditFile

/-- What a content behind ended lines reads as is told by these lines first: their error is its error, and
their entries come before its own. Neither blank lines nor carriage returns before line feeds change what a
content reads as. It is read if each of its lines is, with one entry for each line that is not blank, and
fails as the first of its lines does that is in error. -/
theorem readAll_lines (ids : IdSource) {c : List UInt8} (h : Whole c) (d : List UInt8) :
    let entries := fun content => (opened (some content) ids).readAll
    (∀ e, entries c = .error e → entries (c ++ d) = .error e) ∧
      (∀ es, entries c = .ok es → entries (c ++ d) = (entries d).map (es ++ ·)) ∧
      (∀ d', Relation.ReflTransGen Relined d d' → entries d' = entries d) ∧
      (∀ es, entries d = .ok es ↔ ∃ os,
        List.Forall₂ (fun l o => Line.Reads l.octets (.ok o)) (Line.split d) os ∧
          es = os.reduceOption) ∧
      ∀ e, entries d = .error e ↔ ∃ pre l post, Line.split d = pre ++ l :: post ∧
        (∀ k ∈ pre, ∃ o, Line.Reads k.octets (.ok o)) ∧ Line.Reads l.octets (.error e) := by
  intro entries
  have happend : entries (c ++ d) =
      (entries c).bind fun es => (entries d).map (es ++ ·) := by
    show Line.readAll (Line.split (c ++ d)) = _
    rw [Line.split_append h, Line.readAll_append]
    rfl
  refine ⟨fun e he => ?_, fun es hes => ?_, fun d' hd => ?_, fun es => ?_, fun e => ?_⟩
  · rw [happend, he]
    rfl
  · rw [happend, hes]
    rfl
  · exact Relined.readAll_eq_of_many hd
  · exact Line.readAll_eq_ok_iff
  · exact Line.readAll_eq_error_iff

/-- A line that is no entry, behind the line of one, and behind a blank line with another line end. -/
theorem readAll_lines_of_malformed :
    let id : EntityId := ⟨1, by decide⟩
    let e : LogEntry := ⟨id, ⟨⟨id, none, some id⟩, "task.created", .epoch⟩⟩
    let bad := encodeUtf8 "not json"
    let relined := encodeUtf8 "\u2003" ++ 0x0A :: (bad ++ [0x0D, 0x0A])
    Whole e.line ∧
      (opened (some (e.line ++ (bad ++ [0x0A]))) ⟨0⟩).readAll =
        .error (.serialization "not an audit entry") ∧
      (opened (some relined) ⟨0⟩).readAll = .error (.serialization "not an audit entry") := by
  intro id e bad relined
  obtain ⟨-, happend, hrelined, -, herror⟩ := readAll_lines ⟨0⟩ e.whole_line (bad ++ [0x0A])
  have hsplit : Line.split (bad ++ [0x0A]) = [⟨bad, true⟩] :=
    Line.split_line (Line.feed_not_mem (by decide))
  have hmalformed : Line.Reads bad (.error (.serialization "not an audit entry")) :=
    .malformed "not json" rfl (fun h => absurd (h 'n' (by decide)) (by decide)) rfl
  have hbad : (opened (some (bad ++ [0x0A])) ⟨0⟩).readAll =
      .error (.serialization "not an audit entry") :=
    (herror _).mpr ⟨[], _, [], hsplit, by simp, hmalformed⟩
  refine ⟨e.whole_line, ?_, ?_⟩
  · refine (happend [e] (readAll_opened_line e ⟨0⟩)).trans ?_
    simp only [hbad]
    rfl
  · have hspace : ∀ x ∈ "\u2003".toList, isBlank x = true := by
      intro x hx
      obtain rfl : x = '\u2003' := by simpa using hx
      rfl
    have hblank : Relined (bad ++ [0x0A]) (encodeUtf8 "\u2003" ++ 0x0A :: (bad ++ [0x0A])) :=
      .blank (.inl rfl) hspace (by decide) (bad ++ [0x0A])
    have hfeed : Relined (encodeUtf8 "\u2003" ++ 0x0A :: (bad ++ [0x0A])) relined := by
      have h := Relined.feed (encodeUtf8 "\u2003" ++ 0x0A :: bad) []
      simpa [relined] using h
    exact (hrelined _ (.tail (.single hblank) hfeed)).trans hbad

end AuditFile

end BoardAudit
