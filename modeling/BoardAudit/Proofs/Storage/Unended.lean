import BoardAudit.Proofs.Storage.Contents

/-!
# Unended lines

What is inserted into a file is appended to it, whether or not its last line is ended. A line that is not
ended is read like any other, but what is appended prolongs it: unless there is only the white space of JSON
behind the last line feed, the file is not read any more after inserting (`AuditFile.readAll_insert_iff`).
So inserting can spoil a file that is read (`AuditFile.exists_spoiled`).
-/

namespace BoardAudit

open Text

namespace Line

/-! ### The last line -/

lemma ended_of_whole {c : List UInt8} (h : Whole c) : ∀ l ∈ split c, l.ended = true := by
  induction c with
  | nil => simp [split]
  | cons b c ih =>
    obtain ⟨hlast, hc⟩ := whole_cons.mp h
    rw [split]
    by_cases hb : b = 0x0A
    · rw [if_pos hb]
      exact List.forall_mem_cons.mpr ⟨rfl, ih hc⟩
    · -- `b` begins the first line of what is behind it
      obtain ⟨l, ls, hls⟩ := List.exists_cons_of_ne_nil (split_ne_nil fun he => hb (hlast he))
      have ih := ih hc
      rw [hls, List.forall_mem_cons] at ih
      rw [if_neg hb, hls]
      exact List.forall_mem_cons.mpr ih

lemma split_unended {t : List UInt8} (hne : t ≠ []) (h : 0x0A ∉ t) : split t = [⟨t, false⟩] := by
  induction t with
  | nil => exact absurd rfl hne
  | cons b t ih =>
    rw [List.mem_cons, not_or] at h
    rw [split, if_neg (Ne.symm h.1)]
    cases t with
    | nil => rfl
    | cons b' t => rw [ih (by simp) h.2]

lemma Reads.exists_text {bs : List UInt8} {o : Option LogEntry} (h : Reads bs (.ok o)) :
    ∃ s, bs = encodeUtf8 s := by
  cases h with
  | blank s h _ | entry s _ h _ _ => exact ⟨s, h⟩

/-- What stands behind the last line feed is one line more, if it is anything. -/
lemma readAll_behind {d t : List UInt8} (hd : Whole d) (ht : 0x0A ∉ t)
    {x : Except SinkError (Option LogEntry)} (hx : Reads t x) :
    readAll (split (d ++ t)) = (readAll (split d)).bind fun es => x.map (es ++ ·.toList) := by
  have hlast : readAll (split t) = x.map Option.toList := by
    by_cases hne : t = []
    · subst hne
      have hread : read ⟨[], true⟩ = x := reads_iff.mp hx
      rw [← hread]
      rfl
    · have hread : read ⟨t, false⟩ = x := reads_iff.mp hx
      rw [split_unended hne ht, readAll_cons, hread]
      rcases x with e | _ | e <;> rfl
  rw [split_append hd, readAll_append, hlast]
  cases x <;> rfl

/-- A line feed at the end changes nothing. -/
lemma readAll_append_feed (c : List UInt8) : readAll (split (c ++ [0x0A])) = readAll (split c) := by
  obtain ⟨d, t, rfl, hd, ht⟩ := exists_whole c
  have hx : Reads t (read ⟨t, true⟩) := (reads_iff (l := ⟨t, true⟩)).mpr rfl
  rw [readAll_behind hd ht hx, List.append_assoc, split_append hd, split_line ht, readAll_append,
    readAll_cons]
  rcases read ⟨t, true⟩ with e | _ | e <;> rfl

end Line

/-! ### An entry behind an unended line -/

namespace LogEntry

variable {s : String}

lemma exists_brace (e : LogEntry) : ∃ cs, e.toJson.render = '\x7b' :: cs := ⟨_, rfl⟩

/-- The text of an entry with another one in front. -/
lemma toList_behind (e : LogEntry) (s : String) :
    (s ++ e.toJson.compress).toList = s.toList ++ e.toJson.render := by
  rw [String.toList_append, Json.compress, String.toList_ofList]

lemma not_blank_behind (e : LogEntry) (s : String) :
    ¬∀ c ∈ (s ++ e.toJson.compress).toList, isBlank c = true := by
  intro h
  obtain ⟨cs, hcs⟩ := e.exists_brace
  rw [toList_behind, hcs] at h
  exact absurd (h '\x7b' (by simp)) (by decide)

lemma not_gap (e : LogEntry) : ¬Json.Gap e.toJson.compress.toList := by
  intro h
  obtain ⟨cs, hcs⟩ := e.exists_brace
  rw [Json.compress, String.toList_ofList, hcs] at h
  exact absurd (Json.gap_cons.mp h).1 (by decide)

lemma reads (e : LogEntry) : Line.Reads e.octets (.ok (some e)) :=
  (Line.reads_iff (l := ⟨e.octets, true⟩)).mpr e.read_line

/-- The line of an entry is read behind white space. -/
lemma reads_behind_gap (e : LogEntry) (h : Json.Gap s.toList) :
    Line.Reads (encodeUtf8 s ++ e.octets) (.ok (some e)) := by
  refine .entry (s ++ e.toJson.compress) e (encodeUtf8_append ..).symm (e.not_blank_behind s) ?_
  rw [Json.ofText?, toList_behind, Json.parse?_gap_render h, Option.bind_some, ofJson?_toJson]

/-- It is not behind anything else that is read. -/
lemma reads_behind (e : LogEntry) {o : Option LogEntry} (hs : Line.Reads (encodeUtf8 s) (.ok o))
    (hgap : ¬Json.Gap s.toList) :
    Line.Reads (encodeUtf8 s ++ e.octets) (.error (.serialization "not an audit entry")) := by
  obtain ⟨cs, hcs⟩ := e.exists_brace
  refine .malformed (s ++ e.toJson.compress) (encodeUtf8_append ..).symm (e.not_blank_behind s) ?_
  suffices Json.parse? (s.toList ++ e.toJson.render) = none by
    rw [Json.ofText?, toList_behind, this, Option.bind_none]
  cases hs with
  | blank s' h hblank =>
    obtain rfl := encodeUtf8_injective h
    -- the first blank character that is no white space of JSON
    obtain ⟨gap, hskipped, he, hhead⟩ := Json.exists_gap s.toList
    obtain ⟨c, rest, hrest⟩ := List.exists_cons_of_ne_nil (mt Json.skipSpace_eq_nil_iff.mp hgap)
    rw [hrest] at he hhead
    rw [he, List.append_assoc]
    exact Json.parse?_blank hskipped (hhead c rfl) (hblank c (by simp [he])) _
  | entry s' e' h _ he' =>
    obtain rfl := encodeUtf8_injective h
    obtain ⟨j, hj, -⟩ := Option.bind_eq_some_iff.mp he'
    rw [hcs]
    exact Json.parse?_append_eq_none hj (.cons (by decide)) (List.cons_ne_nil _ _)

end LogEntry

/-! ### Inserting -/

/-- Whether there is only white space of JSON behind the last line feed. -/
def Appendable (c : List UInt8) : Prop :=
  ∀ l ∈ Line.split c, l.ended = true ∨ ∃ s, l.octets = encodeUtf8 s ∧ Json.Gap s.toList

lemma appendable_iff {d : List UInt8} {s : String} (hd : Whole d) (hs : 0x0A ∉ encodeUtf8 s) :
    Appendable (d ++ encodeUtf8 s) ↔ Json.Gap s.toList := by
  rw [Appendable, Line.split_append hd, List.forall_mem_append]
  by_cases hne : encodeUtf8 s = []
  · have hempty : encodeUtf8 "" = [] := by
      rw [encodeUtf8_eq]
      rfl
    obtain rfl := encodeUtf8_injective (hne.trans hempty.symm)
    rw [hempty]
    refine ⟨fun _ => Json.gap_nil, fun _ => ⟨fun l hl => .inl (Line.ended_of_whole hd l hl), ?_⟩⟩
    exact List.forall_mem_nil _
  · rw [Line.split_unended hne hs, List.forall_mem_singleton]
    constructor
    · rintro ⟨-, hended | ⟨s', he, hgap⟩⟩
      · cases hended
      · obtain rfl := encodeUtf8_injective he
        exact hgap
    · exact fun hgap => ⟨fun l hl => .inl (Line.ended_of_whole hd l hl), .inr ⟨s, rfl, hgap⟩⟩

namespace AuditFile

/-- What is read after inserting, the line feed at the end aside. -/
lemma readAll_insert (c : List UInt8) (ids : IdSource) (m : LogModel) :
    ((opened (some c) ids).insert m).2.readAll =
      Line.readAll (Line.split (c ++ ((opened (some c) ids).insert m).1.octets)) := by
  rw [← Line.readAll_append_feed, List.append_assoc]
  rfl

lemma feed_not_mem_space : 0x0A ∉ encodeUtf8 " " := Line.feed_not_mem (by decide)

lemma readAll_line_space (e : LogEntry) (ids : IdSource) :
    (opened (some (e.line ++ encodeUtf8 " ")) ids).readAll = .ok [e] := by
  have hgap : Json.Gap " ".toList := by decide
  have h := Line.readAll_behind e.whole_line feed_not_mem_space (.blank " " rfl hgap.isBlank)
  rw [e.readAll_line] at h
  exact h

/-- What is inserted into a file that is read is read behind what was read before, exactly if there is only
white space of JSON behind the last line feed; otherwise the file is not read any more. -/
theorem readAll_insert_iff {c : List UInt8} {es : List LogEntry} (ids : IdSource)
    (h : (opened (some c) ids).readAll = .ok es) (m : LogModel) :
    let inserted := (opened (some c) ids).insert m
    inserted.1.log = m ∧ (inserted.2.readAll = .ok (es ++ [inserted.1]) ↔ Appendable c) ∧
      (¬Appendable c → inserted.2.readAll = .error (.serialization "not an audit entry")) := by
  intro inserted
  obtain ⟨e, he⟩ : ∃ e, e = inserted.1 := ⟨_, rfl⟩
  obtain ⟨d, t, rfl, hd, ht⟩ := Line.exists_whole c
  obtain ⟨x, hx⟩ : ∃ x, Line.Reads t x := ⟨_, (Line.reads_iff (l := ⟨t, true⟩)).mpr rfl⟩
  -- what stood behind the last line feed is prolonged
  have hinserted : inserted.2.readAll = Line.readAll (Line.split (d ++ (t ++ e.octets))) := by
    rw [readAll_insert, ← he, List.append_assoc]
  have hafter {y : Except SinkError (Option LogEntry)} (hy : Line.Reads (t ++ e.octets) y) :=
    Line.readAll_behind hd (by simp [ht, e.feed_not_mem_octets]) hy
  have hbefore : _ = Except.ok es := (Line.readAll_behind hd ht hx).symm.trans h
  cases hlines : Line.readAll (Line.split d) with
  | error _ =>
    rw [hlines] at hbefore
    cases hbefore
  | ok es' =>
    rw [hlines] at hbefore hafter
    cases x with
    | error _ => cases hbefore
    | ok o =>
      obtain rfl : es' ++ o.toList = es := Except.ok.inj hbefore
      obtain ⟨s, rfl⟩ := hx.exists_text
      refine ⟨rfl, ?_⟩
      rw [appendable_iff hd ht, hinserted, ← he]
      by_cases hgap : Json.Gap s.toList
      · cases hx.unique (.blank s rfl hgap.isBlank)
        rw [hafter (e.reads_behind_gap hgap), Option.toList_none, List.append_nil]
        exact ⟨⟨fun _ => hgap, fun _ => rfl⟩, fun hne => absurd hgap hne⟩
      · have hspoiled := hafter (e.reads_behind hx hgap)
        refine ⟨⟨fun hread => ?_, fun h => absurd h hgap⟩, fun _ => hspoiled⟩
        cases hspoiled.symm.trans hread

/-- A space behind the last line feed does no harm. -/
theorem readAll_insert_iff_of_space :
    let id : EntityId := ⟨1, by decide⟩
    let m : LogModel := ⟨⟨id, none, none⟩, "project.created", .epoch⟩
    let e : LogEntry := ⟨id, m⟩
    let f := opened (some (e.line ++ encodeUtf8 " ")) ⟨0⟩
    f.readAll = .ok [e] ∧ (f.insert m).2.readAll = .ok [e, ⟨.random 0, m⟩] := by
  intro id m e f
  have hread := readAll_line_space e ⟨0⟩
  have happendable := (appendable_iff e.whole_line feed_not_mem_space).mpr (by decide)
  obtain ⟨-, hiff, -⟩ := readAll_insert_iff ⟨0⟩ hread m
  exact ⟨hread, hiff.mpr happendable⟩

lemma readAll_octets (e : LogEntry) (ids : IdSource) :
    (opened (some e.octets) ids).readAll = .ok [e] := by
  have h := Line.readAll_behind (.inl rfl) e.feed_not_mem_octets e.reads
  rw [List.nil_append] at h
  exact h

/-- Behind an entry whose line is not ended, another one is not read, nor is the first one any more. -/
lemma readAll_insert_octets (e : LogEntry) (ids : IdSource) (m : LogModel) :
    ((opened (some e.octets) ids).insert m).2.readAll =
      .error (.serialization "not an audit entry") := by
  rw [readAll_insert]
  generalize ((opened (some e.octets) ids).insert m).1 = e'
  have hfeed : 0x0A ∉ e.octets ++ e'.octets := by
    simp [LogEntry.feed_not_mem_octets]
  have h := Line.readAll_behind (.inl rfl) hfeed (e'.reads_behind e.reads e.not_gap)
  rw [List.nil_append] at h
  exact h

/-- Inserting can spoil a file that is read. -/
theorem exists_spoiled :
    let id : EntityId := ⟨1, by decide⟩
    let m : LogModel := ⟨⟨id, none, none⟩, "project.created", .epoch⟩
    let f := opened (some (LogEntry.octets ⟨id, m⟩)) ⟨0⟩
    f.readAll = .ok [⟨id, m⟩] ∧
      (f.insert m).2.readAll = .error (.serialization "not an audit entry") :=
  ⟨readAll_octets _ _, readAll_insert_octets _ _ _⟩

end AuditFile

end BoardAudit
