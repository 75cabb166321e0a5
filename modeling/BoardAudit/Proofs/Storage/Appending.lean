import BoardAudit.Proofs.Storage.Lines

/-!
# Appending to a file

What is read of a file after entries were inserted is what was read of it before, and then these entries
(`AuditFile.readAll_run`). A file stays ready for this through inserting and opening again
(`AuditFile.Ready`): it is the one at the path, and its last line is ended.
-/

namespace BoardAudit.AuditFile

/-! ### Steps -/

/-- What is done to a file that nobody else writes to: an entry is inserted, or the path is opened
again. -/
inductive Step where
  | insert (m : LogModel)
  | reopen

/-- The audit entry that a step inserts. -/
def Step.model? : Step → Option LogModel
  | .insert m => some m
  | .reopen => none

/-- The entries that a step writes, and the file after it. -/
def step (f : AuditFile) : Step → List LogEntry × AuditFile
  | .insert m => ([(f.insert m).1], (f.insert m).2)
  | .reopen => ([], f.reopen)

/-- The entries that steps write, and the file after them. -/
def run (f : AuditFile) : List Step → List LogEntry × AuditFile
  | [] => ([], f)
  | s :: ss => ((f.step s).1 ++ ((f.step s).2.run ss).1, ((f.step s).2.run ss).2)

/-- The entries that steps write hold the audit entries that they insert. -/
lemma log_run (f : AuditFile) (ss : List Step) :
    (f.run ss).1.map LogEntry.log = ss.filterMap Step.model? := by
  induction ss generalizing f with
  | nil => rfl
  | cons s ss ih =>
    cases s with
    | insert m =>
      rw [run, List.map_append, ih]
      rfl
    | reopen =>
      rw [run, List.map_append, ih]
      rfl

/-! ### Files that are appended to -/

/-- Whether the open file is the one at the path, and what is appended to it begins a line. -/
structure Ready (f : AuditFile) : Prop where
  attached : f.attached = true
  whole : ∃ c, f.content = some c ∧ Whole c

lemma ready_opened {content : Option (List UInt8)} (h : Whole (content.getD [])) (ids : IdSource) :
    (opened content ids).Ready := ⟨rfl, _, rfl, h⟩

namespace Ready

variable {f : AuditFile}

/-- Inserting appends a line, which is read after the others. -/
lemma insert (h : f.Ready) (m : LogModel) : (f.insert m).2.Ready ∧
    (f.insert m).2.readAll = f.readAll.map (· ++ [(f.insert m).1]) := by
  obtain ⟨c, hc, hwhole⟩ := h.whole
  have hcontent : (f.insert m).2.content = some (c ++ (f.insert m).1.line) := by
    show (if f.attached = true then f.content.map _ else f.content) = _
    rw [if_pos h.attached, hc]
    rfl
  refine ⟨⟨h.attached, _, hcontent, whole_append_line c _⟩, ?_⟩
  rw [readAll, readAll, hcontent, hc]
  simp only
  rw [Line.split_append hwhole, Line.readAll_append, LogEntry.readAll_line]
  cases Line.readAll (Line.split c) <;> rfl

/-- Opening the path again changes nothing. -/
lemma reopen_eq (h : f.Ready) : f.reopen = f := by
  obtain ⟨c, hc, -⟩ := h.whole
  obtain ⟨content, attached, ids⟩ := f
  obtain rfl : content = some c := hc
  obtain rfl : attached = true := h.attached
  rfl

/-- A step leaves a file ready and adds to what is read of it the entries that it writes. -/
lemma step (h : f.Ready) (s : Step) :
    (f.step s).2.Ready ∧ (f.step s).2.readAll = f.readAll.map (· ++ (f.step s).1) := by
  cases s with
  | insert m => exact h.insert m
  | reopen =>
    have hsame : (f.step .reopen) = ([], f) := congrArg _ h.reopen_eq
    rw [hsame]
    refine ⟨h, ?_⟩
    cases f.readAll <;> simp [Except.map]

/-- So do all steps of a run, by induction on them. -/
theorem run (h : f.Ready) (ss : List Step) :
    (f.run ss).2.Ready ∧ (f.run ss).2.readAll = f.readAll.map (· ++ (f.run ss).1) := by
  induction ss generalizing f with
  | nil =>
    refine ⟨h, ?_⟩
    cases hread : f.readAll <;> simp [AuditFile.run, Except.map, hread]
  | cons s ss ih =>
    obtain ⟨hready, hstep⟩ := h.step s
    obtain ⟨hready', hrun⟩ := ih hready
    refine ⟨hready', ?_⟩
    rw [AuditFile.run]
    simp only
    rw [hrun, hstep]
    cases f.readAll <;> simp [Except.map]

end Ready

/-- What is inserted into a file whose last line is ended is read after what was read before, in the order
of insertion, over any opening again; and what could not be read before fails as before. -/
theorem readAll_run {content : Option (List UInt8)} (h : Whole (content.getD [])) (ids : IdSource)
    (ss : List Step) :
    let f := opened content ids
    (f.run ss).1.map LogEntry.log = ss.filterMap Step.model? ∧
      (f.run ss).2.readAll = f.readAll.map (· ++ (f.run ss).1) :=
  ⟨log_run _ ss, ((ready_opened h ids).run ss).2⟩

/-- Two entries behind a line that was there, one before and one after opening again. -/
theorem readAll_run_of_line :
    let id : EntityId := ⟨1, by decide⟩
    let m : LogModel := ⟨⟨id, none, some id⟩, "\r\n\x22\x5c\x00\u2028", .epoch⟩
    let m' : LogModel := ⟨⟨id, some id, none⟩, " ", .epoch⟩
    let e : LogEntry := ⟨id, m'⟩
    let ss : List Step := [.insert m, .reopen, .insert m']
    Whole e.line ∧ ((opened (some e.line) ⟨0⟩).run ss).2.readAll =
      .ok [e, ⟨.random 0, m⟩, ⟨.random 1, m'⟩] := by
  intro id m m' e ss
  have hwhole : Whole ((some e.line).getD []) := by
    rw [Option.getD_some]
    exact e.whole_line
  have hwritten : ((opened (some e.line) ⟨0⟩).run ss).1 =
      [⟨.random 0, m⟩, ⟨.random 1, m'⟩] := rfl
  have hafter := (readAll_run hwhole ⟨0⟩ ss).2
  rw [readAll_opened_line, hwritten] at hafter
  exact ⟨e.whole_line, hafter⟩

end BoardAudit.AuditFile
