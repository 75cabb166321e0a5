import BoardAudit.Proofs.Text.Trimming
import BoardAudit.Proofs.Tracker.Rejection

/-!
# Names

A kind or an action is read from its name between blank characters and from nothing else, and what is read
as neither is told without the blank characters at its ends (`ReadsNames`). A trigger is read from names in one
way wherever they come in: `Tracker.enqueueNames_exact`.
-/

namespace BoardAudit

open Text (isBlank trim trimmed trimmed_eq_iff trimmed_eq_empty_iff Bare Around)

/-! ### Kinds and actions -/

/-- Whether a reader finds just the names of some things, each between blank characters. What is blank is
an error of its own, and every other text is told from its first character that is not blank to its last. -/
structure ReadsNames {α : Type} (read : String → Except TriggerError α) (name : α → String)
    (empty : TriggerError) (unknown : String → TriggerError) : Prop where
  ok_iff : ∀ s a, read s = .ok a ↔ Around (name a).toList s.toList
  empty_iff : ∀ s, read s = .error empty ↔ ∀ c ∈ s.toList, isBlank c = true
  unknown_of : ∀ s, (∀ a, ¬ Around (name a).toList s.toList) → (∃ c ∈ s.toList, isBlank c = false) →
    ∃ value : String, read s = .error (unknown value) ∧
      Around value.toList s.toList ∧ Bare value.toList

/-- Looking up what is left between blank characters finds just the names of things. -/
lemma readsNames_of {α : Type} {read : String → Except TriggerError α} {name : α → String}
    {ofName? : String → Option α} {empty : TriggerError} {unknown : String → TriggerError}
    (hname : ∀ s a, ofName? s = some a ↔ s = name a) (hbare : ∀ a, Bare (name a).toList)
    (hempty : ∀ a, name a ≠ "") (hunknown : ∀ v, v ≠ "" → unknown v ≠ empty)
    (hread : ∀ s, read s =
      match ofName? (trimmed s) with
      | some a => .ok a
      | none => .error (if trimmed s = "" then empty else unknown (trimmed s))) :
    ReadsNames read name empty unknown := by
  have hok (s : String) (a : α) : read s = .ok a ↔ trimmed s = name a := by
    rw [← hname, hread]
    cases ofName? (trimmed s) <;> simp
  have herror (s : String) (h : ∀ a, trimmed s ≠ name a) :
      read s = .error (if trimmed s = "" then empty else unknown (trimmed s)) := by
    have hnone : ofName? (trimmed s) = none :=
      Option.eq_none_iff_forall_ne_some.mpr fun a ha => h a ((hname _ a).mp ha)
    rw [hread, hnone]
  constructor
  case ok_iff =>
    intro s a
    rw [hok, trimmed_eq_iff]
    exact ⟨And.left, fun h => ⟨h, hbare a⟩⟩
  case empty_iff =>
    intro s
    rw [← trimmed_eq_empty_iff]
    constructor
    · intro h
      by_contra hne
      by_cases hnamed : ∃ a, trimmed s = name a
      · obtain ⟨a, ha⟩ := hnamed
        rw [(hok s a).mpr ha] at h
        cases h
      · rw [herror s (not_exists.mp hnamed), if_neg hne] at h
        exact hunknown _ hne (Except.error.inj h)
    · intro h
      rw [herror s (fun a ha => hempty a (ha.symm.trans h)), if_pos h]
  case unknown_of =>
    rintro s hnames ⟨c, hc, hcb⟩
    obtain ⟨haround, hbare⟩ := trimmed_eq_iff.mp (rfl : trimmed s = _)
    refine ⟨trimmed s, ?_, haround, hbare⟩
    have hne : trimmed s ≠ "" := by
      intro h
      rw [trimmed_eq_empty_iff.mp h c hc] at hcb
      cases hcb
    rw [herror s (fun a ha => hnames a (ha ▸ haround)), if_neg hne]

lemma Kind.readsNames : ReadsNames ofText name .emptyKind .unknownKind := by
  refine readsNames_of (fun _ _ => ofName?_eq_some_iff) ?_ ?_ (by simp) fun s => ?_
  · intro k
    cases k <;> decide
  · intro k
    cases k <;> decide
  · simp only [ofText, trimmed]
    cases ofName? (String.ofList (trim s.toList)) <;> rfl

lemma Action.readsNames : ReadsNames ofText name (.unknownAction "") .unknownAction := by
  refine readsNames_of (fun _ _ => ofName?_eq_some_iff) ?_ ?_ (by simp) fun s => ?_
  · intro a
    cases a <;> decide
  · intro a
    cases a <;> decide
  · have hvalue : (if trimmed s = "" then TriggerError.unknownAction "" else .unknownAction (trimmed s)) =
        .unknownAction (trimmed s) := by
      split
      · next h => rw [h]
      · rfl
    rw [hvalue]
    simp only [ofText, trimmed]
    cases ofName? (String.ofList (trim s.toList)) <;> rfl

/-! ### Triggers -/

namespace Trigger

variable {kind action : String} {id : EntityId} {t : Trigger} {e : TriggerError}

lemma parse_eq_ok_iff : parse kind id action = .ok t ↔
    ∃ k a, Kind.ofText kind = .ok k ∧ Action.ofText action = .ok a ∧ id ≠ .nil ∧
      t = ⟨k, id, a, ∅⟩ := ofNames_eq_ok_iff

/-- Of several errors the one of the kind is told before that of the action, and that before the one of the
id. -/
lemma parse_eq_error_iff : parse kind id action = .error e ↔
    Kind.ofText kind = .error e ∨ (∃ k, Kind.ofText kind = .ok k) ∧
      (Action.ofText action = .error e ∨ (∃ a, Action.ofText action = .ok a) ∧
        id = .nil ∧ e = .emptyId) := by
  unfold parse
  cases hk : Kind.ofText kind with
  | error ek => simp [bind, Except.bind]
  | ok k =>
    cases ha : Action.ofText action with
    | error ea => simp [bind, Except.bind]
    | ok a =>
      by_cases hn : id.isNil = true
      · obtain rfl := EntityId.isNil_iff.mp hn
        have hmake : make k .nil a ∅ = .error .emptyId := if_pos rfl
        simp [bind, Except.bind, hmake, eq_comm]
      · have hmake : make k id a ∅ = .ok ⟨k, id, a, ∅⟩ := if_neg hn
        have hne : id ≠ .nil := fun h => hn (EntityId.isNil_iff.mpr h)
        simp [bind, Except.bind, hmake, hne]

/-- With notes a trigger is read from names as without them. -/
lemma ofNames_eq_map_parse (metadata : Metadata) :
    ofNames kind id action metadata = (parse kind id action).map fun t => { t with metadata } := by
  unfold ofNames parse
  cases Kind.ofText kind with
  | error ek => rfl
  | ok k =>
    cases Action.ofText action with
    | error ea => rfl
    | ok a =>
      simp only [bind, Except.bind, make]
      split <;> rfl

end Trigger

namespace Tracker

variable {σ : Type}

lemma enqueueNames_of_ok (tracker : Tracker σ) {kind action : String} {id : EntityId} {t : Trigger}
    (h : Trigger.parse kind id action = .ok t) (metadata : Metadata) :
    tracker.enqueueNames kind id action metadata = ([], tracker.enqueue { t with metadata }) := by
  rw [enqueueNames, Trigger.ofNames_eq_map_parse, h]
  rfl

lemma enqueueNames_of_error (tracker : Tracker σ) {kind action : String} {id : EntityId}
    {e : TriggerError} (h : Trigger.parse kind id action = .error e) (metadata : Metadata) :
    tracker.enqueueNames kind id action metadata =
      ([.triggerRejected kind action e], tracker.reject) := by
  rw [enqueueNames, Trigger.ofNames_eq_map_parse, h]
  rfl

/-- **Names.** Kinds and actions are read from their names between blank characters, and from nothing else;
what is blank names no kind and, as an action, is told as the empty name; every other text is told without
the blank characters at its ends. A trigger is read from names if these name a kind and an action and the id
is not nil, and of several faults the kind's is told first, then the action's, then the id's. Names that a
tracker gets are offered as the trigger that they are read as, with the notes, or else change nothing but the
count of what is rejected; and that count tells which of both it was. -/
theorem enqueueNames_exact (tracker : Tracker σ) (kind action : String) (id : EntityId)
    (metadata : Metadata) :
    ReadsNames Kind.ofText Kind.name .emptyKind .unknownKind ∧
    ReadsNames Action.ofText Action.name (.unknownAction "") .unknownAction ∧
    (∀ t, Trigger.parse kind id action = .ok t ↔
      ∃ k a, Kind.ofText kind = .ok k ∧ Action.ofText action = .ok a ∧ id ≠ .nil ∧
        t = ⟨k, id, a, ∅⟩) ∧
    (∀ e, Trigger.parse kind id action = .error e ↔
      Kind.ofText kind = .error e ∨ (∃ k, Kind.ofText kind = .ok k) ∧
        (Action.ofText action = .error e ∨ (∃ a, Action.ofText action = .ok a) ∧
          id = .nil ∧ e = .emptyId)) ∧
    (∀ t, Trigger.parse kind id action = .ok t →
      tracker.enqueueNames kind id action metadata = ([], tracker.enqueue { t with metadata }) ∧
      (tracker.enqueue { t with metadata }).inbox.admissions.rejected =
        tracker.inbox.admissions.rejected) ∧
    ∀ e, Trigger.parse kind id action = .error e →
      tracker.enqueueNames kind id action metadata = ([.triggerRejected kind action e],
        { tracker with
          inbox := { tracker.inbox with
            admissions := { tracker.inbox.admissions with
              rejected := tracker.inbox.admissions.rejected + 1 } } }) := by
  refine ⟨Kind.readsNames, Action.readsNames, fun _ => Trigger.parse_eq_ok_iff,
    fun _ => Trigger.parse_eq_error_iff, ?_, fun _ h => tracker.enqueueNames_of_error h metadata⟩
  intro t h
  obtain ⟨k, a, -, -, hne, rfl⟩ := Trigger.parse_eq_ok_iff.mp h
  refine ⟨tracker.enqueueNames_of_ok h metadata, ?_⟩
  exact (tracker.inbox.offer_of_ne_nil (t := ⟨k, id, a, metadata⟩) hne).1

/-- Names among blank characters are queued as a trigger, with its notes; and of three faults that of the
kind is told, whose blank character between the letters stays. -/
theorem enqueueNames_exact_of_blanks :
    let tracker : Tracker Unit := .start .default ()
    let id : EntityId := ⟨1, by decide⟩
    let notes : Metadata := Std.ExtTreeMap.empty.insert "by" "me"
    (tracker.enqueueNames "\u2003task\n" id " status_changed" notes).2.inbox.queue =
      [⟨.task, id, .statusChanged, notes⟩] ∧
    tracker.enqueueNames "\tta sk" .nil "gone" notes =
      ([.triggerRejected "\tta sk" "gone" (.unknownKind "ta sk")],
        { tracker with inbox := { tracker.inbox with admissions := ⟨0, 1, 0, 0⟩ } }) := by
  intro tracker id notes
  constructor
  · obtain ⟨hkind, haction, hok, -, hqueued, -⟩ :=
      tracker.enqueueNames_exact "\u2003task\n" " status_changed" id notes
    have htask : Kind.ofText "\u2003task\n" = .ok .task :=
      (hkind.ok_iff _ _).mpr ⟨['\u2003'], ['\n'], List.all_eq_true.mp rfl, List.all_eq_true.mp rfl, by decide⟩
    have hmoved : Action.ofText " status_changed" = .ok .statusChanged :=
      (haction.ok_iff _ _).mpr ⟨[' '], [], List.all_eq_true.mp rfl, List.all_eq_true.mp rfl, by decide⟩
    have hparse := (hok _).mpr ⟨.task, .statusChanged, htask, hmoved, by decide, rfl⟩
    rw [(hqueued _ hparse).1]
    rfl
  · obtain ⟨-, -, -, herror, -, hrejected⟩ :=
      tracker.enqueueNames_exact "\tta sk" "gone" .nil notes
    have hunknown : Kind.ofText "\tta sk" = .error (.unknownKind "ta sk") := by decide
    exact hrejected _ ((herror _).mpr (.inl hunknown))

end Tracker

end BoardAudit
