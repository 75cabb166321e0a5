import BoardAudit.Proofs.Tracker.Turns
import BoardAudit.Simulation.Rehearsal

/-!
# Rehearsals as runs

Scenarios and rehearsals work their tracker by hand. Whatever is done with them is a run of steps of a
tracker among its threads, in the world as it is at that time (`Scenario.Turn.steps`,
`Rehearsal.Turn.steps`). So every rehearsal, at either pace and with a worker that is parked or not, shows
a state that such a tracker can be in (`Rehearsal.exists_shows`).
-/

namespace BoardAudit.Simulation

open Relation (ReflTransGen)

/-! ### Scenarios -/

namespace Scenario

/-- What can be done with a scenario that a tracker among its threads can do too. What goes past its inbox
is not among it. -/
inductive Turn : Scenario → Scenario → Prop where
  /-- The world becomes another one, or something is told or reported. -/
  | aside (s s' : Scenario) (h : s'.tracker = s.tracker) : Turn s s'
  | request (s : Scenario) (r : Request) : Turn s { s with tracker := s.tracker.request r }
  | offer (s : Scenario) (t : Trigger) : Turn s (s.offer t).2
  | reject (s : Scenario) : Turn s (s.mapInbox Inbox.reject)
  | pump (s : Scenario) (n : ℕ) : Turn s (s.pump n).2
  | drain (s : Scenario) : Turn s s.drain.2
  | beginStop (s : Scenario) : Turn s (s.mapInbox fun i => i.beginStop.2)
  | finish (s : Scenario) (h : s.tracker.inbox.lifecycle = .stopping) : Turn s s.finish.2

/-- What can be done with a scenario, one thing after the other. -/
abbrev Turns : Scenario → Scenario → Prop := ReflTransGen Turn

variable {s s' : Scenario}

/-- The tracker is worked by hand, or left alone. -/
lemma Turn.turns (turn : Turn s s') : s.tracker.Turns s'.tracker := by
  cases turn with
  | aside _ h => exact h ▸ .refl
  | request r => exact .single (.request s.tracker r)
  | offer t => exact .single (.request s.tracker (.trigger t))
  | reject => exact .single (.request s.tracker (.record .task .nil .created))
  | pump n => exact .single (.pump s.tracker n)
  | drain => exact .single (.drain s.tracker s.world.environment)
  | beginStop => exact .single (.beginStop s.tracker)
  | finish h => exact .single (.finish s.tracker s.world.environment h)

lemma turns_tracker (turns : s.Turns s') : s.tracker.Turns s'.tracker :=
  turns.lift' tracker fun _ _ turn => turn.turns

/-- What is done with a scenario is a run of steps. -/
theorem Turn.steps (turn : Turn s s') {u : System MemoryLog} (h : u.Shows s.tracker) :
    ∃ v, System.Steps u v ∧ v.Shows s'.tracker :=
  h.turns turn.turns

/-- Whatever was done with a scenario since it was started, it shows a state of a tracker among its threads
that steps lead to. -/
theorem exists_shows {config : Config} {ids : IdSource} {first : Scenario}
    (h : start? config ids = some first) (turns : first.Turns s) :
    ∃ u, System.Steps (.start config.effectiveCapacity.toNat ⟨[], ids⟩) u ∧ u.Shows s.tracker := by
  have hfirst : first.tracker = .start config ⟨[], ids⟩ := by
    simp only [start?, Tracker.start?] at h
    split at h <;> cases h
    rfl
  have begun := System.shows_start config (⟨[], ids⟩ : MemoryLog)
  rw [← hfirst] at begun
  exact begun.turns (turns_tracker turns)

/-- A trigger that is handled at once, past the inbox, is handled by one call of the handler. -/
theorem handles_handle (s : Scenario) (t : Trigger) :
    Handles (s.snapshots, s.log) [⟨t, (s.handle t).1⟩]
      ((s.handle t).2.snapshots, (s.handle t).2.log) :=
  .cons s.world.environment t (.nil _)

lemma turns_repeat {f : Scenario → Scenario} (hf : ∀ s : Scenario, s.Turns (f s)) (s : Scenario)
    (n : ℕ) : s.Turns (Nat.repeat f n s) := by
  induction n with
  | zero => exact .refl
  | succ n ih => exact ih.trans (hf _)

end Scenario

/-! ### Rehearsals -/

namespace Rehearsal

variable {r r' : Rehearsal}

/-- What can be done with a rehearsal. -/
inductive Turn : Rehearsal → Rehearsal → Prop where
  /-- The world becomes another one, or something is told or reported. -/
  | aside (r : Rehearsal) (s : Scenario) (h : s.tracker = r.scenario.tracker) :
      Turn r { r with scenario := s }
  /-- Something is brought in, and the worker goes on. -/
  | take (r : Rehearsal) (f : Tracker MemoryLog → List Event × Tracker MemoryLog) (request : Request)
      (hf : (f r.scenario.tracker).2 = r.scenario.tracker.request request) : Turn r (r.take f)
  | enqueueAll (r : Rehearsal) (ts : List Trigger) : Turn r (r.enqueueAll ts)
  | beginStop (r : Rehearsal) : Turn r r.beginStop.2
  | stop (r : Rehearsal) : Turn r r.stop
  | stopUnheard (r : Rehearsal) : Turn r r.stopUnheard
  | park (r : Rehearsal) (id : EntityId) : Turn r (r.park id)
  | unpark (r : Rehearsal) : Turn r r.unpark

/-- At its pace the worker takes the queue, at once or one trigger after the other. -/
lemma turns_settle (r : Rehearsal) : r.scenario.Turns r.settle.scenario := by
  unfold settle
  split
  · exact .refl
  · cases r.pace with
    | window => exact .single (.pump r.scenario _)
    | each =>
      refine Scenario.turns_repeat (fun s => ?_) r.scenario _
      have pumped : s.Turns (s.pump 1).2 := .single (.pump s 1)
      exact (pumped.tail (.drain _)).tail (.aside _ _ rfl)

lemma turns_take (r : Rehearsal) {f : Tracker MemoryLog → List Event × Tracker MemoryLog}
    (request : Request) (hf : (f r.scenario.tracker).2 = r.scenario.tracker.request request) :
    r.scenario.Turns (r.take f).scenario := by
  let told := { r.scenario with tracker := (f r.scenario.tracker).2 }.tell (f r.scenario.tracker).1
  have asked : r.scenario.Turns _ := .single (.request r.scenario request)
  exact (asked.tail (.aside _ told hf)).trans (turns_settle { r with scenario := told })

lemma turns_enqueueAll (r : Rehearsal) (ts : List Trigger) :
    r.scenario.Turns (r.enqueueAll ts).scenario := by
  induction ts generalizing r with
  | nil => exact .refl
  | cons t ts ih => exact (r.turns_take (.trigger t) rfl).trans (ih _)

/-- The stop is begun, and the worker ends if it has not. -/
lemma turns_stop (r : Rehearsal) : r.scenario.Turns r.stop.scenario := by
  let told := { r.scenario with tracker := r.scenario.tracker.beginStop.2 }.tell
    r.scenario.tracker.beginStop.1
  have begun : r.scenario.Turns _ := .single (.beginStop r.scenario)
  have heard : r.scenario.Turns told := begun.tail (.aside _ told rfl)
  have he : r.stop = if told.tracker.inbox.lifecycle = .stopped then { r with scenario := told }
      else { r with scenario := told.finish.2 } := rfl
  rw [he]
  split
  · exact heard
  · next hl => exact heard.tail (.finish told (r.scenario.tracker.lifecycle_beginStop hl))

/-- A parked worker drains and goes on at its pace, and ends if it is to stop. -/
lemma turns_unpark (r : Rehearsal) : r.scenario.Turns r.unpark.scenario := by
  by_cases hp : r.parked = true
  · let unheard := { r.scenario.drain.2 with events := r.scenario.events }
    let resumed : Rehearsal := { r with scenario := unheard, parked := false }
    have drained : r.scenario.Turns _ := .single (.drain r.scenario)
    have settled := (drained.tail (.aside _ unheard rfl)).trans resumed.turns_settle
    have he : r.unpark = if resumed.settle.lifecycle = .stopping then resumed.settle.finish
        else resumed.settle := if_pos hp
    rw [he]
    split
    · next hl => exact settled.tail (.finish _ hl)
    · exact settled
  · have he : r.unpark = r := if_neg hp
    rw [he]

/-- What is done with a rehearsal is done with its scenario. -/
lemma Turn.turns (turn : Turn r r') : r.scenario.Turns r'.scenario := by
  cases turn with
  | aside s h => exact .single (.aside _ s h)
  | take f request hf => exact r.turns_take request hf
  | enqueueAll ts => exact r.turns_enqueueAll ts
  | beginStop => exact .single (.beginStop r.scenario)
  | stop => exact r.turns_stop
  | stopUnheard => exact r.turns_stop.tail (.aside _ _ rfl)
  | park id =>
    have recorded : r.scenario.Turns _ := .single (.request r.scenario (.record .task id .created))
    exact recorded.tail (.pump _ _)
  | unpark => exact r.turns_unpark

lemma turns_scenario (turns : ReflTransGen Turn r r') : r.scenario.Turns r'.scenario :=
  turns.lift' scenario fun _ _ turn => turn.turns

/-- What is done with a rehearsal is a run of steps. -/
theorem Turn.steps (turn : Turn r r') {u : System MemoryLog} (h : u.Shows r.scenario.tracker) :
    ∃ v, System.Steps u v ∧ v.Shows r'.scenario.tracker :=
  h.turns (Scenario.turns_tracker turn.turns)

/-- **Rehearsals are runs.** Whatever was done with a rehearsal since it was started, it shows a state of a
tracker among its threads that steps lead to. -/
theorem exists_shows {pace : Pace} {config : Config} {ids : IdSource} {first r : Rehearsal}
    (h : start? pace config ids = some first) (turns : ReflTransGen Turn first r) :
    ∃ u, System.Steps (.start (pace.adjust config).effectiveCapacity.toNat ⟨[], ids⟩) u ∧
      u.Shows r.scenario.tracker := by
  obtain ⟨s, hs, rfl⟩ := Option.map_eq_some_iff.mp h
  exact Scenario.exists_shows hs (turns_scenario turns)

example (pace : Pace) (ids : IdSource) : (start? pace .default ids).isSome = true := by
  cases pace <;> rfl

end Rehearsal

end BoardAudit.Simulation
