import BoardAudit.Proofs.Handling.Attempts
import BoardAudit.Proofs.Tracker.Coalescing
import Mathlib.Logic.Function.Basic

/-!
# Watched workers

A watch follows a worker through what happens to it: the reading of a row changes, a trigger comes in,
or the worker drains its batch, in some order and at some times. It keeps what the worker handles and
what its sink is given, and the worker is none the wiser (`Worker.drainAs_recorded`). A course is what
happened between two watches.
-/

namespace BoardAudit

/-- Something that happens to a watched worker. -/
inductive Act where
  | change (k : Kind) (id : EntityId) (fetch : Fetch k.Row)
  | receive (t : Trigger)
  | drain (order : List Trigger)

namespace Repositories

/-- Changes the reading of one row. -/
def set (r : Repositories) (k : Kind) (id : EntityId) (fetch : Fetch k.Row) : Repositories :=
  Function.update r k (Function.update (r k) id fetch)

variable {r : Repositories} {k l : Kind} {id i : EntityId} {fetch : Fetch k.Row}

@[simp] lemma set_self : r.set k id fetch k id = fetch := by simp [set]

lemma set_of_ne (h : (⟨k, id⟩ : Key) ≠ ⟨l, i⟩) : r.set k id fetch l i = r l i := by
  by_cases hk : k = l
  · subst hk
    have hi : i ≠ id := by
      rintro rfl
      exact h rfl
    rw [set, Function.update_self, Function.update_of_ne hi]
  · rw [set, Function.update_of_ne (Ne.symm hk)]

lemma Faithful.set (hr : r.Faithful) (hf : ∀ row, fetch = .found row → Row.id k row = id) :
    (r.set k id fetch).Faithful := by
  intro l i row h
  by_cases he : (⟨k, id⟩ : Key) = ⟨l, i⟩
  · cases he
    rw [set_self] at h
    exact hf row h
  · rw [set_of_ne he] at h
    exact hr l i row h

end Repositories

/-- Whether a change is to a row of the entity that is asked for, if it is to a row at all. -/
def Act.Faithful : Act → Prop
  | .change k id fetch => ∀ row, fetch = .found row → Row.id k row = id
  | _ => True

variable {σ : Type}

/-- Whether an errand is done with some repositories and some sink, at whatever time. -/
structure Errand.Uses (e : Errand σ) (r : Repositories) (sink : Sink σ) : Prop where
  repositories : e.env.repositories = r
  sink : e.env.sink = sink

lemma Errand.uses_of_mem {env : Environment σ} {ts : List Trigger} {e : Errand σ}
    (he : e ∈ ts.map (.mk env)) : e.Uses env.repositories env.sink := by
  obtain ⟨t, -, rfl⟩ := List.mem_map.mp he
  exact ⟨rfl, rfl⟩

@[simp] lemma Errand.trigger_recorded (es : List (Errand σ)) :
    (es.map .recorded).map Errand.trigger = es.map Errand.trigger := List.map_map

/-! ### Recorded drains -/

namespace Worker

/-- The worker without the record of its attempts. -/
def unrecorded (w : Worker (σ × List Attempt)) : Worker σ :=
  ⟨w.pending, w.snapshots, w.log.1, w.tallies⟩

/-- A recorded errand is done as the errand is, and its attempt is recorded. -/
lemma dispatch_recorded (w : Worker (σ × List Attempt)) (e : Errand σ) :
    (w.dispatch e.recorded).1 = (w.unrecorded.dispatch e).1 ∧
      (w.dispatch e.recorded).2.unrecorded = (w.unrecorded.dispatch e).2 ∧
      (w.dispatch e.recorded).2.log.2 =
        w.log.2 ++ (e.attempt? (w.snapshots, w.log.1)).toList := by
  let o := Snapshots.observe e.env.repositories w.snapshots e.trigger
  have h : e.env.recorded.settle o.1 w.log = _ := Environment.settle_recorded o.1 w.log.1 w.log.2
  have hd : w.dispatch e.recorded = (⟨e.trigger, (e.env.recorded.settle o.1 w.log).1⟩,
      { w with
        snapshots := o.2
        log := (e.env.recorded.settle o.1 w.log).2
        tallies := w.tallies.count (e.env.recorded.settle o.1 w.log).1 }) := rfl
  rw [hd, h]
  exact ⟨rfl, rfl, rfl⟩

lemma dispatchAll_recorded (w : Worker (σ × List Attempt)) (es : List (Errand σ)) :
    (w.dispatchAll (es.map .recorded)).1 = (w.unrecorded.dispatchAll es).1 ∧
      (w.dispatchAll (es.map .recorded)).2.unrecorded = (w.unrecorded.dispatchAll es).2 := by
  induction es generalizing w with
  | nil => exact ⟨rfl, rfl⟩
  | cons e es ih =>
    obtain ⟨hd, hw, -⟩ := w.dispatch_recorded e
    obtain ⟨ihd, ihw⟩ := ih (w.dispatch e.recorded).2
    rw [hw] at ihd ihw
    refine ⟨?_, ihw⟩
    show (w.dispatch e.recorded).1 :: ((w.dispatch e.recorded).2.dispatchAll (es.map .recorded)).1 = _
    rw [hd, ihd]
    rfl

/-- What errands leave in a worker whose sink is recorded. -/
lemma dispatchAll_recorded_eq (w : Worker (σ × List Attempt)) (es : List (Errand σ)) :
    (w.dispatchAll (es.map .recorded)).2.snapshots =
        (Errand.doAll es (w.snapshots, w.log.1)).1 ∧
      (w.dispatchAll (es.map .recorded)).2.log.2 =
        w.log.2 ++ Errand.attempts es (w.snapshots, w.log.1) := by
  have h := w.dispatchAll_eq_doAll (es.map .recorded)
  have hrecorded := Errand.doAll_recorded es (w.snapshots, w.log.1) w.log.2
  rw [hrecorded, Prod.mk.injEq] at h
  obtain ⟨hsnapshots, hlog⟩ := h
  exact ⟨hsnapshots, congrArg Prod.snd hlog⟩

/-- A worker whose sink is recorded drains as it would if it were not. -/
theorem drainAs_recorded (w : Worker (σ × List Attempt)) (es : List (Errand σ)) :
    (w.drainAs (es.map .recorded)).1 = (w.unrecorded.drainAs es).1 ∧
      (w.drainAs (es.map .recorded)).2.unrecorded = (w.unrecorded.drainAs es).2 := by
  have hp : w.unrecorded.pending = w.pending := rfl
  unfold drainAs
  rw [hp]
  split
  · exact ⟨rfl, rfl⟩
  · exact dispatchAll_recorded _ es

/-- What waits is handled as errands one after the other, also when nothing waits. -/
lemma drainAs_eq_dispatchAll {w : Worker σ} {es : List (Errand σ)} (he : w.Awaits es) :
    ∃ drains, w.drainAs es =
      dispatchAll { w with pending := .empty, tallies := { w.tallies with drains } } es := by
  by_cases hp : w.pending.isEmpty = true
  · have hw := Batch.isEmpty_iff.mp hp
    rw [Awaits, hw, Batch.triggers_empty] at he
    obtain rfl := List.map_eq_nil_iff.mp he.eq_nil
    refine ⟨w.tallies.drains, ?_⟩
    rw [drainAs, if_pos hp, ← hw]
    rfl
  · refine ⟨w.tallies.drains + 1, ?_⟩
    rw [drainAs, if_neg hp]

lemma drainAs_eq_doAll {w : Worker σ} {es : List (Errand σ)} (he : w.Awaits es) :
    ((w.drainAs es).2.snapshots, (w.drainAs es).2.log) = Errand.doAll es (w.snapshots, w.log) := by
  obtain ⟨drains, hd⟩ := drainAs_eq_dispatchAll he
  rw [hd]
  exact dispatchAll_eq_doAll { w with pending := .empty, tallies := { w.tallies with drains } } es

lemma awaits_recorded {w : Worker (σ × List Attempt)} {es : List (Errand σ)}
    (hp : (es.map Errand.trigger).Perm w.pending.triggers) : w.Awaits (es.map .recorded) := by
  rwa [Awaits, Errand.trigger_recorded]

end Worker

/-! ### Courses -/

/-- A worker, whose sink is recorded, the repositories that it reads, and what it has handled. -/
structure Watch (σ : Type) where
  repositories : Repositories
  worker : Worker (σ × List Attempt)
  dispatches : List Dispatch

namespace Watch

/-- The watch of a new worker with some snapshots. -/
def start (r : Repositories) (s : Snapshots) (log : σ) : Watch σ :=
  ⟨r, { Worker.start (log, []) with snapshots := s }, []⟩

/-- All that the sink was given. -/
def attempts (w : Watch σ) : List Attempt := w.worker.log.2

def change (w : Watch σ) (k : Kind) (id : EntityId) (fetch : Fetch k.Row) : Watch σ :=
  { w with repositories := w.repositories.set k id fetch }

def receive (w : Watch σ) (t : Trigger) : Watch σ := { w with worker := w.worker.receive t }

def drainAs (w : Watch σ) (es : List (Errand σ)) : Watch σ :=
  { w with
    worker := (w.worker.drainAs (es.map .recorded)).2
    dispatches := w.dispatches ++ (w.worker.drainAs (es.map .recorded)).1 }

/-- What can happen under watch. A drain visits the batch in any order, each trigger at any time, and
every visit finds the same repositories and the same sink. -/
inductive Step (sink : Sink σ) : Watch σ → Act → Watch σ → Prop where
  | change (w : Watch σ) (k : Kind) (id : EntityId) (fetch : Fetch k.Row) :
      Step sink w (.change k id fetch) (w.change k id fetch)
  | receive (w : Watch σ) (t : Trigger) : Step sink w (.receive t) (w.receive t)
  | drain (w : Watch σ) (order : List Trigger) (es : List (Errand σ))
      (ho : es.map Errand.trigger = order) (hp : order.Perm w.worker.pending.triggers)
      (hes : ∀ e ∈ es, e.Uses w.repositories sink) : Step sink w (.drain order) (w.drainAs es)

lemma Step.drain_map (env : Environment σ) {w : Watch σ} {order : List Trigger}
    (hr : env.repositories = w.repositories) (hp : order.Perm w.worker.pending.triggers) :
    Step env.sink w (.drain order) (w.drainAs (order.map (.mk env))) := by
  have ho : (order.map (.mk env)).map Errand.trigger = order := by
    rw [List.map_map]
    exact List.map_id order
  refine .drain w order _ ho hp ?_
  rw [← hr]
  exact fun e he => Errand.uses_of_mem he

/-- The batch can be drained in any order. -/
lemma Step.exists_drain (sink : Sink σ) (w : Watch σ) {order : List Trigger}
    (hp : order.Perm w.worker.pending.triggers) : ∃ v, Step sink w (.drain order) v :=
  ⟨_, .drain_map ⟨w.repositories, sink, .epoch⟩ rfl hp⟩

/-- What happened, one act after the other, between two watches. -/
inductive Course (sink : Sink σ) : Watch σ → List Act → Watch σ → Prop where
  | nil (w : Watch σ) : Course sink w [] w
  | cons {w u v : Watch σ} {a : Act} {as : List Act} (step : Step sink w a u)
      (rest : Course sink u as v) : Course sink w (a :: as) v

/-- Where a second watch can answer every act with one of its own, or pass it over, and stays tied to the
first however it answers, it can answer every course, and stays tied. -/
lemma Course.follow {τ : Type} {sink : Sink σ} {sink' : Sink τ} {f : Act → Option Act}
    {Fit : Act → Prop} {Tied : Watch σ → Watch τ → Prop}
    (hstep : ∀ w w' a u, Tied w w' → Fit a → Step sink w a u →
      match f a with
      | some a' => (∃ u', Step sink' w' a' u') ∧ ∀ u', Step sink' w' a' u' → Tied u u'
      | none => Tied u w')
    {as : List Act} {w v : Watch σ} {w' : Watch τ} (course : Course sink w as v)
    (has : ∀ a ∈ as, Fit a) (h : Tied w w') :
    (∃ v', Course sink' w' (as.filterMap f) v') ∧
      ∀ v', Course sink' w' (as.filterMap f) v' → Tied v v' := by
  induction course generalizing w' with
  | nil w =>
    refine ⟨⟨w', .nil w'⟩, ?_⟩
    rintro v' ⟨⟩
    exact h
  | @cons w u v a as step rest ih =>
    obtain ⟨hfit, has⟩ := List.forall_mem_cons.mp has
    have hstep := hstep w w' a u h hfit step
    cases ha : f a with
    | none =>
      rw [ha] at hstep
      rw [List.filterMap_cons_none ha]
      exact ih has hstep
    | some a' =>
      -- The second watch may take any step of the act, so the course goes on from wherever that leads.
      rw [ha] at hstep
      obtain ⟨⟨u', step'⟩, hstep⟩ := hstep
      rw [List.filterMap_cons_some ha]
      obtain ⟨v', rest'⟩ := (ih has (hstep u' step')).1
      refine ⟨⟨v', .cons step' rest'⟩, ?_⟩
      intro v' course'
      cases course' with
      | cons step' rest' => exact (ih has (hstep _ step')).2 v' rest'

end Watch

end BoardAudit
