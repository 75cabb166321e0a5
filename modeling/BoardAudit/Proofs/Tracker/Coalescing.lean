import BoardAudit.Proofs.Handling.Calls
import BoardAudit.Proofs.Tracker.Windows
import BoardAudit.Tracker.Basic

/-!
# Coalescing

`Kept` ties a worker to a history: under each key waits the last trigger of the open window, and the
history is settled. Whatever a worker does keeps it, in whatever order a drain visits the batch and
whatever repositories and sink do.

`Worker.Run.coalesces`: every drain hands over, key by key, the last trigger of its window and no other,
by calls of the handler that begin with what the drains before it left; over the whole run what is handed
over comes in the order in which it was received, and after a drain the last trigger of every key was
handed over.
-/

namespace BoardAudit

open Trigger (ofKey)

/-- Where every reading of a row and every insert crashes. -/
def Environment.crashing : Environment Unit :=
  ⟨fun _ _ => .crashed, ⟨fun _ log => (.crashed, log)⟩, .epoch⟩

variable {σ : Type}

namespace Worker

/-! ### Receiving and draining -/

/-- Under a key waits the last of the received triggers, or else what waited before. -/
lemma find?_receiveAll (w : Worker σ) (ts : List Trigger) (key : Key) :
    (w.receiveAll ts).pending.find? key = (ofKey key ts).getLast?.or (w.pending.find? key) := by
  induction ts generalizing w with
  | nil => simp [receiveAll]
  | cons t ts ih =>
    have he : w.receiveAll (t :: ts) = (w.receive t).receiveAll ts := rfl
    rw [he, ih, Trigger.ofKey_cons, List.getLast?_append, Option.or_assoc]
    congr 1
    rw [receive, Batch.find?_insert, Trigger.ofKey_singleton]
    split <;> rfl

@[simp] lemma trigger_dispatchAll (w : Worker σ) (es : List (Errand σ)) :
    (w.dispatchAll es).1.map Dispatch.trigger = es.map Errand.trigger := by
  induction es generalizing w with
  | nil => rfl
  | cons e es ih => simp [dispatchAll, dispatch, ih]

@[simp] lemma pending_dispatchAll (w : Worker σ) (es : List (Errand σ)) :
    (w.dispatchAll es).2.pending = w.pending := by
  induction es generalizing w with
  | nil => rfl
  | cons e es ih => simp [dispatchAll, dispatch, ih]

/-- A drain leaves nothing waiting. -/
lemma pending_drainAs (w : Worker σ) (es : List (Errand σ)) : (w.drainAs es).2.pending = .empty := by
  unfold drainAs
  split
  · next h => exact Batch.isEmpty_iff.mp h
  · simp

/-- A drain handles the triggers of its errands. -/
lemma trigger_drainAs {w : Worker σ} {es : List (Errand σ)} (he : w.Awaits es) :
    (w.drainAs es).1.map Dispatch.trigger = es.map Errand.trigger := by
  unfold drainAs
  split
  · next h =>
    rw [Awaits, Batch.isEmpty_iff.mp h, Batch.triggers_empty] at he
    rw [he.eq_nil]
    rfl
  · simp

/-- Of each key a drain handles what waits under it. -/
lemma ofKey_drainAs {w : Worker σ} {es : List (Errand σ)} (he : w.Awaits es) (key : Key) :
    ofKey key ((w.drainAs es).1.map Dispatch.trigger) = (w.pending.find? key).toList := by
  have hp : (ofKey key (es.map Errand.trigger)).Perm (w.pending.find? key).toList := by
    rw [← Batch.ofKey_triggers]
    exact Trigger.ofKey_perm he
  rw [trigger_drainAs he]
  cases hk : w.pending.find? key with
  | none =>
    rw [hk] at hp
    exact hp.eq_nil
  | some t =>
    rw [hk] at hp
    exact List.perm_singleton.mp hp

end Worker

/-! ### What ties a worker to its history -/

/-- Under each key waits the last trigger of the open window, and all windows before are settled. -/
structure Kept (h : History) (w : Worker σ) : Prop where
  waiting : ∀ key, w.pending.find? key = (ofKey key h.waiting).getLast?
  settled : h.Settled

namespace Kept

variable {h : History} {w : Worker σ}

lemma start (log : σ) : Kept [] (Worker.start log) where
  waiting key := by simp [Worker.start]
  settled := History.settled_nil

lemma receive (hk : Kept h w) (t : Trigger) : Kept (h ++ [.received t]) (w.receive t) where
  waiting key := by
    rw [Worker.receive, Batch.find?_insert, hk.waiting, History.waiting_concat, History.wait,
      Trigger.ofKey_append, Trigger.ofKey_singleton, List.getLast?_append]
    split <;> rfl
  settled := hk.settled.concat (by simp)

lemma receiveAll (hk : Kept h w) (ts : List Trigger) :
    Kept (h ++ ts.map .received) (w.receiveAll ts) := by
  induction ts generalizing h w with
  | nil => simpa [Worker.receiveAll] using hk
  | cons t ts ih => simpa [Worker.receiveAll] using ih (hk.receive t)

lemma drainAs (hk : Kept h w) {es : List (Errand σ)} (he : w.Awaits es) :
    Kept (h ++ [.drained (w.drainAs es).1]) (w.drainAs es).2 where
  waiting key := by simp [Worker.pending_drainAs]
  settled := hk.settled.concat fun ds hd key => by
    cases hd
    rw [Worker.ofKey_drainAs he, hk.waiting]

/-- Where nothing waits, the open window is empty. -/
lemma waiting_eq_nil (hk : Kept h w) (hw : w.pending = .empty) : h.waiting = [] := by
  refine List.eq_nil_iff_forall_not_mem.mpr fun t ht => ?_
  have hn := hk.waiting t.key
  rw [hw, Batch.find?_empty, eq_comm, List.getLast?_eq_none_iff] at hn
  exact List.ne_nil_of_mem (Trigger.mem_ofKey.mpr ⟨ht, rfl⟩) hn

/-- What does not concern the worker leaves the two tied. -/
lemma append (hk : Kept h w) {g : History} (hg : ∀ x ∈ g, x.isWorkers = false) :
    Kept (h ++ g) w := by
  induction g generalizing h with
  | nil => simpa using hk
  | cons x g ih =>
    have hx : x.isWorkers = false := hg x List.mem_cons_self
    have hd : ∀ ds, x ≠ .drained ds := by
      rintro ds rfl
      cases hx
    have hw : History.wait h.waiting x = h.waiting := by
      cases x <;> first | rfl | cases hx
    have hk' : Kept (h ++ [x]) w :=
      ⟨fun key => by rw [History.waiting_concat, hw, hk.waiting],
        hk.settled.concat fun ds he => absurd he (hd ds)⟩
    simpa using ih hk' fun y hy => hg y (List.mem_cons_of_mem _ hy)

end Kept

/-! ### What is dispatched -/

namespace Handles

variable {p : Snapshots × σ} {h : History} {w : Worker σ}

lemma receive (hh : Handles p h.dispatches (w.snapshots, w.log)) (t : Trigger) :
    Handles p (History.dispatches (h ++ [.received t]))
      ((w.receive t).snapshots, (w.receive t).log) := by
  simpa [Worker.receive] using hh

lemma receiveAll (hh : Handles p h.dispatches (w.snapshots, w.log)) (ts : List Trigger) :
    Handles p (History.dispatches (h ++ ts.map .received))
      ((w.receiveAll ts).snapshots, (w.receiveAll ts).log) := by
  induction ts generalizing h w with
  | nil => simpa [Worker.receiveAll] using hh
  | cons t ts ih => simpa [Worker.receiveAll] using ih (hh.receive t)

/-- The calls of a drain begin with what the calls before it left. -/
lemma drainAs (hh : Handles p h.dispatches (w.snapshots, w.log)) (es : List (Errand σ)) :
    Handles p (History.dispatches (h ++ [.drained (w.drainAs es).1]))
      ((w.drainAs es).2.snapshots, (w.drainAs es).2.log) := by
  simpa using hh.append (w.handles_drainAs es)

/-- What does not concern the worker dispatches nothing. -/
lemma aside {q : Snapshots × σ} (hh : Handles p h.dispatches q) {g : History}
    (hg : ∀ x ∈ g, x.isWorkers = false) : Handles p (History.dispatches (h ++ g)) q := by
  rw [History.dispatches_append, (History.nil_of_not_isWorkers hg).2, List.append_nil]
  exact hh

end Handles

/-! ### Runs -/

namespace Worker

/-- The runs of a worker, each with what happened in it: the worker receives a trigger, drains, or
finishes, which is to receive all that is queued and to drain. -/
inductive Run (log : σ) : History → Worker σ → Prop where
  | start : Run log [] (.start log)
  | receive {h : History} {w : Worker σ} (run : Run log h w) (t : Trigger) :
      Run log (h ++ [.received t]) (w.receive t)
  | drain {h : History} {w : Worker σ} (run : Run log h w) (es : List (Errand σ))
      (he : w.Awaits es) : Run log (h ++ [.drained (w.drainAs es).1]) (w.drainAs es).2
  | finish {h : History} {w : Worker σ} (run : Run log h w) (queue : List Trigger)
      (es : List (Errand σ)) (he : (w.receiveAll queue).Awaits es) :
      Run log (h ++ queue.map .received ++ [.drained ((w.receiveAll queue).drainAs es).1])
        ((w.receiveAll queue).drainAs es).2

variable {log : σ} {h : History} {w : Worker σ}

lemma Run.kept (run : Run log h w) : Kept h w := by
  induction run with
  | start => exact .start log
  | receive _ t ih => exact ih.receive t
  | drain _ es he ih => exact ih.drainAs he
  | finish _ queue es he ih => exact (ih.receiveAll queue).drainAs he

/-- In a run all that is dispatched are calls of the handler, which lead from no snapshots to those of the
worker. -/
lemma Run.handles (run : Run log h w) : Handles (.empty, log) h.dispatches (w.snapshots, w.log) := by
  induction run with
  | start => exact .nil _
  | receive _ t ih => exact ih.receive t
  | drain _ es _ ih => exact ih.drainAs es
  | finish _ queue es _ ih => exact (ih.receiveAll queue).drainAs es

/-- The end of a tracker finishes a run of its worker. -/
theorem Run.tracker_finish {t : Tracker σ} (run : Run log h t.worker) (env : Environment σ) :
    Run log (h ++ t.inbox.queue.map .received ++ [.drained (t.finish env).1.dispatches])
      (t.finish env).2.worker := by
  have := run.finish t.inbox.queue _ (awaits_triggers _ env)
  simpa [Tracker.finish, Tracker.pump, Tracker.drain, Worker.drain] using this

/-- **Coalescing.** In every run, key by key: each drain hands over the last trigger of its window, once,
and nothing else; it does so by calls of the handler, with what these come to, and the first of them begins
with what all calls before have left; what is handed over is a part of what was received, in its order; and
after a drain nothing waits and the last trigger handed over is the last one received. -/
theorem Run.coalesces (run : Run log h w) (key : Key) :
    (∀ before ds after, h = before ++ .drained ds :: after →
      ofKey key (ds.map Dispatch.trigger) = (ofKey key (History.waiting before)).getLast?.toList ∧
      ∃ p q, Handles (.empty, log) (History.dispatches before) p ∧ Handles p ds q ∧
        Handles q (History.dispatches after) (w.snapshots, w.log)) ∧
    (ofKey key h.handled).Sublist (ofKey key h.received) ∧
    (∀ before ds, h = before ++ [.drained ds] →
      w.pending = .empty ∧ (ofKey key h.handled).getLast? = (ofKey key h.received).getLast?) := by
  have hk := run.kept
  obtain ⟨hsub, hlast⟩ := hk.settled.handled_waiting key
  refine ⟨fun before ds after he => ⟨hk.settled before ds after he key, ?_⟩,
    (List.sublist_append_left _ _).trans hsub, ?_⟩
  · have hdispatches : h.dispatches = History.dispatches before ++ (ds ++ History.dispatches after) := by
      rw [he, History.dispatches_append]
      rfl
    obtain ⟨p, hbefore, hrest⟩ := (hdispatches ▸ run.handles).exists_between
    obtain ⟨q, hds, hafter⟩ := hrest.exists_between
    exact ⟨p, q, hbefore, hds, hafter⟩
  · rintro before ds rfl
    have hw : History.waiting (before ++ [.drained ds]) = [] := by simp
    refine ⟨Batch.ext_find? fun k => ?_, ?_⟩
    · rw [hk.waiting, hw, Batch.find?_empty]
      rfl
    · simpa [hw] using hlast

/-- Two triggers of one task around one of a status with the same id, where everything crashes: the
last word on the task is what is handed over at the end. -/
theorem Run.coalesces_of_three :
    let id : EntityId := ⟨1, by decide⟩
    ∃ (h : History) (w : Worker Unit), Run () h w ∧
      h.received = [⟨.task, id, .created, ∅⟩, ⟨.status, id, .created, ∅⟩, ⟨.task, id, .deleted, ∅⟩] ∧
      (ofKey ⟨.task, id⟩ h.handled).Sublist (ofKey ⟨.task, id⟩ h.received) ∧
      (ofKey ⟨.task, id⟩ h.handled).getLast? = some ⟨.task, id, .deleted, ∅⟩ := by
  intro id
  have fresh : Run () [] (.start ()) := .start
  have begun := (fresh.receive ⟨.task, id, .created, ∅⟩).receive ⟨.status, id, .created, ∅⟩
  have run := begun.finish [⟨.task, id, .deleted, ∅⟩] _ (awaits_triggers _ .crashing)
  obtain ⟨-, hsub, hlast⟩ := run.coalesces ⟨.task, id⟩
  refine ⟨_, _, run, rfl, hsub, ?_⟩
  rw [(hlast _ _ rfl).2]
  rfl

end Worker

end BoardAudit
