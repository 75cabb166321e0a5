import BoardAudit.Proofs.Tracker.Diaries

/-!
# Applicability

Only tasks have changes of status: a trigger that tells of another one is ignored when it is handled. It
is ignored late, however, for it waits as any other trigger does, and takes the place of an earlier one of
its entity. `Act.purge` takes away from a course the triggers that do not apply and, where such a one is
the last of its entity before a drain, also those whose place it took. Every drain then writes what it
wrote and leaves what it left (`Watch.Diary.purged`). Where nothing is displaced, only the triggers that
do not apply are taken away.

The proof goes as for the removal of dead code: whether a trigger counts hangs on what comes after it up to
the next drain (`Act.window`), and the last word on each entity before a drain is what ties the two courses.
-/

namespace BoardAudit

open Trigger (ofKey)

variable {σ τ : Type} {K : Key}

/-- Whether the action of a trigger applies to its kind. -/
def Trigger.applies (t : Trigger) : Bool := t.action ≠ .statusChanged ∨ t.kind = .task

/-- Whether a trigger applies and, if later ones of its entity follow, so does the last of these. -/
def Trigger.stands (t : Trigger) (later : List Trigger) : Bool :=
  t.applies && (ofKey t.key later).getLast?.all applies

lemma Snapshots.observe_of_not_applies {t : Trigger} (h : t.applies = false) (r : Repositories)
    (s : Snapshots) : observe r s t = (.ignored, s) := by
  obtain ⟨kind, id, action, notes⟩ := t
  cases action with
  | statusChanged =>
    cases kind with
    | project => rfl
    | status => rfl
    | task => cases h
  | _ => cases h

/-! ### What is taken away -/

namespace Act

/-- The triggers that are received before the next drain. -/
def window : List Act → List Trigger
  | [] => []
  | .change _ _ _ :: as => window as
  | .receive t :: as => t :: window as
  | .drain _ :: _ => []

/-- Takes away the triggers that do not stand when they are drained. -/
def purge : List Act → List Act
  | [] => []
  | .change k id fetch :: as => .change k id fetch :: purge as
  | .receive t :: as => if t.stands (window as) then .receive t :: purge as else purge as
  | .drain order :: as => .drain (order.filter Trigger.applies) :: purge as

/-- What is left of an act without triggers that do not apply. -/
def applicable : Act → Option Act
  | .change k id fetch => some (.change k id fetch)
  | .receive t => if t.applies then some (.receive t) else none
  | .drain order => some (.drain (order.filter Trigger.applies))

/-- No trigger that applies has its place taken by one that does not. -/
def Undisplaced (as : List Act) : Prop :=
  ∀ before t after, as = before ++ .receive t :: after → t.applies = true →
    t.stands (window after) = true

/-- Where nothing is displaced, the triggers that do not apply are all that is taken away. -/
lemma purge_eq_filterMap {as : List Act} (h : Undisplaced as) :
    purge as = as.filterMap applicable := by
  induction as with
  | nil => rfl
  | cons a as ih =>
    have hrest : Undisplaced as := fun before t after he => h (a :: before) t after (by rw [he]; rfl)
    cases a with
    | receive t =>
      have hfirst := h [] t as rfl
      by_cases ht : t.applies = true
      · have ha : applicable (.receive t) = some (.receive t) := if_pos ht
        rw [purge, if_pos (hfirst ht), List.filterMap_cons_some ha, ih hrest]
      · have hs : ¬ t.stands (window as) = true := by simp [Trigger.stands, ht]
        have ha : applicable (.receive t) = none := if_neg ht
        rw [purge, if_neg hs, List.filterMap_cons_none ha, ih hrest]
    | _ => rw [purge, ih hrest]; rfl

lemma getLast?_window_receive (t : Trigger) (as : List Act) (K : Key) :
    (ofKey K (window (.receive t :: as))).getLast? =
      (ofKey K (window as)).getLast?.or (ofKey K [t]).getLast? := by
  rw [window, Trigger.ofKey_cons, List.getLast?_append]

/-- The last word on an entity in a window stays where it applies. -/
lemma getLast?_window_purge (as : List Act) (K : Key) :
    (ofKey K (window (purge as))).getLast? =
      (ofKey K (window as)).getLast?.filter Trigger.applies := by
  induction as with
  | nil => rfl
  | cons a as ih =>
    cases a with
    | change k id fetch => exact ih
    | drain order => rfl
    | receive t =>
      rw [getLast?_window_receive]
      by_cases hk : t.key = K
      · subst hk
        -- The trigger decides only if none of its entity follows it.
        cases hlast : (ofKey t.key (window as)).getLast? with
        | none =>
          rw [hlast] at ih
          have hs : t.stands (window as) = t.applies := by simp [Trigger.stands, hlast]
          by_cases ht : t.applies = true
          · rw [purge, hs, if_pos ht, getLast?_window_receive, ih]
            simp [Option.filter_some, ht]
          · rw [purge, hs, if_neg ht, ih]
            simp [Option.filter_some, ht]
        | some u =>
          rw [hlast] at ih
          by_cases hs : t.stands (window as) = true
          · have hu : u.applies = true := by
              have h := (Bool.and_eq_true_iff.mp hs).2
              rwa [hlast] at h
            rw [purge, if_pos hs, getLast?_window_receive, ih]
            simp [Option.filter_some, hu]
          · rw [purge, if_neg hs, ih]
            rfl
      · have hnone : (ofKey K [t]).getLast? = none := by simp [hk]
        by_cases hs : t.stands (window as) = true
        · rw [purge, if_pos hs, getLast?_window_receive, ih, hnone, Option.or_none, Option.or_none]
        · rw [purge, if_neg hs, ih, hnone, Option.or_none]

lemma faithful_of_mem_purge {as : List Act} (h : ∀ a ∈ as, a.Faithful) {a : Act}
    (ha : a ∈ purge as) : a.Faithful := by
  induction as with
  | nil => cases ha
  | cons b as ih =>
    obtain ⟨hb, hrest⟩ := List.forall_mem_cons.mp h
    cases b with
    | change k id fetch =>
      rcases List.mem_cons.mp ha with rfl | ha
      · exact hb
      · exact ih hrest ha
    | receive t =>
      unfold purge at ha
      split at ha
      · rcases List.mem_cons.mp ha with rfl | ha
        · exact trivial
        · exact ih hrest ha
      · exact ih hrest ha
    | drain order =>
      rcases List.mem_cons.mp ha with rfl | ha
      · exact trivial
      · exact ih hrest ha

end Act

/-! ### What stays -/

/-- The counters without those that a trigger without effect can move. -/
def Tallies.trail (t : Tallies) : Tallies :=
  { t with coalesced := 0, drains := 0, handled := 0, ignored := 0 }

lemma Tallies.trail_count (t : Tallies) (o : Outcome) : (t.count o).trail = (t.trail.count o).trail := by
  cases o with
  | failed error => cases error <;> rfl
  | _ => rfl

namespace Worker

/-- All of a worker but what waits and the counters that a trigger without effect can move. -/
def trail (w : Worker σ) : Worker σ := { w with pending := .empty, tallies := w.tallies.trail }

variable {w w' : Worker σ}

@[simp] lemma trail_receive (w : Worker σ) (t : Trigger) : (w.receive t).trail = w.trail := by
  unfold receive
  split <;> rfl

lemma trail_dispatch (w : Worker σ) (e : Errand σ) :
    (w.dispatch e).2.trail = (w.trail.dispatch e).2.trail := by
  have hcount := w.tallies.trail_count (e.env.handle e.trigger w.snapshots w.log).1
  exact congrArg (Worker.mk .empty _ _) hcount

/-- What an errand leaves hangs on the trail alone. -/
lemma trail_dispatch_congr (h : w'.trail = w.trail) (e : Errand σ) :
    (w'.dispatch e).2.trail = (w.dispatch e).2.trail := by
  rw [w'.trail_dispatch, h, ← w.trail_dispatch]

/-- An errand for a trigger that does not apply leaves the trail as it is. -/
lemma trail_dispatch_of_not_applies (w : Worker σ) {e : Errand σ} (h : e.trigger.applies = false) :
    (w.dispatch e).2.trail = w.trail := by
  have hhandle : e.env.handle e.trigger w.snapshots w.log = (.ignored, w.snapshots, w.log) := by
    rw [Environment.handle, Snapshots.observe_of_not_applies h]
    rfl
  rw [dispatch, hhandle]
  rfl

lemma trail_dispatchAll (h : w'.trail = w.trail) (es : List (Errand σ)) :
    (w'.dispatchAll (es.filter fun e => e.trigger.applies)).2.trail = (w.dispatchAll es).2.trail := by
  induction es generalizing w w' with
  | nil => exact h
  | cons e es ih =>
    by_cases he : e.trigger.applies = true
    · rw [List.filter_cons, if_pos he]
      exact ih (trail_dispatch_congr h e)
    · rw [List.filter_cons, if_neg he]
      refine ih (h.trans ?_)
      exact (w.trail_dispatch_of_not_applies (Bool.eq_false_iff.mpr he)).symm

/-- A drain writes and leaves the same without the triggers that do not apply. -/
lemma trail_drainAs (h : w'.trail = w.trail) {es : List (Errand σ)} (he : w.Awaits es)
    (he' : w'.Awaits (es.filter fun e => e.trigger.applies)) :
    (w'.drainAs (es.filter fun e => e.trigger.applies)).2.trail = (w.drainAs es).2.trail := by
  obtain ⟨drains, hd⟩ := drainAs_eq_dispatchAll he
  obtain ⟨drains', hd'⟩ := drainAs_eq_dispatchAll he'
  rw [hd, hd']
  refine trail_dispatchAll ?_ es
  exact h

end Worker

lemma Batch.filter_triggers_perm {b b' : Batch} {p : Trigger → Bool}
    (h : ∀ key, b'.find? key = (b.find? key).filter p) : (b.triggers.filter p).Perm b'.triggers := by
  refine (List.perm_ext_iff_of_nodup (b.nodup_triggers.filter p) b'.nodup_triggers).mpr fun t => ?_
  rw [List.mem_filter, mem_triggers, mem_triggers, h, Option.filter_eq_some_iff]

/-! ### Courses without triggers that have no effect -/

namespace Watch

/-- What the next drain will hand over for an entity. -/
def lastWord (w : Watch σ) (as : List Act) (K : Key) : Option Trigger :=
  (ofKey K (Act.window as)).getLast?.or (w.worker.pending.find? K)

lemma lastWord_receive (w : Watch σ) (t : Trigger) (as : List Act) (K : Key) :
    (w.receive t).lastWord as K = w.lastWord (.receive t :: as) K := by
  have hlast : (w.worker.receive t).pending.find? K =
      (ofKey K [t]).getLast?.or (w.worker.pending.find? K) := w.worker.find?_receiveAll [t] K
  rw [lastWord, lastWord, Act.getLast?_window_receive, Option.or_assoc, ← hlast]
  rfl

/-- The second watch is to follow the acts of the first without the triggers that have no effect: what is
yet to be handed over by it is what applies of what is yet to be handed over by the first. -/
structure Purged (as : List Act) (w w' : Watch σ) : Prop where
  repositories : w'.repositories = w.repositories
  lastWord : ∀ K, w'.lastWord (Act.purge as) K = (w.lastWord as K).filter Trigger.applies
  trail : w'.worker.trail = w.worker.trail

namespace Purged

variable {w w' u : Watch σ} {sink : Sink σ} {as : List Act}

/-- Where nothing waits, the windows to come are all that counts. -/
lemma of_pending (hrepositories : w'.repositories = w.repositories)
    (hw : w.worker.pending = .empty) (hw' : w'.worker.pending = .empty)
    (htrail : w'.worker.trail = w.worker.trail) : Purged as w w' := by
  refine ⟨hrepositories, fun K => ?_, htrail⟩
  rw [Watch.lastWord, Watch.lastWord, hw, hw', Batch.find?_empty, Option.or_none, Option.or_none,
    Act.getLast?_window_purge]

/-- A trigger that stands is received by both. -/
lemma receive {t : Trigger} (h : Purged (.receive t :: as) w w')
    (hs : t.stands (Act.window as) = true) : Purged as (w.receive t) (w'.receive t) := by
  obtain ⟨hrepositories, hlast, htrail⟩ := h
  rw [Act.purge, if_pos hs] at hlast
  refine ⟨hrepositories, fun K => ?_, ?_⟩
  · rw [lastWord_receive, lastWord_receive, hlast]
  · simpa [Watch.receive] using htrail

/-- A trigger that does not stand is passed over. -/
lemma receive_left {t : Trigger} (h : Purged (.receive t :: as) w w')
    (hs : ¬ t.stands (Act.window as) = true) : Purged as (w.receive t) w' := by
  obtain ⟨hrepositories, hlast, htrail⟩ := h
  rw [Act.purge, if_neg hs] at hlast
  refine ⟨hrepositories, fun K => ?_, ?_⟩
  · rw [lastWord_receive, hlast]
  · simpa [Watch.receive] using htrail

/-- A drain of the first is one of the second, without the triggers that do not apply. -/
lemma drain {order : List Trigger} {es : List (Errand σ)} (h : Purged (.drain order :: as) w w')
    (ho : es.map Errand.trigger = order) (hp : order.Perm w.worker.pending.triggers)
    (hes : ∀ e ∈ es, e.Uses w.repositories sink) :
    ∃ u', Step sink w' (.drain (order.filter Trigger.applies)) u' ∧ Purged as (w.drainAs es) u' := by
  obtain ⟨hrepositories, hlast, htrail⟩ := h
  let es' := es.filter fun e => e.trigger.applies
  have ho' : es'.map Errand.trigger = order.filter Trigger.applies := by
    rw [← ho, List.filter_map]
    rfl
  have hp' : (order.filter Trigger.applies).Perm w'.worker.pending.triggers :=
    (hp.filter Trigger.applies).trans (Batch.filter_triggers_perm hlast)
  have hes' : ∀ e ∈ es', e.Uses w'.repositories sink := by
    intro e he
    rw [hrepositories]
    exact hes e (List.mem_of_mem_filter he)
  refine ⟨w'.drainAs es', .drain w' _ es' ho' hp' hes', ?_⟩
  refine of_pending hrepositories (Worker.pending_drainAs ..) (Worker.pending_drainAs ..) ?_
  have hrecorded : es'.map Errand.recorded =
      (es.map Errand.recorded).filter fun e => e.trigger.applies := by
    rw [List.filter_map]
    rfl
  have he := Worker.awaits_recorded (ho ▸ hp)
  have he' := Worker.awaits_recorded (ho' ▸ hp')
  rw [hrecorded] at he'
  show (w'.worker.drainAs (es'.map .recorded)).2.trail = (w.worker.drainAs (es.map .recorded)).2.trail
  rw [hrecorded]
  exact Worker.trail_drainAs htrail he he'

end Purged

variable {w w' v u : Watch σ} {sink : Sink σ} {sink' : Sink τ} {as : List Act} {ps : List Page}

/-- A page is part of the trail. -/
lemma pages_of_trail {w w' u u' : Watch σ} (hw : w'.worker.trail = w.worker.trail)
    (hu : u'.worker.trail = u.worker.trail) (order order' : List Trigger) :
    w'.pages u' (.drain order') = w.pages u (.drain order) := by
  have hbefore : w'.attempts = w.attempts := congrArg (·.log.2) hw
  have hafter : u'.attempts = u.attempts := congrArg (·.log.2) hu
  have hsnapshots : u'.worker.trail.snapshots = u.worker.trail.snapshots := by rw [hu]
  show [Page.mk (u'.attempts.drop w'.attempts.length) u'.worker.trail.snapshots] = _
  rw [hbefore, hafter, hsnapshots]
  rfl

/-- A watch can follow another one without the triggers that have no effect, with the same diary. -/
lemma Purged.diary (h : Purged as w w') (diary : Diary sink w as ps v) :
    ∃ v', Diary sink w' (Act.purge as) ps v' ∧ v'.worker.trail = v.worker.trail := by
  induction diary generalizing w' with
  | nil w => exact ⟨w', .nil w', h.trail⟩
  | @cons w u v a as ps step rest ih =>
    cases step with
    | change k id fetch =>
      obtain ⟨hrepositories, hlast, htrail⟩ := h
      have hchange : Purged as (w.change k id fetch) (w'.change k id fetch) :=
        ⟨by simp only [change, hrepositories], hlast, htrail⟩
      obtain ⟨v', diary', hv⟩ := ih hchange
      exact ⟨v', .cons (.change w' k id fetch) diary', hv⟩
    | receive t =>
      by_cases hs : t.stands (Act.window as) = true
      · obtain ⟨v', diary', hv⟩ := ih (h.receive hs)
        rw [Act.purge, if_pos hs]
        exact ⟨v', .cons (.receive w' t) diary', hv⟩
      · obtain ⟨v', diary', hv⟩ := ih (h.receive_left hs)
        rw [Act.purge, if_neg hs]
        exact ⟨v', diary', hv⟩
    | drain order es ho hp hes =>
      obtain ⟨u', step', hu⟩ := h.drain ho hp hes
      obtain ⟨v', diary', hv⟩ := ih hu
      refine ⟨v', ?_, hv⟩
      rw [Act.purge, ← pages_of_trail h.trail hu.trail order (order.filter Trigger.applies)]
      exact .cons step' diary'

namespace Diary

/-- **Triggers that do not apply.** Take any course, and take away the triggers that do not apply and,
where such a one is the last of its entity in a window, the others of its entity there, whose place it
took. If it takes the place of none that applies, only the triggers that do not apply are taken away.

What is left can happen with the very same diary: each drain gives the same entries to the sink, with the
same verdicts, and leaves the same snapshots; the sink comes to the same state, and the counters are the
same but for the triggers that were replaced, handled or ignored and the drains. With another sink or at
other times it has the same entries to write and the same snapshots on every page, and so it has in other
orders, but for the order of the entries, if rows are found under their ids. -/
theorem purged {r : Repositories} {s : Snapshots} {log : σ} {log' : τ} {sink : Sink σ} {sink' : Sink τ}
    {as : List Act} {ps : List Page} {w : Watch σ} (diary : Diary sink (.start r s log) as ps w) :
    (Act.Undisplaced as → Act.purge as = as.filterMap Act.applicable) ∧
    (∃ w', Diary sink (.start r s log) (Act.purge as) ps w' ∧ w'.worker.trail = w.worker.trail) ∧
    (∀ ps' w', Diary sink' (.start r s log') (Act.purge as) ps' w' → List.Forall₂ Page.Same ps ps') ∧
    (r.Faithful → (∀ a ∈ as, a.Faithful) → ∀ as' ps' w',
      List.Forall₂ Act.SameButOrder (Act.purge as) as' →
      Diary sink' (.start r s log') as' ps' w' → List.Forall₂ Page.SameButOrder ps ps') := by
  have hstart : Purged as (.start r s log) (.start r s log) := .of_pending rfl rfl rfl rfl
  obtain ⟨w', diary', htrail⟩ := hstart.diary diary
  refine ⟨Act.purge_eq_filterMap, ⟨w', diary', htrail⟩, ?_, ?_⟩
  · intro ps' w'' diary''
    exact diary'.same diary''
  · intro hr hf as' ps' w'' has diary''
    refine Diary.sameButOrder hr (fun a ha => ?_) has diary' diary''
    exact Act.faithful_of_mem_purge hf ha

/-- The creation of a project is displaced by a change of its status, and a status is told to change its
status: both are gone, and a deletion and a creation are left, in whatever order they are handled. -/
theorem purged_of_four :
    let id (n : Fin 10) : EntityId := ⟨n, by omega⟩
    let created : Trigger := ⟨.project, id 1, .created, ∅⟩
    let ignored : Trigger := ⟨.project, id 1, .statusChanged, ∅⟩
    let alone : Trigger := ⟨.status, id 2, .statusChanged, ∅⟩
    let deleted : Trigger := ⟨.task, id 3, .deleted, ∅⟩
    let appeared : Trigger := ⟨.status, id 4, .created, ∅⟩
    let env : Environment Unit := { Environment.mirror with sink := ⟨fun _ log => (.stored, log)⟩ }
    let as : List Act := [.receive created, .receive deleted, .receive ignored, .receive alone,
      .receive appeared, .drain [ignored, deleted, alone, appeared]]
    let as' : List Act := [.receive deleted, .receive appeared, .drain [appeared, deleted]]
    ∃ ps ps' w w', Diary env.sink (.start env.repositories .empty ()) as ps w ∧
      Diary Environment.mirror.sink (.start env.repositories .empty ()) as' ps' w' ∧
      (ps.map fun p => p.attempts.map (·.log.entry)) = [["task.deleted", "status.created"]] ∧
      (ps'.map fun p => p.attempts.map (·.log.entry)) = [["status.created", "task.deleted"]] ∧
      List.Forall₂ Page.SameButOrder ps ps' := by
  intro id created ignored alone deleted appeared env as as'
  have diary : Diary env.sink (.start env.repositories .empty ()) as _ _ :=
    .cons (.receive ..) (.cons (.receive ..) (.cons (.receive ..) (.cons (.receive ..)
      (.cons (.receive ..) (.cons (.drain_map env rfl (by decide)) (.nil _))))))
  have diary' : Diary Environment.mirror.sink (.start env.repositories .empty ()) as' _ _ :=
    .cons (.receive ..) (.cons (.receive ..) (.cons (.drain_map .mirror rfl (by decide)) (.nil _)))
  obtain ⟨-, -, -, horder⟩ :=
    @purged Unit Unit env.repositories .empty () () env.sink Environment.mirror.sink as _ _ diary
  refine ⟨_, _, _, _, diary, diary', rfl, rfl, ?_⟩
  refine horder Environment.faithful_mirror (by simp [as, Act.Faithful]) as' _ _ ?_ diary'
  exact .cons (.receive _) (.cons (.receive _) (.cons (.drain _ _) .nil))

/-- The triggers that do not apply cannot be taken away alone: a project is created, and before the drain
it is told to change its status. Nothing is written and nothing seen; without the second trigger the
creation is written, and there is a snapshot. -/
theorem exists_creation_lost :
    let id : EntityId := ⟨1, by decide⟩
    let created : Trigger := ⟨.project, id, .created, ∅⟩
    let ignored : Trigger := ⟨.project, id, .statusChanged, ∅⟩
    let env : Environment Unit := { Environment.mirror with sink := ⟨fun _ log => (.stored, log)⟩ }
    let as : List Act := [.receive created, .receive ignored, .drain [ignored]]
    let as' : List Act := [.receive created, .drain [created]]
    List.Forall₂ Act.SameButOrder (as.filterMap Act.applicable) as' ∧
    ∃ ps ps' w w', Diary env.sink (.start env.repositories .empty ()) as ps w ∧
      Diary env.sink (.start env.repositories .empty ()) as' ps' w' ∧
      (ps.map fun p => p.attempts.map (·.log.entry)) = [[]] ∧
      (ps'.map fun p => p.attempts.map (·.log.entry)) = [["project.created"]] ∧
      (ps.map fun p => p.snapshots.find? .project id) = [none] ∧
      (ps'.map fun p => p.snapshots.find? .project id) = [some (Project.new id "")] ∧
      w.worker.tallies.logged = 0 ∧ w'.worker.tallies.logged = 1 ∧
      ¬ List.Forall₂ Page.SameButOrder ps ps' := by
  intro id created ignored env as as'
  have diary : Diary env.sink (.start env.repositories .empty ()) as _ _ :=
    .cons (.receive ..) (.cons (.receive ..) (.cons (.drain_map env rfl (by decide)) (.nil _)))
  have diary' : Diary env.sink (.start env.repositories .empty ()) as' _ _ :=
    .cons (.receive ..) (.cons (.drain_map env rfl (by decide)) (.nil _))
  refine ⟨.cons (.receive _) (.cons (.drain _ _) .nil), _, _, _, _, diary, diary', rfl, rfl, rfl, rfl, rfl,
    rfl, ?_⟩
  rintro (_ | ⟨⟨hcontents, -⟩, -⟩)
  exact absurd hcontents.length_eq (by decide)

end Diary

end Watch

end BoardAudit
