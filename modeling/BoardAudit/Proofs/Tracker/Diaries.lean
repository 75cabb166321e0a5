import BoardAudit.Proofs.Handling.Orders
import BoardAudit.Proofs.Tracker.Independence
import Mathlib.Data.List.Forall2

/-!
# Diaries

A diary is a course with a page for each drain, which holds the entries that the drain gave to the sink
and the snapshots that it left. Two diaries of the same acts say the same on every page, whatever the
sinks do (`Diary.same`). Where rows are found under their ids, they say the same but for the order of the
entries even if the drains visit their triggers in other orders (`Diary.sameButOrder`).
-/

namespace BoardAudit

variable {σ τ : Type}

/-- What a drain gave to the sink, and the snapshots that it left. -/
structure Page where
  attempts : List Attempt
  snapshots : Snapshots

/-- The same entries, whenever they were made and whatever became of them, and the same snapshots. -/
structure Page.Same (p q : Page) : Prop where
  contents : q.attempts.map Attempt.content = p.attempts.map Attempt.content
  snapshots : q.snapshots = p.snapshots

/-- The same entries in some order, and the same snapshots. -/
structure Page.SameButOrder (p q : Page) : Prop where
  contents : (q.attempts.map Attempt.content).Perm (p.attempts.map Attempt.content)
  snapshots : q.snapshots = p.snapshots

/-- The same act, but a drain may visit its triggers in another order. -/
inductive Act.SameButOrder : Act → Act → Prop where
  | change (k : Kind) (id : EntityId) (fetch : Fetch k.Row) :
      SameButOrder (.change k id fetch) (.change k id fetch)
  | receive (t : Trigger) : SameButOrder (.receive t) (.receive t)
  | drain (order order' : List Trigger) : SameButOrder (.drain order) (.drain order')

namespace Watch

/-- The pages of an act between two watches: there is one for a drain. -/
def pages (w v : Watch σ) : Act → List Page
  | .drain _ => [⟨v.attempts.drop w.attempts.length, v.worker.snapshots⟩]
  | _ => []

/-- A course between two watches, with the pages of its drains. -/
inductive Diary (sink : Sink σ) : Watch σ → List Act → List Page → Watch σ → Prop where
  | nil (w : Watch σ) : Diary sink w [] [] w
  | cons {w u v : Watch σ} {a : Act} {as : List Act} {pages : List Page} (step : Step sink w a u)
      (rest : Diary sink u as pages v) : Diary sink w (a :: as) (w.pages u a ++ pages) v

variable {w u v : Watch σ} {w' u' v' : Watch τ} {sink : Sink σ} {sink' : Sink τ} {a a' : Act}
  {as as' : List Act} {pages pages' : List Page}

/-- The courses are those of which there is a diary. -/
theorem course_iff_exists_diary : Course sink w as v ↔ ∃ pages, Diary sink w as pages v := by
  constructor
  · intro course
    induction course with
    | nil w => exact ⟨[], .nil w⟩
    | cons step rest ih =>
      obtain ⟨pages, diary⟩ := ih
      exact ⟨_, .cons step diary⟩
  · rintro ⟨pages, diary⟩
    induction diary with
    | nil w => exact .nil w
    | cons step rest ih => exact .cons step ih

/-! ### Two diaries -/

/-- Where two watches stay tied as they take matching steps, and such steps have matching pages, whole
diaries have. -/
lemma Diary.forall₂ {Q : Act → Act → Prop} {Tied : Watch σ → Watch τ → Prop} {S : Page → Page → Prop}
    (hstep : ∀ {w w' a a' u u'}, Tied w w' → Q a a' → Step sink w a u → Step sink' w' a' u' →
      Tied u u' ∧ List.Forall₂ S (w.pages u a) (w'.pages u' a'))
    (diary : Diary sink w as pages v) (diary' : Diary sink' w' as' pages' v')
    (has : List.Forall₂ Q as as') (h : Tied w w') : List.Forall₂ S pages pages' := by
  induction diary generalizing w' as' pages' with
  | nil w =>
    cases has
    cases diary'
    exact .nil
  | cons step rest ih =>
    cases has with
    | cons ha has =>
      cases diary' with
      | cons step' rest' =>
        obtain ⟨htied, hpages⟩ := hstep h ha step step'
        exact List.rel_append hpages (ih rest' has htied)

/-- Watches that agree before and after an act have the same page for it. -/
lemma Agree.forall₂_pages (h : w.Agree w') (hu : u.Agree u') (a : Act) :
    List.Forall₂ Page.Same (w.pages u a) (w'.pages u' a) := by
  cases a with
  | drain order =>
    have hbefore : w'.attempts.map Attempt.content = w.attempts.map Attempt.content := h.worker.contents
    have hafter : u'.attempts.map Attempt.content = u.attempts.map Attempt.content := hu.worker.contents
    have hlength : w'.attempts.length = w.attempts.length := by
      simpa using congrArg List.length hbefore
    refine .cons ⟨?_, hu.worker.snapshots⟩ .nil
    rw [List.map_drop, List.map_drop, hafter, hlength]
  | _ => exact .nil

/-- Whatever the sinks do, the pages of the same acts are the same. -/
theorem Diary.same {r : Repositories} {s : Snapshots} {log : σ} {log' : τ}
    (diary : Diary sink (.start r s log) as pages v)
    (diary' : Diary sink' (.start r s log') as pages' v') : List.Forall₂ Page.Same pages pages' := by
  have has : List.Forall₂ Eq as as := List.forall₂_refl as
  refine Diary.forall₂ ?_ diary diary' has (Agree.start r s log log')
  rintro w w' a _ u u' h rfl step step'
  have hu : u.Agree u' := (h.step step).2 u' step'
  exact ⟨hu, h.forall₂_pages hu a⟩

/-! ### Other orders -/

/-- A drain leaves what its errands leave, and writes what they write. -/
lemma drainAs_eq {es : List (Errand σ)} (hp : (es.map Errand.trigger).Perm w.worker.pending.triggers) :
    (w.drainAs es).worker.snapshots =
        (Errand.doAll es (w.worker.snapshots, w.worker.log.1)).1 ∧
      (w.drainAs es).attempts =
        w.attempts ++ Errand.attempts es (w.worker.snapshots, w.worker.log.1) := by
  obtain ⟨drains, hdrain⟩ := Worker.drainAs_eq_dispatchAll (Worker.awaits_recorded hp)
  rw [drainAs, attempts, hdrain]
  exact Worker.dispatchAll_recorded_eq _ es

lemma pages_drainAs {es : List (Errand σ)} (hp : (es.map Errand.trigger).Perm w.worker.pending.triggers)
    (order : List Trigger) : w.pages (w.drainAs es) (.drain order) =
      [⟨Errand.attempts es (w.worker.snapshots, w.worker.log.1),
        (Errand.doAll es (w.worker.snapshots, w.worker.log.1)).1⟩] := by
  obtain ⟨hsnapshots, hattempts⟩ := drainAs_eq hp
  rw [pages, hsnapshots, hattempts, List.drop_left]

/-- Two watches of workers with the same triggers waiting and the same snapshots, reading the same rows
under the ids that they are asked for. -/
structure InStep (w : Watch σ) (w' : Watch τ) : Prop where
  faithful : w.repositories.Faithful
  repositories : w'.repositories = w.repositories
  pending : w'.worker.pending = w.worker.pending
  snapshots : w'.worker.snapshots = w.worker.snapshots

lemma InStep.step (h : w.InStep w') (hf : a.Faithful) (ha : Act.SameButOrder a a')
    (step : Step sink w a u) (step' : Step sink' w' a' u') :
    u.InStep u' ∧ List.Forall₂ Page.SameButOrder (w.pages u a) (w'.pages u' a') := by
  obtain ⟨hr, hrepositories, hpending, hsnapshots⟩ := h
  cases ha with
  | change k id fetch =>
    cases step
    cases step'
    exact ⟨⟨hr.set hf, by simp only [change, hrepositories], hpending, hsnapshots⟩, .nil⟩
  | receive t =>
    cases step
    cases step'
    refine ⟨⟨hr, hrepositories, ?_, hsnapshots⟩, .nil⟩
    simp only [receive, Worker.receive, hpending]
  | drain order order' =>
    cases step with
    | drain _ es ho hp hes =>
      cases step' with
      | drain _ es' ho' hp' hes' =>
        subst ho ho'
        -- What waits has different keys, so the two orders are of errands for different entities.
        have hperm := hp'.trans (hpending ▸ hp.symm)
        have hkeys := w.worker.pending.pairwise_triggers.perm hp.symm Ne.symm
        have hread : ∀ e ∈ es, e.env.repositories = w.repositories := fun e he => (hes e he).repositories
        have hread' : ∀ e ∈ es', e.env.repositories = w.repositories := fun e he =>
          (hes' e he).repositories.trans hrepositories
        have hfst : (w'.worker.snapshots, w'.worker.log.1).1 = (w.worker.snapshots, w.worker.log.1).1 :=
          hsnapshots
        have hdo := Errand.doAll_perm hr hread hread' hkeys hperm hfst
        have hwritten := Errand.contents_perm hr hread hread' hkeys hperm hfst
        rw [pages_drainAs hp, pages_drainAs hp']
        refine ⟨⟨hr, hrepositories, ?_, ?_⟩, .cons ⟨hwritten, hdo⟩ .nil⟩
        · exact (Worker.pending_drainAs ..).trans (Worker.pending_drainAs ..).symm
        · rw [(drainAs_eq hp).1, (drainAs_eq hp').1, hdo]

/-- Where rows are found under their ids, the pages of the same acts are the same but for the order of the
entries, in whatever orders the drains visit their triggers and whatever the sinks do. -/
theorem Diary.sameButOrder {r : Repositories} {s : Snapshots} {log : σ} {log' : τ} (hr : r.Faithful)
    (hf : ∀ a ∈ as, a.Faithful) (has : List.Forall₂ Act.SameButOrder as as')
    (diary : Diary sink (.start r s log) as pages v)
    (diary' : Diary sink' (.start r s log') as' pages' v') :
    List.Forall₂ Page.SameButOrder pages pages' := by
  have hstart : InStep (.start r s log) (.start r s log') := ⟨hr, rfl, rfl, rfl⟩
  refine Diary.forall₂ ?_ diary diary' ((List.forall₂_and_left as as').mpr ⟨hf, has⟩) hstart
  rintro w w' a a' u u' h ⟨hf, ha⟩ step step'
  exact h.step hf ha step step'

end Watch

end BoardAudit
