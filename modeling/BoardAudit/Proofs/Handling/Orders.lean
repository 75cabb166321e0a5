import BoardAudit.Proofs.Handling.Attempts
import Mathlib.Data.List.Basic

/-!
# Orders

Errands for different entities do not get in each other's way: what is observed of an entity hangs on its
row and its snapshot, and an errand for another one changes neither. So of errands for triggers with
different keys every one observes what it would observe were it the first (`Errand.contents_attempts`,
`Errand.find?_doAll_of_mem`), and the order in which they are done makes no difference to the snapshots,
nor to the entries but for their order (`Errand.doAll_perm`, `Errand.contents_perm`).
-/

namespace BoardAudit

variable {σ τ : Type} {r : Repositories}

namespace Errand

variable {e : Errand σ} {es : List (Errand σ)} {es' : List (Errand τ)} {p : Snapshots × σ}
  {p' : Snapshots × τ} {t : Trigger}

/-- An errand for another entity changes nothing of what is observed. -/
lemma observe_run_of_ne (hf : e.env.repositories.Faithful) (hk : e.trigger.key ≠ t.key) :
    (Snapshots.observe r (e.run p).1 t).1 = (Snapshots.observe r p.1 t).1 ∧
      (Snapshots.observe r (e.run p).1 t).2.find? t.kind t.id =
        (Snapshots.observe r p.1 t).2.find? t.kind t.id :=
  Snapshots.observe_congr rfl (find?_run_of_ne hf hk)

/-- Of the attempts at errands for different entities each one is what it would be were it the first, in
all that hangs on what is observed alone. -/
theorem map_attempts {α : Type} {f : Attempt → α} {g : Observation → Option α} (hr : r.Faithful)
    (hes : ∀ e ∈ es, e.env.repositories = r)
    (hf : ∀ e ∈ es, ∀ o log, (e.env.attempt? o log).map f = g o)
    (hkeys : (es.map Errand.trigger).Pairwise fun t u => t.key ≠ u.key) :
    (attempts es p).map f =
      (es.map Errand.trigger).filterMap fun t => g (Snapshots.observe r p.1 t).1 := by
  induction es generalizing p with
  | nil => rfl
  | cons e es ih =>
    obtain ⟨he, hes⟩ := List.forall_mem_cons.mp hes
    obtain ⟨hfe, hf⟩ := List.forall_mem_cons.mp hf
    obtain ⟨hne, hkeys⟩ := List.pairwise_cons.mp hkeys
    have hrest : ((es.map Errand.trigger).filterMap fun t =>
          g (Snapshots.observe r (e.run p).1 t).1) =
        (es.map Errand.trigger).filterMap fun t => g (Snapshots.observe r p.1 t).1 := by
      refine List.filterMap_congr fun t ht => ?_
      rw [(observe_run_of_ne (he ▸ hr) (hne t ht)).1]
    have hfirst : (e.attempt? p).map f = g (Snapshots.observe r p.1 e.trigger).1 := by
      rw [attempt?, hfe, he]
    rw [attempts, List.map_append, ih hes hf hkeys, hrest, ← Option.toList_map, hfirst, List.map_cons,
      List.filterMap_cons]
    cases g (Snapshots.observe r p.1 e.trigger).1 <;> rfl

/-- Of errands for different entities each one writes what it would write were it the first. -/
theorem contents_attempts (hr : r.Faithful) (hes : ∀ e ∈ es, e.env.repositories = r)
    (hkeys : (es.map Errand.trigger).Pairwise fun t u => t.key ≠ u.key) :
    (attempts es p).map Attempt.content =
      (es.map Errand.trigger).filterMap fun t => (Snapshots.observe r p.1 t).1.content? :=
  map_attempts hr hes (fun _ _ o log => Environment.content_attempt? o log) hkeys

/-- Of errands for different entities each one leaves the snapshot that it would leave were it alone. -/
theorem find?_doAll_of_mem (hr : r.Faithful) (hes : ∀ e ∈ es, e.env.repositories = r)
    (hkeys : (es.map Errand.trigger).Pairwise fun t u => t.key ≠ u.key)
    (ht : t ∈ es.map Errand.trigger) :
    (doAll es p).1.find? t.kind t.id = (Snapshots.observe r p.1 t).2.find? t.kind t.id := by
  induction es generalizing p with
  | nil => cases ht
  | cons e es ih =>
    obtain ⟨he, hes⟩ := List.forall_mem_cons.mp hes
    obtain ⟨hne, hkeys⟩ := List.pairwise_cons.mp hkeys
    have hdo : doAll (e :: es) p = doAll es (e.run p) := rfl
    rw [hdo]
    rcases List.mem_cons.mp ht with rfl | ht
    · have hothers : ∀ e' ∈ es, ¬ e'.Deletes e.trigger.kind e.trigger.id ∧
          ∀ row, ¬ e'.Sights e.trigger.kind e.trigger.id row := by
        intro e' he'
        have hk := hne e'.trigger (List.mem_map_of_mem he')
        exact ⟨fun hd => hk hd.1.symm, fun row hs => hk hs.1.symm⟩
      rw [find?_doAll_of_not (fun e' he' => hes e' he' ▸ hr) hothers, run_fst, he]
    · rw [ih hes hkeys ht, (observe_run_of_ne (he ▸ hr) (hne t ht)).2]

lemma find?_doAll_of_ne (hr : r.Faithful) (hes : ∀ e ∈ es, e.env.repositories = r) {k : Kind}
    {id : EntityId} (hk : ∀ t ∈ es.map Errand.trigger, t.key ≠ ⟨k, id⟩) :
    (doAll es p).1.find? k id = p.1.find? k id := by
  refine find?_doAll_of_not (fun e he => hes e he ▸ hr) fun e he => ?_
  have hk := hk e.trigger (List.mem_map_of_mem he)
  exact ⟨fun hd => hk hd.1, fun row hs => hk hs.1⟩

/-- The snapshots do not hang on the order of errands for different entities. -/
theorem doAll_perm (hr : r.Faithful) (hes : ∀ e ∈ es, e.env.repositories = r)
    (hes' : ∀ e ∈ es', e.env.repositories = r)
    (hkeys : (es.map Errand.trigger).Pairwise fun t u => t.key ≠ u.key)
    (hp : (es'.map Errand.trigger).Perm (es.map Errand.trigger)) (hs : p'.1 = p.1) :
    (doAll es' p').1 = (doAll es p).1 := by
  have hkeys' := hkeys.perm hp.symm Ne.symm
  refine Tables.ext_find? fun k id => ?_
  by_cases h : ∃ t ∈ es.map Errand.trigger, t.key = ⟨k, id⟩
  · obtain ⟨t, ht, hk⟩ := h
    cases hk
    rw [find?_doAll_of_mem hr hes hkeys ht, find?_doAll_of_mem hr hes' hkeys' (hp.mem_iff.mpr ht), hs]
  · have hk : ∀ t ∈ es.map Errand.trigger, t.key ≠ ⟨k, id⟩ := fun t ht hk => h ⟨t, ht, hk⟩
    rw [find?_doAll_of_ne hr hes hk, find?_doAll_of_ne hr hes' fun t ht => hk t (hp.mem_iff.mp ht), hs]

/-- The entries do not hang on the order of errands for different entities, but for their own order. -/
theorem contents_perm (hr : r.Faithful) (hes : ∀ e ∈ es, e.env.repositories = r)
    (hes' : ∀ e ∈ es', e.env.repositories = r)
    (hkeys : (es.map Errand.trigger).Pairwise fun t u => t.key ≠ u.key)
    (hp : (es'.map Errand.trigger).Perm (es.map Errand.trigger)) (hs : p'.1 = p.1) :
    ((attempts es' p').map Attempt.content).Perm ((attempts es p).map Attempt.content) := by
  rw [contents_attempts hr hes hkeys, contents_attempts hr hes' (hkeys.perm hp.symm Ne.symm), hs]
  exact hp.filterMap _

end Errand

end BoardAudit
