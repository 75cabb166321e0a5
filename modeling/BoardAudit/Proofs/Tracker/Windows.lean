import BoardAudit.Tracker.History
import Mathlib.Data.List.Induction
import Mathlib.Data.List.Nodup

/-!
# Windows

The drains of a worker cut the triggers that it receives into windows. A history is settled when every
drain in it handled, of each key, the last trigger of its window, once, and nothing else.

`Settled.handled_waiting`: in a settled history the handled triggers of a key, and after them those of
the open window, are a part of the received ones in their order, and end as these end.
`Settled.exists_dispatch`: a trigger that does not wait any more was handled by the first drain after it,
or gave way there to a later one of its key.
-/

namespace BoardAudit

/-- The triggers of a key, in their order. -/
def Trigger.ofKey (key : Key) (ts : List Trigger) : List Trigger := ts.filter fun t => t.key = key

namespace Trigger

variable {key : Key} {t : Trigger} {ts us : List Trigger}

@[simp] lemma ofKey_nil : ofKey key [] = [] := rfl

@[simp] lemma ofKey_append : ofKey key (ts ++ us) = ofKey key ts ++ ofKey key us :=
  List.filter_append ..

@[simp] lemma ofKey_singleton : ofKey key [t] = if t.key = key then [t] else [] := by
  simp [ofKey, List.filter_cons]

lemma ofKey_cons : ofKey key (t :: ts) = ofKey key [t] ++ ofKey key ts := by
  rw [← ofKey_append, List.singleton_append]

lemma mem_ofKey : t ∈ ofKey key ts ↔ t ∈ ts ∧ t.key = key := by simp [ofKey]

lemma ofKey_perm (h : ts.Perm us) : (ofKey key ts).Perm (ofKey key us) := h.filter _

end Trigger

open Trigger (ofKey ofKey_append)

lemma Batch.nodup_triggers (b : Batch) : b.triggers.Nodup :=
  b.pairwise_triggers.imp fun hne he => hne (congrArg Trigger.key he)

/-- Of a batch at most one trigger is of a key. -/
lemma Batch.ofKey_triggers (b : Batch) (key : Key) :
    ofKey key b.triggers = (b.find? key).toList := by
  cases hb : b.find? key with
  | none =>
    refine List.filter_eq_nil_iff.mpr fun t ht => ?_
    rw [Batch.mem_triggers] at ht
    have hk : t.key ≠ key := by
      rintro rfl
      rw [hb] at ht
      cases ht
    simpa using hk
  | some t =>
    have hk : t.key = key := Batch.key_of_find? hb
    have ht : t ∈ b.triggers := Batch.mem_triggers.mpr (hk ▸ hb)
    have he : ofKey key b.triggers = b.triggers.filter (· = t) := by
      refine List.filter_congr fun u hu => ?_
      have huk := Batch.mem_triggers.mp hu
      refine decide_eq_decide.mpr ⟨fun h => ?_, fun h => h ▸ hk⟩
      rw [h, hb] at huk
      exact (Option.some.inj huk).symm
    rw [he, List.filter_eq, List.count_eq_one_of_mem b.nodup_triggers ht]
    rfl

/-! ### The open window -/

/-- Whether something happened to the worker. -/
def Happening.isWorkers : Happening → Bool
  | .received _ | .drained _ => true
  | .queued _ | .counted .. | .stopSent => false

namespace History

/-- The triggers that wait after one more thing has happened. -/
@[simp] def wait (ts : List Trigger) : Happening → List Trigger
  | .received t => ts ++ [t]
  | .drained _ => []
  | _ => ts

/-- The triggers received since the last drain. -/
def waiting (h : History) : List Trigger := h.foldl wait []

/-- The triggers that were handled. -/
def handled (h : History) : List Trigger := (dispatches h).map Dispatch.trigger

variable {g h : History}

@[simp] lemma queued_nil : queued [] = [] := rfl
@[simp] lemma received_nil : received [] = [] := rfl
@[simp] lemma counted_nil : counted [] = [] := rfl
@[simp] lemma handled_nil : handled [] = [] := rfl
@[simp] lemma waiting_nil : waiting [] = [] := rfl

@[simp] lemma queued_cons (x : Happening) : queued (x :: h) = x.queued?.toList ++ queued h := by
  cases x <;> rfl

@[simp] lemma queued_append : queued (g ++ h) = queued g ++ queued h := List.filterMap_append

@[simp] lemma received_cons (x : Happening) :
    received (x :: h) = x.received?.toList ++ received h := by
  cases x <;> rfl

@[simp] lemma received_append : received (g ++ h) = received g ++ received h :=
  List.filterMap_append

lemma mem_received {t : Trigger} : t ∈ received h ↔ .received t ∈ h := by
  rw [received, List.mem_filterMap]
  refine ⟨fun ⟨x, hx, ht⟩ => ?_, fun ht => ⟨_, ht, rfl⟩⟩
  cases x <;> cases ht
  exact hx

@[simp] lemma counted_cons (x : Happening) : counted (x :: h) = x.counted?.toList ++ counted h := by
  cases x <;> rfl

@[simp] lemma counted_append : counted (g ++ h) = counted g ++ counted h := List.filterMap_append

@[simp] lemma dispatches_append : dispatches (g ++ h) = dispatches g ++ dispatches h := by
  simp [dispatches]

@[simp] lemma dispatches_singleton (x : Happening) : dispatches [x] = x.dispatches := by
  simp [dispatches]

/-- What does not concern the worker is no receiving and no drain. -/
lemma nil_of_not_isWorkers (hg : ∀ x ∈ g, x.isWorkers = false) : received g = [] ∧ dispatches g = [] := by
  refine ⟨List.filterMap_eq_nil_iff.mpr fun x hx => ?_, List.flatMap_eq_nil_iff.mpr fun x hx => ?_⟩
  all_goals
    have := hg x hx
    cases x <;> first | rfl | cases this

@[simp] lemma handled_append : handled (g ++ h) = handled g ++ handled h := by
  simp [handled]

@[simp] lemma handled_singleton (x : Happening) :
    handled [x] = x.dispatches.map Dispatch.trigger := by simp [handled]

lemma waiting_append : waiting (g ++ h) = h.foldl wait (waiting g) := List.foldl_append

@[simp] lemma waiting_concat (x : Happening) : waiting (h ++ [x]) = wait (waiting h) x :=
  waiting_append

/-- Without a drain the window grows by what is received. -/
lemma foldl_wait {ts : List Trigger} (hd : ∀ ds, .drained ds ∉ h) :
    h.foldl wait ts = ts ++ received h := by
  induction h generalizing ts with
  | nil => simp
  | cons x h ih =>
    have hd' : ∀ ds, .drained ds ∉ h := fun ds hm => hd ds (List.mem_cons_of_mem _ hm)
    rw [List.foldl_cons, ih hd']
    cases x with
    | drained ds => exact absurd List.mem_cons_self (hd ds)
    | _ => simp

/-- A window that is not open any more was closed by a drain; the first one is told apart. -/
lemma exists_first_drain {ts : List Trigger} (hn : ts ≠ []) (hw : h.foldl wait ts = []) :
    ∃ mid ds rest, h = mid ++ .drained ds :: rest ∧ ∀ ds', .drained ds' ∉ mid := by
  induction h generalizing ts with
  | nil => exact absurd hw hn
  | cons x h ih =>
    rw [List.foldl_cons] at hw
    by_cases hx : ∃ ds, x = .drained ds
    · obtain ⟨ds, rfl⟩ := hx
      exact ⟨[], ds, h, rfl, by simp⟩
    · have hn' : wait ts x ≠ [] := by
        cases x with
        | drained ds => exact absurd ⟨ds, rfl⟩ hx
        | received t => simp
        | _ => exact hn
      obtain ⟨mid, ds, rest, rfl, hm⟩ := ih hn' hw
      refine ⟨x :: mid, ds, rest, rfl, fun ds' h' => ?_⟩
      rcases List.mem_cons.mp h' with rfl | h'
      · exact hx ⟨ds', rfl⟩
      · exact hm ds' h'

/-! ### Settled windows -/

/-- Every drain handled, of each key, the last trigger of its window, once, and nothing else. -/
def Settled (h : History) : Prop :=
  ∀ before ds after, h = before ++ .drained ds :: after →
    ∀ key, ofKey key (ds.map Dispatch.trigger) = (ofKey key (waiting before)).getLast?.toList

lemma settled_nil : Settled [] := by
  intro before ds after h
  simp at h

/-- A history is settled when it was so before and its last happening, if a drain, fits the window. -/
lemma Settled.concat {x : Happening} (hs : Settled h)
    (hx : ∀ ds, x = .drained ds →
      ∀ key, ofKey key (ds.map Dispatch.trigger) = (ofKey key (waiting h)).getLast?.toList) :
    Settled (h ++ [x]) := by
  intro before ds after he
  rcases List.eq_nil_or_concat after with rfl | ⟨after, y, rfl⟩
  · obtain ⟨rfl, hd⟩ := List.append_inj' he rfl
    exact hx ds (by simpa using hd)
  · have he' : h ++ [x] = (before ++ .drained ds :: after) ++ [y] := by simpa using he
    exact hs before ds after (List.append_inj' he' rfl).1

/-- What was handled before the open window, with the window, is a part of what was received and ends
as it ends. -/
lemma Settled.handled_waiting (hs : Settled h) (key : Key) :
    (ofKey key (handled h) ++ ofKey key (waiting h)).Sublist (ofKey key (received h)) ∧
      (ofKey key (handled h) ++ ofKey key (waiting h)).getLast? =
        (ofKey key (received h)).getLast? := by
  induction h using List.reverseRecOn with
  | nil => simp
  | append_singleton h x ih =>
    obtain ⟨hsub, hlast⟩ := ih fun before ds after he =>
      hs before ds (after ++ [x]) (by simp [he])
    cases x with
    | received t =>
      have he : ofKey key (handled h) ++ (ofKey key (waiting h) ++ ofKey key [t]) =
          (ofKey key (handled h) ++ ofKey key (waiting h)) ++ ofKey key [t] := by
        rw [List.append_assoc]
      refine ⟨?_, ?_⟩
      · simpa [he] using hsub.append (.refl (ofKey key [t]))
      · have hl : ((ofKey key (handled h) ++ ofKey key (waiting h)) ++ ofKey key [t]).getLast? =
            (ofKey key (received h) ++ ofKey key [t]).getLast? := by
          simp only [List.getLast?_append] at hlast ⊢
          rw [hlast]
        simpa [he] using hl
    | drained ds =>
      have hd := hs h ds [] rfl key
      set W := ofKey key (waiting h) with hW
      have hW' : W.getLast?.toList.Sublist W := by
        cases hl : W.getLast? with
        | none => simp
        | some t => simpa using List.mem_of_getLast? hl
      refine ⟨?_, ?_⟩
      · simpa [hd] using ((List.Sublist.refl _).append hW').trans hsub
      · have hl : W.getLast?.toList.getLast? = W.getLast? := by cases W.getLast? <;> rfl
        rw [List.getLast?_append] at hlast
        simp [hd, List.getLast?_append, hl, hlast]
    | _ => simpa using And.intro hsub hlast

/-- A received trigger that does not wait any more was handled by the first drain after it, or gave way
there to a later trigger of its key. -/
theorem Settled.exists_dispatch {before after : History} {t : Trigger}
    (hs : Settled (before ++ .received t :: after))
    (hw : waiting (before ++ .received t :: after) = []) :
    ∃ mid ds rest, after = mid ++ .drained ds :: rest ∧ (∀ ds', .drained ds' ∉ mid) ∧
      ∃ d ∈ ds, d.trigger.key = t.key ∧ (d.trigger = t ∨ .received d.trigger ∈ mid) := by
  rw [waiting_append, List.foldl_cons, wait] at hw
  obtain ⟨mid, ds, rest, rfl, hm⟩ := exists_first_drain (by simp) hw
  refine ⟨mid, ds, rest, rfl, hm, ?_⟩
  -- The drain closed the window of `t`, so of its key it handled the last trigger since.
  have hd := hs (before ++ .received t :: mid) ds rest (by simp) t.key
  rw [waiting_append, List.foldl_cons, wait, foldl_wait hm, ofKey_append, ofKey_append,
    Trigger.ofKey_singleton, if_pos rfl, List.getLast?_append, List.getLast?_append] at hd
  obtain ⟨u, hu, hk⟩ : ∃ u, u ∈ ofKey t.key (ds.map Dispatch.trigger) ∧
      (u = t ∨ u ∈ received mid) := by
    rw [hd]
    cases hl : (ofKey t.key (received mid)).getLast? with
    | none => exact ⟨t, by simp, .inl rfl⟩
    | some u =>
      have hu := Trigger.mem_ofKey.mp (List.mem_of_getLast? hl)
      exact ⟨u, by simp, .inr hu.1⟩
  rw [Trigger.mem_ofKey, List.mem_map] at hu
  obtain ⟨⟨d, hd, rfl⟩, hkey⟩ := hu
  exact ⟨d, hd, hkey, hk.imp_right mem_received.mp⟩

end History

end BoardAudit
