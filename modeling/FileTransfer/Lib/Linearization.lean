import FileTransfer.Lib.DataRefinement
import FileTransfer.Lib.Transition

/-!
# Linearization

A concurrent implementation of an abstract data type: its steps are those of several users in the
middle of their operations, and some of the steps commit an operation, with the answer on which the
user goes on. The history of a run is the list of what its steps commit. A run is linearized when
its history is one that the abstract data type allows, whole operation after whole operation.
-/

namespace Linearization

open DataRefinement

universe u v

variable {σ : Type v} {α : Type*} {τ ι ο : Type u}

/-- What the steps of a run commit, in the order of the steps. -/
def history (step : σ → α → Option σ) (commit : σ → α → Option (ι × ο)) :
    σ → List α → List (ι × ο)
  | _, [] => []
  | s, a :: as =>
    match step s a with
    | none => []
    | some t => (commit s a).toList ++ history step commit t as

/-- From `q` to `q'` by the committed operation, with its answer, or not at all. -/
def Takes (spec : τ → ι → Option (ο × τ)) (q q' : τ) : Option (ι × ο) → Prop
  | none => q' = q
  | some (operation, answer) => spec q operation = some (answer, q')

/-- A step that commits an operation moves the abstract state as the operation does and goes on with
    its answer; the other steps leave the abstract state alone. -/
def Commits (step : σ → α → Option σ) (commit : σ → α → Option (ι × ο))
    (spec : τ → ι → Option (ο × τ)) (inv : σ → Prop) (view : σ → τ) : Prop :=
  ∀ s a t, inv s → step s a = some t → Takes spec (view s) (view t) (commit s a)

variable {step : σ → α → Option σ} {commit : σ → α → Option (ι × ο)}
  {spec : τ → ι → Option (ο × τ)} {inv : σ → Prop} {view : σ → τ} {s t : σ}

theorem history_cons {a : α} {as : List α} (next : step s a = some t) :
    history step commit s (a :: as) = (commit s a).toList ++ history step commit t as := by
  rw [history, next]

/-- The invariant rule for a run together with its actions and its history. -/
theorem run_induction {P : List α → List (ι × ο) → σ → Prop} (start : P [] [] s)
    (keep : ∀ as h m a u, P as h m → step m a = some u →
      P (as ++ [a]) (h ++ (commit m a).toList) u)
    {as : List α} (run : Transition.run step s as = some t) :
    P as (history step commit s as) t := by
  suffices ∀ done h m, P done h m → Transition.run step m as = some t →
      P (done ++ as) (h ++ history step commit m as) t from this [] [] s start run
  clear run
  induction as with
  | nil =>
    intro done h m here run
    cases run
    simpa [history] using here
  | cons a as ih =>
    intro done h m here run
    obtain ⟨u, next, rest⟩ := Option.bind_eq_some_iff.mp run
    have later := ih _ _ u (keep done h m a u here next) rest
    rw [history_cons next]
    simpa only [List.append_assoc, List.singleton_append] using later

/-- The history of every run is allowed, and leads to the abstraction of the run's last state. -/
theorem Commits.specify_history (commits : Commits step commit spec inv view) (start : inv s)
    (keep : ∀ s a t, inv s → step s a = some t → inv t) {as : List α}
    (run : Transition.run step s as = some t) :
    specify spec (view s) ((history step commit s as).map Prod.fst) =
      some ((history step commit s as).map Prod.snd, view t) := by
  induction as generalizing s with
  | nil =>
    cases run
    rfl
  | cons a as ih =>
    obtain ⟨m, next, rest⟩ := Option.bind_eq_some_iff.mp run
    have later := ih (keep s a m start next) rest
    have here := commits s a m start next
    rw [history_cons next]
    cases committed : commit s a with
    | none =>
      rw [committed, Takes] at here
      simpa [← here] using later
    | some entry =>
      obtain ⟨operation, answer⟩ := entry
      rw [committed, Takes] at here
      simp [specify, here, later]

end Linearization
