import Mathlib.Order.WellFounded

/-!
# Runs of a stepped system

A system is a partial step function `σ → α → Option σ`; `none` says that the action is
not enabled. `run` follows an explicit list of actions, `Reaches` quantifies over all of
them. `Reaches` carries a guard `ok`, a condition on the state before each step: with the
guard `fun _ _ => True` it is plain reachability, with a guard on the action alone it
restricts the schedule, and in general it speaks about the runs whose steps all meet a
condition.
-/

namespace Transition

universe u v w

variable {σ : Type u} {α : Type v} {τ : Type w} {β : Type*}

/-- The state after the actions, `none` as soon as one of them is not enabled. -/
def run (step : σ → α → Option σ) : σ → List α → Option σ
  | s, [] => some s
  | s, a :: as => (step s a).bind fun t => run step t as

/-- `t` is reached from `s` by a run each of whose steps meets `ok` in the state it is
    taken from. -/
inductive Reaches (step : σ → α → Option σ) (ok : σ → α → Prop) (s : σ) : σ → Prop
  | refl : Reaches step ok s s
  | tail {t u : σ} {a : α} :
      Reaches step ok s t → ok t a → step t a = some u → Reaches step ok s u

variable {step : σ → α → Option σ} {ok : σ → α → Prop} {s t u : σ}

namespace Reaches

/-- What holds at the start and is kept by every step that meets the guard holds in every
    state reached. -/
theorem invariant {I : σ → Prop} (h : Reaches step ok s t) (start : I s)
    (keep : ∀ t a u, I t → ok t a → step t a = some u → I u) : I t := by
  induction h with
  | refl => exact start
  | tail _ guard next ih => exact keep _ _ _ ih guard next

/-- The invariant rule over a second invariant that is known already. -/
theorem invariant_of {I J : σ → Prop} (h : Reaches step ok s t)
    (known : ∀ t, Reaches step ok s t → J t) (start : I s)
    (keep : ∀ t a u, J t → I t → ok t a → step t a = some u → I u) : I t := by
  induction h with
  | refl => exact start
  | tail reached guard next ih => exact keep _ _ _ (known _ reached) ih guard next

theorem trans (first : Reaches step ok s t) (second : Reaches step ok t u) :
    Reaches step ok s u := by
  induction second with
  | refl => exact first
  | tail _ guard next ih => exact .tail ih guard next

theorem single {a : α} (guard : ok s a) (next : step s a = some t) : Reaches step ok s t :=
  .tail .refl guard next

theorem head {a : α} (guard : ok s a) (next : step s a = some t)
    (rest : Reaches step ok t u) : Reaches step ok s u :=
  (single guard next).trans rest

/-- A run under a guard is one under any weaker guard. -/
theorem mono {ok' : σ → α → Prop} (h : Reaches step ok s t) (weaker : ∀ s a, ok s a → ok' s a) :
    Reaches step ok' s t := by
  induction h with
  | refl => exact .refl
  | tail _ guard next ih => exact .tail ih (weaker _ _ guard) next

/-- Progress by a rank: when each state of the invariant short of the goal leads to another one of
    smaller rank, the goal is reached. -/
theorem of_progress [Preorder β] [WellFoundedLT β] {I goal : σ → Prop} (rank : σ → β)
    (advance : ∀ s, I s → ¬ goal s → ∃ t, Reaches step ok s t ∧ I t ∧ rank t < rank s)
    (s : σ) (inv : I s) : ∃ t, Reaches step ok s t ∧ I t ∧ goal t := by
  induction left : rank s using WellFoundedLT.induction generalizing s with
  | ind r ih =>
    by_cases there : goal s
    · exact ⟨s, .refl, inv, there⟩
    · obtain ⟨t, run, inv', less⟩ := advance s inv there
      obtain ⟨u, rest, inv'', there'⟩ := ih (rank t) (left ▸ less) t inv' rfl
      exact ⟨u, run.trans rest, inv'', there'⟩

/-- Progress by a rank that some step makes smaller. -/
theorem of_descent [Preorder β] [WellFoundedLT β] {I goal : σ → Prop} (rank : σ → β)
    (advance : ∀ s, I s → ¬ goal s →
      ∃ a t, ok s a ∧ step s a = some t ∧ I t ∧ rank t < rank s)
    (s : σ) (inv : I s) : ∃ t, Reaches step ok s t ∧ I t ∧ goal t := by
  apply of_progress rank _ s inv
  intro s inv short
  obtain ⟨a, t, guard, next, inv', less⟩ := advance s inv short
  exact ⟨t, .single guard next, inv', less⟩

/-- Progress by a number. -/
theorem of_rank {I goal : σ → Prop} (rank : σ → Nat)
    (advance : ∀ s, I s → ¬ goal s →
      ∃ a t, ok s a ∧ step s a = some t ∧ I t ∧ rank t < rank s)
    (s : σ) (inv : I s) : ∃ t, Reaches step ok s t ∧ I t ∧ goal t :=
  of_descent rank advance s inv

/-- A list of actions whose guards hold whatever the state is a run. -/
theorem of_run (as : List α) (h : run step s as = some t) (guard : ∀ s, ∀ a ∈ as, ok s a) :
    Reaches step ok s t := by
  induction as generalizing s with
  | nil =>
    obtain rfl : s = t := by simpa [run] using h
    exact .refl
  | cons a as ih =>
    obtain ⟨m, next, rest⟩ := Option.bind_eq_some_iff.mp h
    exact .head (guard s a (by simp)) next (ih rest fun s b hb => guard s b (by simp [hb]))

/-- A list of actions run with the guard checked before each of them. -/
theorem of_checked_run [∀ s a, Decidable (ok s a)] (as : List α)
    (h : run (fun s a => if ok s a then step s a else none) s as = some t) :
    Reaches step ok s t := by
  induction as generalizing s with
  | nil =>
    obtain rfl : s = t := by simpa [run] using h
    exact .refl
  | cons a as ih =>
    obtain ⟨m, next, rest⟩ := Option.bind_eq_some_iff.mp h
    simp only at next
    split at next
    · rename_i guard
      exact .head guard next (ih rest)
    · cases next

/-- Simulation with stuttering: when each step is matched by a run of the abstract system
    between the abstractions of its two ends, so is each run. The invariant `I` is what the
    matching may rely on. -/
theorem simulate {stepA : τ → β → Option τ} {okA : τ → β → Prop} (view : σ → τ)
    (matched : ∀ t a u, ok t a → step t a = some u → Reaches stepA okA (view t) (view u))
    (h : Reaches step ok s t) : Reaches stepA okA (view s) (view t) := by
  induction h with
  | refl => exact .refl
  | tail _ guard next ih => exact ih.trans (matched _ _ _ guard next)

/-- Forward simulation by a relation: each step carries it along a run of the abstract system,
    and so does each run. -/
theorem forward {stepA : τ → β → Option τ} {okA : τ → β → Prop} {R : σ → τ → Prop} {x : τ}
    (h : Reaches step ok s t) (related : R s x)
    (matched : ∀ t y a u, R t y → ok t a → step t a = some u →
      ∃ z, Reaches stepA okA y z ∧ R u z) : ∃ y, Reaches stepA okA x y ∧ R t y := by
  induction h with
  | refl => exact ⟨x, .refl, related⟩
  | tail _ guard next ih =>
    obtain ⟨y, run, related'⟩ := ih
    obtain ⟨z, more, related''⟩ := matched _ _ _ _ related' guard next
    exact ⟨z, run.trans more, related''⟩

end Reaches

/-- `P` holds in every state of the run. -/
def Throughout (step : σ → α → Option σ) (P : σ → Prop) : σ → List α → Prop
  | s, [] => P s
  | s, a :: as => P s ∧ ∀ t, step s a = some t → Throughout step P t as

/-- Every step of the run meets `ok`. -/
def Meets (step : σ → α → Option σ) (ok : σ → α → Prop) : σ → List α → Prop
  | _, [] => True
  | s, a :: as => ∀ t, step s a = some t → ok s a ∧ Meets step ok t as

theorem Throughout.of_run {P : σ → Prop} {as : List α} (h : Throughout step P s as)
    (followed : run step s as = some t) : P t := by
  induction as generalizing s with
  | nil =>
    cases followed
    exact h
  | cons a as ih =>
    obtain ⟨u, next, rest⟩ := Option.bind_eq_some_iff.mp followed
    exact ih (h.2 u next) rest

/-- What a step keeps if and only if it meets a condition holds throughout a run if and only if all
    its steps meet it. `J` is what is known as long as it holds. -/
theorem throughout_iff_meets {P J : σ → Prop}
    (exact : ∀ s a t, P s → J s → step s a = some t → (P t ↔ ok s a))
    (known : ∀ s a t, P s → J s → step s a = some t → P t → J t) (as : List α) :
    ∀ s, P s → J s → (Throughout step P s as ↔ Meets step ok s as) := by
  induction as with
  | nil =>
    intro s here _
    exact ⟨fun _ => trivial, fun _ => here⟩
  | cons a as ih =>
    intro s here inv
    constructor
    · rintro ⟨-, later⟩ t next
      have there : P t := by
        cases as with
        | nil => exact later t next
        | cons => exact (later t next).1
      have inv' := known s a t here inv next there
      exact ⟨(exact s a t here inv next).mp there, (ih t there inv').mp (later t next)⟩
    · intro meets
      refine ⟨here, ?_⟩
      intro t next
      obtain ⟨guard, later⟩ := meets t next
      have there := (exact s a t here inv next).mpr guard
      exact (ih t there (known s a t here inv next there)).mpr later

end Transition
