import FileTransfer.Lib.Transition
import Mathlib.Order.WellFounded

/-!
# Fair executions

Infinite executions of a stepped system under a schedule that names the action whose turn it is: an
action that is enabled is taken, one that is not leaves the state alone. The rule for progress has a
rank and, in each state short of the goal, a helpful action: the helpful action is enabled and lowers
the rank, the others lower it or leave both the rank and the choice of the helpful action as they are.
Every run to a state where nothing is left to do is the beginning of such an execution.
-/

namespace Fairness

universe u v

variable {σ : Type u} {α : Type v} {β γ : Type*}

/-- At each moment the scheduled action is taken, and meets `ok`, or is not enabled. -/
structure Execution (step : σ → α → Option σ) (ok : σ → α → Prop) (state : Nat → σ)
    (schedule : Nat → α) : Prop where
  taken : ∀ n t, step (state n) (schedule n) = some t →
    ok (state n) (schedule n) ∧ state (n + 1) = t
  idle : ∀ n, step (state n) (schedule n) = none → state (n + 1) = state n

/-- The action gets its turn again and again. -/
def Fair (schedule : Nat → α) (a : α) : Prop := ∀ n, ∃ m, n ≤ m ∧ schedule m = a

/-- The states that a schedule leads to. -/
def follow (step : σ → α → Option σ) (schedule : Nat → α) (s : σ) : Nat → σ
  | 0 => s
  | n + 1 => (step (follow step schedule s n) (schedule n)).getD (follow step schedule s n)

variable {step : σ → α → Option σ} {ok : σ → α → Prop} {state : Nat → σ} {schedule : Nat → α}

/-- Every schedule has its execution, and it meets what all its steps meet. -/
theorem execution_follow {s : σ} (guard : ∀ n t,
    step (follow step schedule s n) (schedule n) = some t →
      ok (follow step schedule s n) (schedule n)) :
    Execution step ok (follow step schedule s) schedule := by
  refine ⟨?_, ?_⟩
  · intro n t next
    exact ⟨guard n t next, by rw [follow, next, Option.getD_some]⟩
  · intro n next
    rw [follow, next, Option.getD_none]

/-- Where nothing is enabled any more, a schedule leads nowhere else. -/
theorem follow_of_final {s : σ} {n : Nat} (final : ∀ a, step (follow step schedule s n) a = none)
    (m : Nat) (later : n ≤ m) : follow step schedule s m = follow step schedule s n := by
  induction m, later using Nat.le_induction with
  | base => rfl
  | succ m _ ih => rw [follow, ih, final, Option.getD_none]

namespace Execution

theorem mono {ok' : σ → α → Prop} (execution : Execution step ok state schedule)
    (weaker : ∀ s a, ok s a → ok' s a) : Execution step ok' state schedule :=
  ⟨fun n t next => (execution.taken n t next).imp_left (weaker _ _), execution.idle⟩

theorem reaches (execution : Execution step ok state schedule) (n : Nat) :
    Transition.Reaches step ok (state 0) (state n) := by
  induction n with
  | zero => exact .refl
  | succ n ih =>
    cases next : step (state n) (schedule n) with
    | none =>
      rw [execution.idle n next]
      exact ih
    | some t =>
      obtain ⟨guard, same⟩ := execution.taken n t next
      rw [same]
      exact .tail ih guard next

/-- Until the rank is lower, it is as it was and so is the helpful action. -/
theorem waits [Preorder β] (execution : Execution step ok state schedule) {I : σ → γ → Prop}
    {goal : σ → Prop} {rank : σ → γ → β} {helpful : σ → γ → α}
    (other : ∀ s x a t, I s x → ¬ goal s → ok s a → step s a = some t → goal t ∨
      ∃ y, I t y ∧ (rank t y < rank s x ∨ rank t y = rank s x ∧ helpful t y = helpful s x))
    {n : Nat} {x : γ} (here : I (state n) x) (short : ∀ m, n ≤ m → ¬ goal (state m)) (m : Nat)
    (later : n ≤ m) :
    (∃ k y, n ≤ k ∧ I (state k) y ∧ rank (state k) y < rank (state n) x) ∨
      ∃ y, I (state m) y ∧ rank (state m) y = rank (state n) x ∧
        helpful (state m) y = helpful (state n) x := by
  induction m, later using Nat.le_induction with
  | base => exact .inr ⟨x, here, rfl, rfl⟩
  | succ m late ih =>
    rcases ih with lower | ⟨y, there, sameRank, sameHelp⟩
    · exact .inl lower
    · cases next : step (state m) (schedule m) with
      | none =>
        rw [execution.idle m next]
        exact .inr ⟨y, there, sameRank, sameHelp⟩
      | some t =>
        obtain ⟨guard, same⟩ := execution.taken m t next
        rw [same]
        rcases other _ y _ t there (short m late) guard next with
          reached | ⟨z, there', lower | ⟨sameRank', sameHelp'⟩⟩
        · exact absurd (same ▸ reached) (short (m + 1) (by omega))
        · refine .inl ⟨m + 1, z, by omega, same ▸ there', ?_⟩
          rw [same, ← sameRank]
          exact lower
        · exact .inr ⟨z, there', sameRank'.trans sameRank, sameHelp'.trans sameHelp⟩

/-- The goal is reached by every execution that is fair to the helpful actions. A value goes along
    with the states, on which rank and help may depend; each step has to find the next one. -/
theorem eventually_along [Preorder β] [WellFoundedLT β]
    (execution : Execution step ok state schedule) {I : σ → γ → Prop} {goal : σ → Prop}
    (rank : σ → γ → β) (helpful : σ → γ → α)
    (fair : ∀ s x, I s x → ¬ goal s → Fair schedule (helpful s x))
    (advance : ∀ s x, I s x → ¬ goal s → ∃ t, step s (helpful s x) = some t ∧
      (ok s (helpful s x) → goal t ∨ ∃ y, I t y ∧ rank t y < rank s x))
    (other : ∀ s x a t, I s x → ¬ goal s → ok s a → step s a = some t → goal t ∨
      ∃ y, I t y ∧ (rank t y < rank s x ∨ rank t y = rank s x ∧ helpful t y = helpful s x))
    (n : Nat) (x : γ) (here : I (state n) x) : ∃ m, n ≤ m ∧ goal (state m) := by
  induction left : rank (state n) x using WellFoundedLT.induction generalizing n x with
  | ind r ih =>
    by_contra never
    have short : ∀ m, n ≤ m → ¬ goal (state m) := fun m late there => never ⟨m, late, there⟩
    have again : ∀ k y, n ≤ k → I (state k) y → rank (state k) y < rank (state n) x → False := by
      intro k y late there lower
      obtain ⟨m, later, reached⟩ := ih _ (left ▸ lower) k y there rfl
      exact never ⟨m, late.trans later, reached⟩
    obtain ⟨m, late, turn⟩ := fair (state n) x here (short n le_rfl) n
    rcases execution.waits other here short m late with
      ⟨k, y, late', there, lower⟩ | ⟨y, there, sameRank, sameHelp⟩
    · exact again k y late' there lower
    · obtain ⟨t, next, lowers⟩ := advance (state m) y there (short m late)
      rw [sameHelp, ← turn] at next lowers
      obtain ⟨guard, same⟩ := execution.taken m t next
      rcases lowers guard with reached | ⟨z, there', lower⟩
      · exact never ⟨m + 1, by omega, same ▸ reached⟩
      · refine again (m + 1) z (by omega) (same ▸ there') ?_
        rw [same, ← sameRank]
        exact lower

/-- The rule without such a value. -/
theorem eventually [Preorder β] [WellFoundedLT β] (execution : Execution step ok state schedule)
    {I goal : σ → Prop} (rank : σ → β) (helpful : σ → α)
    (keep : ∀ s a t, I s → ¬ goal s → ok s a → step s a = some t → goal t ∨ I t)
    (fair : ∀ s, I s → ¬ goal s → Fair schedule (helpful s))
    (advance : ∀ s, I s → ¬ goal s → ∃ t, step s (helpful s) = some t ∧ rank t < rank s)
    (other : ∀ s a t, I s → ¬ goal s → ok s a → step s a = some t →
      rank t < rank s ∨ rank t = rank s ∧ helpful t = helpful s)
    (n : Nat) (here : I (state n)) : ∃ m, n ≤ m ∧ goal (state m) := by
  refine execution.eventually_along (I := fun s (_ : Unit) => I s) (fun s _ => rank s)
    (fun s _ => helpful s) (fun s _ => fair s) ?_ ?_ n () here
  · intro s _ inv short
    obtain ⟨t, next, lower⟩ := advance s inv short
    exact ⟨t, next, fun guard =>
      (keep s _ t inv short guard next).imp_right fun inv' => ⟨(), inv', lower⟩⟩
  · intro s _ a t inv short guard next
    exact (keep s a t inv short guard next).imp_right fun inv' =>
      ⟨(), inv', other s a t inv short guard next⟩

end Execution

/-- A step more at the beginning. -/
def before {τ : Type*} (first : τ) (sequence : Nat → τ) : Nat → τ
  | 0 => first
  | n + 1 => sequence n

theorem Execution.cons {s : σ} {a : α} (execution : Execution step ok state schedule)
    (guard : ok s a) (next : step s a = some (state 0)) :
    Execution step ok (before s state) (before a schedule) := by
  refine ⟨?_, ?_⟩
  · intro n t taken
    cases n with
    | zero => exact ⟨guard, Option.some.inj (next.symm.trans taken)⟩
    | succ n => exact execution.taken n t taken
  · intro n idle
    cases n with
    | zero => cases next.symm.trans idle
    | succ n => exact execution.idle n idle

/-- A run, and then an execution. -/
theorem Execution.prepend {s t : σ} (run : Transition.Reaches step ok s t)
    (execution : Execution step ok state schedule) (begun : state 0 = t) :
    ∃ state' schedule' k, state' 0 = s ∧ Execution step ok state' schedule' ∧
      (∀ n, state' (k + n) = state n) ∧ ∀ n, schedule' (k + n) = schedule n := by
  induction run generalizing state schedule with
  | refl => exact ⟨state, schedule, 0, begun, execution, by simp, by simp⟩
  | @tail t u a reached guard next ih =>
    obtain ⟨state', schedule', k, start, whole, states, schedules⟩ :=
      ih (execution.cons guard (begun ▸ next)) rfl
    refine ⟨state', schedule', k + 1, start, whole, ?_, ?_⟩
    · intro n
      rw [Nat.add_assoc, Nat.add_comm 1 n, states]
      rfl
    · intro n
      rw [Nat.add_assoc, Nat.add_comm 1 n, schedules]
      rfl

/-- A run to a state in which the scheduled actions are not enabled is part of an execution that is
    fair to what the schedule is fair to. -/
theorem Execution.of_reaches {s t : σ} (run : Transition.Reaches step ok s t)
    (schedule : Nat → α) (final : ∀ n, step t (schedule n) = none) :
    ∃ state schedule', state 0 = s ∧ Execution step ok state schedule' ∧
      ∀ a, Fair schedule a → Fair schedule' a := by
  have rests : Execution step ok (fun _ => t) schedule := by
    refine ⟨?_, fun _ _ => rfl⟩
    intro n u taken
    cases (final n).symm.trans taken
  obtain ⟨state, schedule', k, start, whole, -, schedules⟩ := rests.prepend run rfl
  refine ⟨state, schedule', start, whole, ?_⟩
  intro a fair n
  obtain ⟨m, later, turn⟩ := fair n
  exact ⟨k + m, by omega, (schedules m).trans turn⟩

/-- The actions take turns. -/
def cycle (first : α) (others : List α) (n : Nat) : α :=
  (first :: others).get ⟨n % (others.length + 1), Nat.mod_lt _ (Nat.succ_pos _)⟩

theorem cycle_mem (first : α) (others : List α) (n : Nat) :
    cycle first others n ∈ first :: others :=
  List.get_mem _ _

theorem cycle_fair {first : α} {others : List α} {a : α} (member : a ∈ first :: others) :
    Fair (cycle first others) a := by
  intro n
  obtain ⟨i, inside, rfl⟩ := List.getElem_of_mem member
  rw [List.length_cons] at inside
  have late : n ≤ n * (others.length + 1) := Nat.le_mul_of_pos_right n (Nat.succ_pos _)
  refine ⟨n * (others.length + 1) + i, by omega, ?_⟩
  simp only [cycle, Nat.mul_add_mod_self_right, Nat.mod_eq_of_lt inside, List.get_eq_getElem]

end Fairness
