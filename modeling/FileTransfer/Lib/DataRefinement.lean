import Mathlib.Data.List.Basic

/-!
# Data refinement, and the bounded queue

An abstract data type is a partial function that answers an operation, or says that the operation
is not allowed; an implementation answers every operation. When a relation between their states is
kept by the allowed operations, with the same answers, the implementation answers every allowed
sequence of operations as the abstract data type does.
-/

namespace DataRefinement

universe u

variable {σ τ ι ο : Type u}

/-- The answers to a sequence of operations, while they are allowed. -/
def specify (spec : τ → ι → Option (ο × τ)) : τ → List ι → Option (List ο × τ)
  | q, [] => some ([], q)
  | q, operation :: rest =>
    (spec q operation).bind fun answered =>
      (specify spec answered.2 rest).map fun others => (answered.1 :: others.1, others.2)

def execute (implementation : σ → ι → ο × σ) : σ → List ι → List ο × σ
  | s, [] => ([], s)
  | s, operation :: rest =>
    let answered := implementation s operation
    let others := execute implementation answered.2 rest
    (answered.1 :: others.1, others.2)

/-- The relation is kept by every allowed operation, with the same answer. -/
def Refines (implementation : σ → ι → ο × σ) (spec : τ → ι → Option (ο × τ))
    (represents : σ → τ → Prop) : Prop :=
  ∀ s q operation answer q', represents s q → spec q operation = some (answer, q') →
    (implementation s operation).1 = answer ∧ represents (implementation s operation).2 q'

/-- A refinement answers every allowed sequence of operations as it is specified. -/
theorem Refines.execute_eq {implementation : σ → ι → ο × σ} {spec : τ → ι → Option (ο × τ)}
    {represents : σ → τ → Prop} (refines : Refines implementation spec represents)
    {operations : List ι} : ∀ {s q answers q'}, represents s q →
      specify spec q operations = some (answers, q') →
        (execute implementation s operations).1 = answers ∧
          represents (execute implementation s operations).2 q' := by
  induction operations with
  | nil =>
    intro s q answers q' related specified
    cases specified
    exact ⟨rfl, related⟩
  | cons operation rest ih =>
    intro s q answers q' related specified
    obtain ⟨⟨answer, q₁⟩, first, others⟩ := Option.bind_eq_some_iff.mp specified
    obtain ⟨⟨answers', q₂⟩, later, same⟩ := Option.map_eq_some_iff.mp others
    cases same
    obtain ⟨answered, related₁⟩ := refines s q operation answer q₁ related first
    obtain ⟨answered', related'⟩ := ih related₁ later
    exact ⟨by rw [execute, answered, answered'], related'⟩

end DataRefinement

/-! A queue with room for a number of items. -/

namespace BoundedQueue

universe u

variable {α : Type u}

inductive Operation (α : Type u) where
  | push (item : α)
  | size
  | get (i : Nat)
  | drop (n : Nat)

inductive Answer (α : Type u) where
  | done
  | size (n : Nat)
  | item (item : α)
  deriving DecidableEq

/-- A push is refused where there is no room; only what is there can be looked at or dropped. -/
def perform (bound : Nat) (q : List α) : Operation α → Option (Answer α × List α)
  | .push item => some (.done, if q.length < bound then q ++ [item] else q)
  | .size => some (.size q.length, q)
  | .get i => q[i]?.map fun item => (.item item, q)
  | .drop n => if n ≤ q.length then some (.done, q.drop n) else none

end BoundedQueue
