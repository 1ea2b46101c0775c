import Mathlib.Data.List.Infix
import Mathlib.InformationTheory.Coding.UniquelyDecodable

/-!
# Prefix codes

A set of words none of which begins with another. Where the words have a head of fixed length that
determines how long they are, they form one; and in such a code a beginning of a stream of words has
the words of the stream.
-/

namespace PrefixCode

universe u

variable {α : Type u} {S : Set (List α)} {words words' : List (List α)}

/-- No word begins with another. -/
def PrefixFree (S : Set (List α)) : Prop := ∀ s ∈ S, ∀ t ∈ S, s <+: t → s = t

/-- Words whose first `head` items say how long they are. -/
theorem prefixFree_of_length {head : Nat} (size : List α → Nat)
    (sized : ∀ s ∈ S, head ≤ s.length ∧ s.length = size (s.take head)) : PrefixFree S := by
  intro s member t member' starts
  obtain ⟨long, length⟩ := sized s member
  obtain ⟨-, length'⟩ := sized t member'
  apply starts.eq_of_length
  rw [length, length']
  obtain ⟨rest, rfl⟩ := starts
  rw [List.take_append_of_le_length long]

/-- A stream of words that begins another one is a beginning of its words. -/
theorem PrefixFree.prefix_of_flatten (free : PrefixFree S) (filled : [] ∉ S)
    (valid : ∀ w ∈ words, w ∈ S) (valid' : ∀ w ∈ words', w ∈ S)
    (starts : words.flatten <+: words'.flatten) : words <+: words' := by
  induction words generalizing words' with
  | nil => exact List.nil_prefix
  | cons word words ih =>
    have member := valid word List.mem_cons_self
    cases words' with
    | nil =>
      have none : word = [] := by
        have whole := List.prefix_nil.mp starts
        exact (List.append_eq_nil_iff.mp whole).1
      exact absurd (none ▸ member) filled
    | cons word' words' =>
      have member' := valid' word' List.mem_cons_self
      have first : word <+: word' ++ words'.flatten :=
        (List.prefix_append word words.flatten).trans starts
      have same : word = word' := by
        rcases List.prefix_or_prefix_of_prefix first (List.prefix_append word' _) with
          shorter | longer
        · exact free _ member _ member' shorter
        · exact (free _ member' _ member longer).symm
      subst same
      refine List.cons_prefix_cons.mpr ⟨rfl, ?_⟩
      apply ih (fun w later => valid w (List.mem_cons_of_mem _ later))
        (fun w later => valid' w (List.mem_cons_of_mem _ later))
      exact (List.prefix_append_right_inj word).mp starts

theorem PrefixFree.uniquelyDecodable (free : PrefixFree S) (filled : [] ∉ S) :
    InformationTheory.UniquelyDecodable S := by
  intro words words' valid valid' same
  have starts := free.prefix_of_flatten filled valid valid' (same ▸ List.prefix_rfl)
  have starts' := free.prefix_of_flatten filled valid' valid (same ▸ List.prefix_rfl)
  exact starts.eq_of_length (Nat.le_antisymm starts.length_le starts'.length_le)

end PrefixCode
