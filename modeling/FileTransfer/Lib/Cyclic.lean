import Mathlib.Logic.Function.Basic
import Mathlib.Data.Nat.ModEq

/-!
# Cyclic windows

A ring of `cap` cells addressed by unbounded positions: position `p` lives in cell
`p % cap`. A reader and a writer that keep their positions modulo `cap` are described by
the unbounded positions `a ≤ b < a + cap` behind them; the lemmas here say that the wrapped
indices still determine the distance `b - a` and that the window between the two positions
does not meet the cell at `b`.
-/

namespace Cyclic

universe u

variable {γ : Type u} {cell : Nat → γ} {cap pos n a b : Nat} {x : γ}

/-- The cells of the `n` positions from `pos`. -/
def window (cell : Nat → γ) (cap pos n : Nat) : List γ :=
  (List.range n).map fun i => cell ((pos + i) % cap)

/-- The number of cells from index `h` up to index `t`, going round the ring. -/
def distance (cap h t : Nat) : Nat := if h ≤ t then t - h else cap - h + t

@[simp] theorem window_zero : window cell cap pos 0 = [] := rfl

theorem window_succ : window cell cap pos (n + 1) =
    window cell cap pos n ++ [cell ((pos + n) % cap)] := by
  simp [window, List.range_succ]

theorem window_add (m n : Nat) : window cell cap pos (m + n) =
    window cell cap pos m ++ window cell cap (pos + m) n := by
  induction n with
  | zero => simp
  | succ n ih =>
    rw [← Nat.add_assoc, window_succ, ih, window_succ, List.append_assoc, Nat.add_assoc]

theorem window_take {m : Nat} (le : m ≤ n) :
    (window cell cap pos n).take m = window cell cap pos m := by
  rw [window, ← List.map_take, List.take_range, Nat.min_eq_left le, window]

theorem getElem?_window {i : Nat} (inside : i < n) :
    (window cell cap pos n)[i]? = some (cell ((pos + i) % cap)) := by
  simp [window, inside]

/-- Only the position modulo the number of cells matters. -/
theorem window_mod (cell : Nat → γ) (cap pos n : Nat) :
    window cell cap (pos % cap) n = window cell cap pos n := by
  simp [window]

theorem mod_ne_mod (above : a < b) (within : b < a + cap) : a % cap ≠ b % cap := by
  intro same
  have divides : cap ∣ b - a := (Nat.modEq_iff_dvd' above.le).mp same
  have := Nat.le_of_dvd (by omega) divides
  omega

theorem window_update_of_ne {j : Nat} (apart : ∀ i < n, (pos + i) % cap ≠ j) :
    window (Function.update cell j x) cap pos n = window cell cap pos n := by
  apply List.map_congr_left
  intro i hi
  exact Function.update_of_ne (apart i (List.mem_range.mp hi)) _ _

theorem add_mod_of_distance {d : Nat} (small : d < cap) :
    (a + d) % cap = if a % cap + d < cap then a % cap + d else a % cap + d - cap := by
  have below : a % cap < cap := Nat.mod_lt _ (by omega)
  rw [Nat.add_mod, Nat.mod_eq_of_lt small]
  split
  · rename_i fits
    exact Nat.mod_eq_of_lt fits
  · rw [Nat.mod_eq_sub_mod (by omega), Nat.mod_eq_of_lt (by omega)]

/-- The wrapped indices of two positions less than one turn apart give their distance. -/
theorem distance_mod (ordered : a ≤ b) (within : b < a + cap) :
    distance cap (a % cap) (b % cap) = b - a := by
  obtain ⟨d, rfl⟩ := Nat.exists_eq_add_of_le ordered
  have below : a % cap < cap := Nat.mod_lt _ (by omega)
  rw [add_mod_of_distance (by omega), distance]
  split <;> split <;> omega

/-- Two positions at most one turn apart meet in a cell only when they are equal or exactly
    one turn apart. -/
theorem succ_lt_of_mod_ne (within : b < a + cap) (apart : (b + 1) % cap ≠ a % cap) :
    b + 1 < a + cap := by
  by_contra full
  have turn : b + 1 = a + cap := by omega
  exact apart (by rw [turn, Nat.add_mod_right])

end Cyclic
