import Mathlib.Logic.Basic

/-!
# Domains that do not see each other

A system takes events, each addressed to one of its domains. Each domain has its own relation of
states that look the same to it. When a step of one domain changes nothing for the others, and
gives the same result from states that look the same to it, then what a domain sees of a run is
what it sees when its own events are taken alone.
-/

namespace Noninterference

universe u v w x

variable {σ : Type u} {δ : Type v} {ι : Type w} {ο : Type x}

/-- The outcomes of the events, taken one after the other, and the state in the end. -/
def run (step : σ → δ → ι → ο × σ) : σ → List (δ × ι) → List (δ × ο) × σ
  | s, [] => ([], s)
  | s, event :: rest =>
    let taken := step s event.1 event.2
    let others := run step taken.2 rest
    ((event.1, taken.1) :: others.1, others.2)

/-- The unwinding conditions: `same d` is an equivalence, a step of another domain keeps it, and
    a step of `d` takes states that are the same to `d` to such states, with the same outcome. -/
structure Separated (step : σ → δ → ι → ο × σ) (same : δ → σ → σ → Prop) : Prop where
  refl : ∀ d s, same d s s
  symm : ∀ d s t, same d s t → same d t s
  trans : ∀ d s t u, same d s t → same d t u → same d s u
  confined : ∀ s d i e, e ≠ d → same e s (step s d i).2
  consistent : ∀ s t d i, same d s t →
    (step s d i).1 = (step t d i).1 ∧ same d (step s d i).2 (step t d i).2

variable {step : σ → δ → ι → ο × σ} {same : δ → σ → σ → Prop} [DecidableEq δ]

/-- The events or the outcomes of one domain. -/
def ofDomain {β : Type*} (d : δ) (events : List (δ × β)) : List (δ × β) :=
  events.filter fun event => event.1 = d

/-- What a domain sees of a run does not depend on the events of the others. -/
theorem Separated.run_ofDomain (h : Separated step same) (d : δ) (events : List (δ × ι)) :
    ∀ s t, same d s t →
      ofDomain d (run step s events).1 = (run step t (ofDomain d events)).1 ∧
        same d (run step s events).2 (run step t (ofDomain d events)).2 := by
  induction events with
  | nil =>
    intro s t alike
    exact ⟨rfl, alike⟩
  | cons event rest ih =>
    obtain ⟨e, i⟩ := event
    intro s t alike
    by_cases own : e = d
    · subst own
      obtain ⟨outcome, alike'⟩ := h.consistent s t e i alike
      obtain ⟨outcomes, alike''⟩ := ih _ _ alike'
      have first : ofDomain e ((e, i) :: rest) = (e, i) :: ofDomain e rest :=
        List.filter_cons_of_pos (by simp)
      rw [first]
      simp only [run]
      refine ⟨?_, alike''⟩
      rw [← outcomes, ← outcome]
      exact List.filter_cons_of_pos (by simp)
    · have alike' : same d (step s e i).2 t :=
        h.trans d _ s t (h.symm d _ _ (h.confined s e i d fun same => own same.symm)) alike
      obtain ⟨outcomes, alike''⟩ := ih _ _ alike'
      have first : ofDomain d ((e, i) :: rest) = ofDomain d rest :=
        List.filter_cons_of_neg (by simpa using own)
      rw [first]
      simp only [run]
      refine ⟨?_, alike''⟩
      rw [← outcomes]
      exact List.filter_cons_of_neg (by simpa using own)

/-- Two runs in which a domain has the same events, in the same order, look the same to it. -/
theorem Separated.run_eq (h : Separated step same) (d : δ) {events events' : List (δ × ι)}
    (order : ofDomain d events = ofDomain d events') {s t : σ} (alike : same d s t) :
    ofDomain d (run step s events).1 = ofDomain d (run step t events').1 ∧
      same d (run step s events).2 (run step t events').2 := by
  obtain ⟨outcomes, alike'⟩ := h.run_ofDomain d events s t alike
  obtain ⟨outcomes', alike''⟩ := h.run_ofDomain d events' t t (h.refl d t)
  rw [order] at outcomes alike'
  exact ⟨outcomes.trans outcomes'.symm, h.trans d _ _ _ alike' (h.symm d _ _ alike'')⟩

end Noninterference
