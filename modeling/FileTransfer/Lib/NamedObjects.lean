import Mathlib.Logic.Function.Basic
import Mathlib.Data.List.Basic

/-!
# Objects behind system-wide names

Opening a name gives the object behind it, or a new object with an initial value. Removing a
name takes the name away and nothing else: who has the object open goes on with it, and whoever
opens the name next gets another one.
-/

namespace NamedObjects

universe u v

/-- The names there are and the objects ever created, in that order; a name has an object. -/
structure Store (κ : Type u) (ν : Type v) where
  names : κ → Option Nat
  objects : List ν
  bound : ∀ name id, names name = some id → id < objects.length

namespace Store

variable {κ : Type u} {ν : Type v}

def empty : Store κ ν := { names := fun _ => none, objects := [], bound := by simp }

/-- The value of an object. -/
def value (s : Store κ ν) (id : Nat) : Option ν := s.objects[id]?

/-- The value of the object behind a name. -/
def find (s : Store κ ν) (name : κ) : Option ν := (s.names name).bind s.value

def set (s : Store κ ν) (id : Nat) (value : ν) : Store κ ν where
  names := s.names
  objects := s.objects.set id value
  bound := by
    intro name id there
    rw [List.length_set]
    exact s.bound name id there

/-- Different names have different objects behind them. -/
def Separate (s : Store κ ν) : Prop :=
  ∀ name other id, s.names name = some id → s.names other = some id → name = other

variable [DecidableEq κ]

/-- A new object under the name. -/
def create (s : Store κ ν) (name : κ) (initial : ν) : Store κ ν where
  names := Function.update s.names name (some s.objects.length)
  objects := s.objects ++ [initial]
  bound := by
    intro other id there
    rw [List.length_append, List.length_singleton]
    by_cases same : other = name
    · rw [same, Function.update_self] at there
      cases there
      omega
    · rw [Function.update_of_ne same] at there
      have old := s.bound other id there
      omega

def openOrCreate (s : Store κ ν) (name : κ) (initial : ν) : Nat × Store κ ν :=
  match s.names name with
  | some id => (id, s)
  | none => (s.objects.length, s.create name initial)

/-- Fails when the name is there. -/
def createOnly (s : Store κ ν) (name : κ) (initial : ν) : Option (Store κ ν) :=
  match s.names name with
  | some _ => none
  | none => some (s.create name initial)

def remove (s : Store κ ν) (name : κ) : Store κ ν where
  names := Function.update s.names name none
  objects := s.objects
  bound := by
    intro other id there
    by_cases same : other = name
    · rw [same, Function.update_self] at there
      cases there
    · rw [Function.update_of_ne same] at there
      exact s.bound other id there

variable {s s' : Store κ ν} {name other : κ} {initial : ν}

@[simp] theorem names_remove : (s.remove name).names = Function.update s.names name none := rfl

theorem find_remove_self : (s.remove name).find name = none := by
  simp only [find, names_remove, Function.update_self, Option.bind_none]

theorem find_remove_of_ne (differ : other ≠ name) : (s.remove name).find other = s.find other := by
  simp only [find, names_remove, Function.update_of_ne differ]
  rfl

theorem names_create_self : (s.create name initial).names name = some s.objects.length := by
  simp only [create, Function.update_self]

/-- A name that is there stays when another is created. -/
theorem names_create_ne_none (there : s.names other ≠ none) :
    (s.create name initial).names other ≠ none := by
  by_cases same : other = name
  · rw [same, names_create_self]
    exact Option.some_ne_none _
  · simpa only [create, Function.update_of_ne same] using there

theorem find_create_self : (s.create name initial).find name = some initial := by
  simp [find, create, value]

theorem find_create_of_ne (differ : other ≠ name) :
    (s.create name initial).find other = s.find other := by
  simp only [find, create, Function.update_of_ne differ]
  cases there : s.names other with
  | none => rfl
  | some id =>
    simp only [Option.bind_some, value]
    exact List.getElem?_append_left (s.bound other id there)

omit [DecidableEq κ] in
theorem find_eq_none : s.find name = none ↔ s.names name = none := by
  unfold find
  cases there : s.names name with
  | none => simp
  | some id => simp [value, s.bound name id there]

/-- Whoever opens a name sees the value behind it, or the initial value. -/
theorem find_openOrCreate_self :
    (s.openOrCreate name initial).2.find name = some ((s.find name).getD initial) := by
  unfold openOrCreate
  cases there : s.names name with
  | none =>
    rw [find_eq_none.mpr there]
    exact find_create_self
  | some id =>
    have old := s.bound name id there
    simp [find, there, value, old]

theorem find_openOrCreate_of_ne (differ : other ≠ name) :
    (s.openOrCreate name initial).2.find other = s.find other := by
  unfold openOrCreate
  cases there : s.names name with
  | none => exact find_create_of_ne differ
  | some id => rfl

/-- Opening a name changes no other name. -/
theorem names_openOrCreate_of_ne (differ : other ≠ name) :
    (s.openOrCreate name initial).2.names other = s.names other := by
  unfold openOrCreate
  cases there : s.names name with
  | none => exact Function.update_of_ne differ _ _
  | some id => rfl

theorem createOnly_cases (s : Store κ ν) (name : κ) (initial : ν) :
    (s.names name = none ∧ s.createOnly name initial = some (s.create name initial)) ∨
      (s.names name ≠ none ∧ s.createOnly name initial = none) := by
  unfold createOnly
  cases s.names name with
  | none => exact Or.inl ⟨rfl, rfl⟩
  | some id => exact Or.inr ⟨Option.some_ne_none id, rfl⟩

omit [DecidableEq κ] in
theorem value_set_self {id : Nat} {old value : ν} (there : s.value id = some old) :
    (s.set id value).value id = some value := by
  simp only [set, Store.value]
  rw [List.getElem?_set_self (List.getElem?_eq_some_iff.mp there).1]

omit [DecidableEq κ] in
theorem value_set_of_ne {id id' : Nat} {value : ν} (differ : id ≠ id') :
    (s.set id' value).value id = s.value id := by
  simp only [set, Store.value]
  exact List.getElem?_set_ne (Ne.symm differ)

/-- An object keeps its value when another one is created. -/
theorem value_openOrCreate {id : Nat} {value : ν} (there : s.value id = some value) :
    (s.openOrCreate name initial).2.value id = some value := by
  unfold openOrCreate
  cases s.names name with
  | some _ => exact there
  | none =>
    simp only [create, Store.value]
    rw [List.getElem?_append_left (List.getElem?_eq_some_iff.mp there).1]
    exact there

theorem names_openOrCreate_self :
    (s.openOrCreate name initial).2.names name = some (s.openOrCreate name initial).1 := by
  unfold openOrCreate
  cases there : s.names name with
  | some id => exact there
  | none => exact names_create_self

/-- A name that is there keeps its object. -/
theorem names_openOrCreate {id : Nat} (there : s.names other = some id) :
    (s.openOrCreate name initial).2.names other = some id := by
  by_cases same : other = name
  · subst same
    simp only [openOrCreate, there]
  · rw [names_openOrCreate_of_ne same, there]

/-- A name that was not there has a new object behind it. -/
theorem names_openOrCreate_cases {id : Nat}
    (there : (s.openOrCreate name initial).2.names other = some id) :
    s.names other = some id ∨
      other = name ∧ id = s.objects.length ∧
        (s.openOrCreate name initial).2.value id = some initial := by
  by_cases same : other = name
  · subst same
    cases before : s.names other with
    | some id' =>
      simp only [openOrCreate, before] at there
      exact Or.inl there
    | none =>
      simp only [openOrCreate, before, names_create_self, Option.some.injEq] at there
      subst there
      exact Or.inr ⟨rfl, rfl, by simp [openOrCreate, before, create, Store.value]⟩
  · rw [names_openOrCreate_of_ne same] at there
    exact Or.inl there

theorem Separate.openOrCreate (h : s.Separate) :
    (s.openOrCreate name initial).2.Separate := by
  intro first second id there there'
  rcases names_openOrCreate_cases there with old | ⟨rfl, rfl, -⟩
  · rcases names_openOrCreate_cases there' with old' | ⟨rfl, rfl, -⟩
    · exact h first second id old old'
    · exact absurd (s.bound _ _ old) (Nat.lt_irrefl _)
  · rcases names_openOrCreate_cases there' with old' | ⟨rfl, -, -⟩
    · exact absurd (s.bound _ _ old') (Nat.lt_irrefl _)
    · rfl

end Store

end NamedObjects
