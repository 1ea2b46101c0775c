import Mathlib.Logic.Function.Basic

/-!
# An inbox

What a receiver of named contents keeps for one sender. A message either names what follows, which
begins anew under that name, or adds to what was named last. Names and items are of any type.
-/

universe u v

/-- The contents that have been received, and the name that what comes next belongs to. -/
structure Inbox (ν : Type u) (α : Type v) where
  contents : ν → Option (List α)
  current : Option ν

namespace Inbox

inductive Message (ν : Type u) (α : Type v) where
  | name (name : ν)
  | data (items : List α)

variable {ν : Type u} {α : Type v} [DecidableEq ν]

/-- One message. What is not named by any is dropped. -/
def take (box : Inbox ν α) : Message ν α → Inbox ν α
  | .name name => { contents := Function.update box.contents name (some []), current := some name }
  | .data items =>
    match box.current with
    | none => box
    | some name =>
      { box with
        contents := Function.update box.contents name ((box.contents name).map (· ++ items)) }

/-- The messages of a sender, in their order. -/
def receive (box : Inbox ν α) (messages : List (Message ν α)) : Inbox ν α :=
  messages.foldl take box

variable {box : Inbox ν α} {name : ν}

@[simp] theorem receive_nil : box.receive [] = box := rfl

@[simp] theorem receive_cons (message : Message ν α) (rest : List (Message ν α)) :
    box.receive (message :: rest) = (box.take message).receive rest := rfl

theorem receive_append (messages rest : List (Message ν α)) :
    box.receive (messages ++ rest) = (box.receive messages).receive rest :=
  List.foldl_append

theorem take_data {items content : List α} (named : box.current = some name)
    (there : box.contents name = some content) :
    box.take (.data items) =
      { box with contents := Function.update box.contents name (some (content ++ items)) } := by
  simp only [take, named, there, Option.map_some]

/-- What is named last gets all that comes, and nothing else changes. -/
theorem receive_data (named : box.current = some name) (chunks : List (List α)) :
    ∀ content, box.contents name = some content →
      box.receive (chunks.map .data) =
        { box with
          contents := Function.update box.contents name (some (content ++ chunks.flatten)) } := by
  induction chunks generalizing box with
  | nil =>
    intro content there
    simp only [List.map_nil, receive_nil, List.flatten_nil, List.append_nil]
    rw [← there, Function.update_eq_self]
  | cons chunk chunks ih =>
    intro content there
    rw [List.map_cons, receive_cons, take_data named there]
    rw [@ih { box with contents := Function.update box.contents name (some (content ++ chunk)) }
      named _ (Function.update_self ..)]
    simp only [Function.update_idem, List.flatten_cons, List.append_assoc]

/-- A name and what follows it. -/
theorem receive_upload (box : Inbox ν α) (name : ν) (chunks : List (List α)) :
    box.receive (.name name :: chunks.map .data) =
      { contents := Function.update box.contents name (some chunks.flatten)
        current := some name } := by
  rw [receive_cons, receive_data rfl chunks [] (Function.update_self ..)]
  simp only [take, Function.update_idem, List.nil_append]

end Inbox
