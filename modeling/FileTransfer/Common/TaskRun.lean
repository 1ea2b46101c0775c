import FileTransfer.Lib.Transition

/-!
# A task with a `try` block

`FileDataTransferTask::Run` and `BufferTransferTask::Run` are a loop of calls on a data access, a
reader or a writer, in a `try` block whose only handler is for `std::runtime_error` and calls
`syncDataAccess_->Stop()`. Here a task is what it does after each call that returns, and a run is
the sequence of the ways in which its calls ended.
-/

namespace FileTransfer

/-- The exceptions that readers, writers and data accesses raise. The last two classes do not
    derive from `std::runtime_error`. -/
inductive Thrown where
  | runtimeError (what : List UInt8)
  | invalidArgument (what : List UInt8)
  /-- `boost::interprocess::interprocess_exception`. -/
  | interprocessException (what : List UInt8)
  deriving DecidableEq

/-- `catch (std::runtime_error& e)` takes the exception. -/
def Thrown.isRuntimeError : Thrown → Bool
  | .runtimeError _ => true
  | _ => false

/-- The calls that a task makes. -/
inductive Method where
  | read
  | write
  | isRunning
  | stop
  deriving DecidableEq

/-- A call that has returned, with what it returned. -/
inductive Reply where
  | read (data : List UInt8)
  | write
  | isRunning (running : Bool)
  | stop
  deriving DecidableEq

def Reply.method : Reply → Method
  | .read _ => .read
  | .write => .write
  | .isRunning _ => .isRunning
  | .stop => .stop

/-- How a call ended. -/
inductive Outcome where
  | returned (reply : Reply)
  | threw (method : Method) (e : Thrown)
  deriving DecidableEq

namespace Outcome

def method : Outcome → Method
  | .returned reply => reply.method
  | .threw method _ => method

def thrown : Outcome → Option Thrown
  | .returned _ => none
  | .threw _ e => some e

end Outcome

/-- What is in the `try` block: the call that the task is at, and what follows when it returns,
    another call or the end of the block. Nothing follows a `Stop`. -/
structure TryBlock (β : Type) where
  method : β → Method
  next : β → Reply → Option β
  next_stop : ∀ pc, method pc = .stop → ∀ reply, next pc reply = none

/-- Where a task is: at a call of the `try` block, at the `Stop` of the handler, or out of `Run`,
    which has returned or thrown. -/
inductive TaskPc (β : Type) where
  | inside (pc : β)
  | handling
  | left (thrown : Option Thrown)
  deriving DecidableEq

namespace TaskPc

variable {β : Type}

/-- `Run` up to the `try` block: a reader or writer that is null makes it throw. -/
def start (set : Bool) (what : List UInt8) (first : β) : TaskPc β :=
  if set then .inside first else .left (some (.invalidArgument what))

/-- An exception that leaves the `try` block: into the handler, or out of `Run`. -/
def raise (e : Thrown) : TaskPc β := if e.isRuntimeError then .handling else .left (some e)

/-- One call of `Run`. -/
def step (block : TryBlock β) : TaskPc β → Outcome → Option (TaskPc β)
  | .inside pc, .returned reply =>
    if reply.method = block.method pc then
      some (((block.next pc reply).map .inside).getD (.left none))
    else none
  | .inside pc, .threw method e => if method = block.method pc then some (raise e) else none
  | .handling, .returned .stop => some (.left none)
  | .handling, .threw .stop e => some (.left (some e))
  | _, _ => none

/-- `Run` has been left by an exception, or after one. -/
def FailedAfter (outcomes : List Outcome) (pc : TaskPc β) : Prop :=
  ∃ thrown, pc = .left thrown ∧
    (thrown ≠ none ∨ ∃ outcome ∈ outcomes, outcome.thrown ≠ none)

/-- A failed `Run` has called `Stop`. -/
def Signals (outcomes : List Outcome) (pc : TaskPc β) : Prop :=
  pc.FailedAfter outcomes → ∃ outcome ∈ outcomes, outcome.method = .stop

end TaskPc

/-- All that another call than `Stop` threw is a `std::runtime_error`. -/
def OnlyRuntimeErrors (outcomes : List Outcome) : Prop :=
  ∀ outcome ∈ outcomes, outcome.method ≠ .stop →
    ∀ e, outcome.thrown = some e → e.isRuntimeError = true

namespace TaskPc

variable {β : Type} {block : TryBlock β} {outcomes : List Outcome} {pc pc' : TaskPc β}

theorem run_left {result : Option Thrown}
    (run : Transition.run (step block) (.left result) outcomes = some pc') :
    outcomes = [] ∧ pc' = .left result := by
  cases outcomes with
  | nil =>
    cases run
    exact ⟨rfl, rfl⟩
  | cons outcome rest => cases run

/-- What a call of the `try` block leads to. -/
theorem step_inside {pc : β} {outcome : Outcome}
    (next : step block (.inside pc) outcome = some pc') :
    outcome.method = block.method pc ∧
      ((∃ reply, outcome = .returned reply ∧
          pc' = ((block.next pc reply).map .inside).getD (.left none)) ∨
        ∃ e, outcome.thrown = some e ∧ pc' = raise e) := by
  cases outcome with
  | returned reply =>
    simp only [step] at next
    by_cases same : reply.method = block.method pc
    · rw [if_pos same] at next
      exact ⟨same, Or.inl ⟨reply, rfl, (Option.some.inj next).symm⟩⟩
    · rw [if_neg same] at next
      cases next
  | threw method e =>
    simp only [step] at next
    by_cases same : method = block.method pc
    · rw [if_pos same] at next
      exact ⟨same, Or.inr ⟨e, rfl, (Option.some.inj next).symm⟩⟩
    · rw [if_neg same] at next
      cases next

/-- In the handler there is the `Stop`, and nothing else. -/
theorem run_handling (run : Transition.run (step block) .handling outcomes = some pc') :
    (outcomes = [] ∧ pc' = .handling) ∨
      ∃ outcome result, outcomes = [outcome] ∧ outcome.method = .stop ∧ pc' = .left result := by
  cases outcomes with
  | nil =>
    cases run
    exact Or.inl ⟨rfl, rfl⟩
  | cons outcome rest =>
    obtain ⟨pc₁, next, run⟩ := Option.bind_eq_some_iff.mp run
    unfold step at next
    split at next
    · rename_i handling
      cases handling
    · rename_i handling
      cases handling
    · cases next
      obtain ⟨rfl, rfl⟩ := run_left run
      exact Or.inr ⟨_, _, rfl, rfl, rfl⟩
    · cases next
      obtain ⟨rfl, rfl⟩ := run_left run
      exact Or.inr ⟨_, _, rfl, rfl, rfl⟩
    · cases next

/-- The handler signals. -/
theorem signals_handling {first : Outcome}
    (run : Transition.run (step block) .handling outcomes = some pc') :
    pc'.Signals (first :: outcomes) := by
  rcases run_handling run with ⟨rfl, rfl⟩ | ⟨outcome, result, rfl, stop, rfl⟩
  · rintro ⟨result, left, -⟩
    cases left
  · intro _
    exact ⟨outcome, by simp, stop⟩

theorem onlyRuntimeErrors_handling {first : Outcome} {e : Thrown} (thrown : first.thrown = some e)
    (runtime : e.isRuntimeError = true)
    (run : Transition.run (step block) .handling outcomes = some pc') :
    OnlyRuntimeErrors (first :: outcomes) := by
  intro outcome member other e' thrown'
  rcases List.mem_cons.mp member with rfl | later
  · rw [thrown] at thrown'
    cases thrown'
    exact runtime
  · rcases run_handling run with ⟨rfl, -⟩ | ⟨last, result, rfl, stop, -⟩
    · cases later
    · rw [List.mem_singleton.mp later] at other
      exact absurd stop other

/-- A call that returns and is not a `Stop` changes nothing about the signal. -/
theorem signals_cons {reply : Reply} (other : reply.method ≠ .stop) :
    pc'.Signals (.returned reply :: outcomes) ↔ pc'.Signals outcomes := by
  simp [Signals, FailedAfter, Outcome.thrown, Outcome.method, other]

theorem onlyRuntimeErrors_cons {reply : Reply} :
    OnlyRuntimeErrors (.returned reply :: outcomes) ↔ OnlyRuntimeErrors outcomes := by
  simp [OnlyRuntimeErrors, Outcome.thrown]

/-- From a call of the `try` block on, a failed `Run` has called `Stop` if and only if each
    exception of another call was a `std::runtime_error`. -/
theorem signals_iff (pc : β)
    (run : Transition.run (step block) (.inside pc) outcomes = some pc') :
    pc'.Signals outcomes ↔ OnlyRuntimeErrors outcomes := by
  induction outcomes generalizing pc with
  | nil =>
    cases run
    refine iff_of_true ?_ ?_
    · rintro ⟨result, left, -⟩
      cases left
    · intro outcome member
      cases member
  | cons first rest ih =>
    obtain ⟨pc₁, next, run⟩ := Option.bind_eq_some_iff.mp run
    obtain ⟨method, ⟨reply, rfl, rfl⟩ | ⟨e, thrown, rfl⟩⟩ := step_inside next
    · cases following : block.next pc reply with
      | some after =>
        rw [following] at run
        have other : reply.method ≠ .stop := by
          intro stop
          rw [block.next_stop pc (method.symm.trans stop)] at following
          cases following
        rw [signals_cons other, onlyRuntimeErrors_cons]
        exact ih after run
      | none =>
        rw [following] at run
        obtain ⟨rfl, rfl⟩ := run_left run
        simp [Signals, FailedAfter, OnlyRuntimeErrors, Outcome.thrown]
    · by_cases runtime : e.isRuntimeError = true
      · rw [raise, if_pos runtime] at run
        exact iff_of_true (signals_handling run) (onlyRuntimeErrors_handling thrown runtime run)
      · rw [raise, if_neg runtime] at run
        obtain ⟨rfl, rfl⟩ := run_left run
        -- Only where the call was itself a `Stop` has there been one.
        simp [Signals, FailedAfter, OnlyRuntimeErrors, thrown, runtime]

/-- `interprocess_exception` is not caught, neither in the `try` block nor in the handler. -/
theorem step_interprocess {outcome : Outcome} (next : step block pc outcome = some pc') :
    (∃ what, pc' = .left (some (.interprocessException what))) ↔
      ∃ method what, outcome = .threw method (.interprocessException what) := by
  unfold step at next
  split at next
  · rename_i pc reply
    split at next
    · cases next
      cases block.next pc reply <;> simp
    · cases next
  · rename_i method e
    split at next
    · cases next
      cases e <;> simp [raise, Thrown.isRuntimeError]
    · cases next
  · cases next
    simp
  · rename_i e
    cases next
    simp
  · cases next

/-- A run ends in an `interprocess_exception` when one was thrown in it. -/
theorem run_interprocess (inside : ∀ thrown, pc ≠ .left thrown)
    (run : Transition.run (step block) pc outcomes = some pc') :
    (∃ what, pc' = .left (some (.interprocessException what))) ↔
      ∃ method what, .threw method (.interprocessException what) ∈ outcomes := by
  induction outcomes generalizing pc with
  | nil =>
    cases run
    simp [inside]
  | cons first rest ih =>
    obtain ⟨pc₁, next, run⟩ := Option.bind_eq_some_iff.mp run
    have ended := step_interprocess next
    by_cases left : ∃ thrown, pc₁ = .left thrown
    · obtain ⟨thrown, rfl⟩ := left
      obtain ⟨rfl, rfl⟩ := run_left run
      simpa [eq_comm] using ended
    · rw [ih (fun thrown same => left ⟨thrown, same⟩) run]
      have returned : ¬ ∃ method what, first = .threw method (.interprocessException what) := by
        rw [← ended]
        rintro ⟨what, same⟩
        exact left ⟨_, same⟩
      constructor
      · rintro ⟨method, what, member⟩
        exact ⟨method, what, List.mem_cons_of_mem _ member⟩
      · rintro ⟨method, what, member⟩
        rcases List.mem_cons.mp member with same | later
        · exact absurd ⟨method, what, same.symm⟩ returned
        · exact ⟨method, what, later⟩

theorem start_signals_iff {set : Bool} {what : List UInt8} {first : β}
    (run : Transition.run (step block) (start set what first) outcomes = some pc') :
    pc'.Signals outcomes ↔ set = true ∧ OnlyRuntimeErrors outcomes := by
  cases set with
  | true =>
    rw [signals_iff first run]
    simp
  | false =>
    obtain ⟨rfl, rfl⟩ := run_left run
    simp [Signals, FailedAfter]

end TaskPc

end FileTransfer
