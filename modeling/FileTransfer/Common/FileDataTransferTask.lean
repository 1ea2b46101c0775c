import FileTransfer.Common.Encryption
import FileTransfer.Common.TaskRun
import Mathlib.Data.List.Basic

/-!
# The sending loop

`FileDataTransferTask::Run` (`FileDataTransferTask.h:36`) over any reader and any data access.
The reader belongs to the thread that runs the loop, so all that others see of the loop is
the sequence of calls it makes on its `IWriteDataAccess`. `block` has each call and what it
may throw; `loop` is what is left over a reader and a data access that do not throw.
-/

namespace FileTransfer

/-- A call on an `IWriteDataAccess`. -/
inductive Call where
  | write (data : List UInt8)
  | stop
  deriving DecidableEq

namespace FileDataTransferTask

universe u

variable {ρ : Type u}

/-- The `try` block of `Run`: write what `Read` returns until it returns an empty span, then
    stop. `none` when the loop has not ended after `fuel` reads. -/
def loop (read : ρ → List UInt8 × ρ) : Nat → ρ → Option (List Call × ρ)
  | 0, _ => none
  | fuel + 1, reader =>
    let (data, reader) := read reader
    if data = [] then some ([.stop], reader)
    else (loop read fuel reader).map fun (calls, last) => (.write data :: calls, last)

/-- The calls that hand over the given chunks. -/
def callsFor (chunks : List (List UInt8)) : List Call := chunks.map .write ++ [.stop]

theorem callsFor_ne_nil {chunks : List (List UInt8)} : callsFor chunks ≠ [] := by
  simp [callsFor]

/-- The calls of the `try` block. -/
inductive Pc where
  | read
  | write (data : List UInt8)
  | stop
  deriving DecidableEq

/-- The `try` block of `Run`, call by call. -/
def block : TryBlock Pc where
  method
    | .read => .read
    | .write _ => .write
    | .stop => .stop
  next
    | .read, .read data => if data = [] then some .stop else some (.write data)
    | .write _, _ => some .read
    | _, _ => none
  next_stop := by
    intro pc stop reply
    cases pc with
    | read => cases stop
    | write data => cases stop
    | stop => rfl

/-- `Run`, for a reader that is set or not. -/
def start (readerSet : Bool) : TaskPc Pc :=
  TaskPc.start readerSet (ascii "Reader is not set.") .read

def step : TaskPc Pc → Outcome → Option (TaskPc Pc) := TaskPc.step block

/-- How the calls of a run end in which nothing throws and `Read` delivers these chunks. -/
def outcomesFor : List (List UInt8) → List Outcome
  | [] => [.returned (.read []), .returned .stop]
  | chunk :: chunks => .returned (.read chunk) :: .returned .write :: outcomesFor chunks

/-- Where nothing throws, `Run` hands over what `Read` delivers and returns. -/
theorem run_outcomesFor {chunks : List (List UInt8)} (filled : ∀ chunk ∈ chunks, chunk ≠ []) :
    Transition.run step (start true) (outcomesFor chunks) = some (.left none) := by
  induction chunks with
  | nil => rfl
  | cons chunk chunks ih =>
    have first : step (start true) (.returned (.read chunk)) = some (.inside (.write chunk)) := by
      simp [start, TaskPc.start, step, TaskPc.step, block, Reply.method,
        filled chunk List.mem_cons_self]
    rw [outcomesFor, Transition.run, first]
    exact ih fun other member => filled other (List.mem_cons_of_mem _ member)

end FileDataTransferTask

end FileTransfer
