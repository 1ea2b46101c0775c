import FileTransfer.Common.FileDataTransferTask

/-!
# The receiving loop, and the signal of a failure

`BufferTransferTask::Run` (`BufferTransferTask.h:36`) over any data access and any writer, and
when the two tasks call `Stop` before they leave `Run` on a failure.
-/

namespace FileTransfer

namespace BufferTransferTask

/-- The calls of the `try` block. -/
inductive Pc where
  | isRunning
  | read
  | write (data : List UInt8)
  deriving DecidableEq

/-- The `try` block of `Run`, call by call. -/
def block : TryBlock Pc where
  method
    | .isRunning => .isRunning
    | .read => .read
    | .write _ => .write
  next
    | .isRunning, .isRunning running => if running then some .read else none
    | .read, .read data => if data = [] then some .isRunning else some (.write data)
    | .write _, _ => some .isRunning
    | _, _ => none
  next_stop := by
    intro pc stop
    cases pc <;> cases stop

/-- `Run`, for a writer that is set or not. -/
def start (writerSet : Bool) : TaskPc Pc :=
  TaskPc.start writerSet (ascii "Writer is not set.") .isRunning

def step : TaskPc Pc → Outcome → Option (TaskPc Pc) := TaskPc.step block

end BufferTransferTask

/-- For both tasks and every sequence of outcomes: `Run` does not leave on a failure without a
    call of `Stop`, if and only if its reader or writer is set and the exceptions of `Read`,
    `Write` and `IsRunning` are all `std::runtime_error`. -/
theorem failed_tasks_signal_iff (set : Bool) (outcomes : List Outcome) :
    (∀ pc, Transition.run FileDataTransferTask.step (FileDataTransferTask.start set) outcomes =
        some pc →
      (pc.Signals outcomes ↔ set = true ∧ OnlyRuntimeErrors outcomes)) ∧
    ∀ pc, Transition.run BufferTransferTask.step (BufferTransferTask.start set) outcomes =
        some pc →
      (pc.Signals outcomes ↔ set = true ∧ OnlyRuntimeErrors outcomes) := by
  constructor
  · intro pc run
    exact TaskPc.start_signals_iff run
  · intro pc run
    exact TaskPc.start_signals_iff run

/-- A sender whose second `Read` throws `std::runtime_error` signals; a receiver whose `IsRunning`
    throws `interprocess_exception` does not. -/
theorem failed_tasks_signal_small :
    (TaskPc.left none : TaskPc FileDataTransferTask.Pc).Signals
        [.returned (.read [7]), .returned .write, .threw .read (.runtimeError []),
          .returned .stop] ∧
      ¬ (TaskPc.left (some (.interprocessException [])) : TaskPc BufferTransferTask.Pc).Signals
        [.returned (.isRunning true), .returned (.read []),
          .threw .isRunning (.interprocessException [])] := by
  refine ⟨((failed_tasks_signal_iff true _).1 _ rfl).mpr ⟨rfl, ?_⟩, ?_⟩
  · simp [OnlyRuntimeErrors, Outcome.thrown, Thrown.isRuntimeError]
  · rw [(failed_tasks_signal_iff true _).2 _ rfl]
    simp [OnlyRuntimeErrors, Outcome.thrown, Outcome.method, Thrown.isRuntimeError]

/-- `Encrypt` throws `std::invalid_argument` out of the first `Read` of a sender, a semaphore throws
    `interprocess_exception` out of the first `IsRunning` of a receiver: neither calls `Stop`. -/
theorem unsignalled_failures :
    (¬ ∀ outcomes pc,
      Transition.run FileDataTransferTask.step (FileDataTransferTask.start true) outcomes =
        some pc → pc.Signals outcomes) ∧
    ¬ ∀ outcomes pc,
      Transition.run BufferTransferTask.step (BufferTransferTask.start true) outcomes =
        some pc → pc.Signals outcomes := by
  constructor
  · intro always
    have signals := always [.threw .read (.invalidArgument [])] _ rfl
    obtain ⟨outcome, member, stop⟩ := signals ⟨_, rfl, Or.inl (by decide)⟩
    rw [List.mem_singleton.mp member] at stop
    cases stop
  · intro always
    have signals := always [.threw .isRunning (.interprocessException [])] _ rfl
    obtain ⟨outcome, member, stop⟩ := signals ⟨_, rfl, Or.inl (by decide)⟩
    rw [List.mem_singleton.mp member] at stop
    cases stop

end FileTransfer
