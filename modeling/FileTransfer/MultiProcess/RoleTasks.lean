import FileTransfer.Common.BufferTransferTask
import FileTransfer.MultiProcess.MultiProcessTask

/-!
# The two tasks of one process

`MultiProcessTask::Run` (`MultiProcessTask.cpp:59`) with the calls of its role tasks. The first
`try` block is around the creation of the client mutex and `writer_->Run()`, the second around the
creation of the server mutex and `reader_->Run()`, and both handlers are for
`interprocess_exception`, whoever threw it.
-/

namespace FileTransfer.MultiProcessTask.RoleTasks

/-- How the creation of a named mutex ends, `create_only`. -/
inductive Creation where
  | created
  /-- `interprocess_exception` with `already_exists_error`. -/
  | alreadyExists
  /-- `interprocess_exception` for another reason. -/
  | failed
  deriving DecidableEq

/-- What happens in `Run`: a mutex is created or not, or a call of the role task ends. -/
inductive Event where
  | client (creation : Creation)
  | server (creation : Creation)
  | task (outcome : Outcome)
  deriving DecidableEq

/-- What `Run` throws. -/
inductive RunFault where
  /-- `std::runtime_error("Server already exist.\n")`. -/
  | serverExists
  | thrown (e : Thrown)
  deriving DecidableEq

inductive RunPc where
  | clientMutex
  /-- In `writer_->Run()`. -/
  | writer (pc : TaskPc BufferTransferTask.Pc)
  | serverMutex
  /-- In `reader_->Run()`. -/
  | reader (pc : TaskPc FileDataTransferTask.Pc)
  | left (thrown : Option RunFault)
  deriving DecidableEq

/-- Where `Run` is, and the tasks it has run. -/
structure RunState where
  pc : RunPc
  executed : List Task
  deriving DecidableEq

def start : RunState := { pc := .clientMutex, executed := [] }

/-- `writer_->Run()` has returned or thrown: an `interprocess_exception` is taken for that of the
    client mutex. -/
def afterWriter : Option Thrown → RunPc
  | none => .left none
  | some (.interprocessException _) => .serverMutex
  | some e => .left (some (.thrown e))

/-- `reader_->Run()` has returned or thrown: an `interprocess_exception` is taken for that of the
    server mutex. -/
def afterReader : Option Thrown → RunPc
  | none => .left none
  | some (.interprocessException _) => .left (some .serverExists)
  | some e => .left (some (.thrown e))

def inWriter : TaskPc BufferTransferTask.Pc → RunPc
  | .left thrown => afterWriter thrown
  | .inside pc => .writer (.inside pc)
  | .handling => .writer .handling

def inReader : TaskPc FileDataTransferTask.Pc → RunPc
  | .left thrown => afterReader thrown
  | .inside pc => .reader (.inside pc)
  | .handling => .reader .handling

/-- `Run`, event by event. `Create` has set both tasks. -/
def step (s : RunState) (event : Event) : Option RunState :=
  match s.pc, event with
  | .clientMutex, .client .created =>
    some { pc := inWriter (BufferTransferTask.start true), executed := s.executed ++ [.writer] }
  | .clientMutex, .client _ => some { s with pc := .serverMutex }
  | .writer pc, .task outcome =>
    (BufferTransferTask.step pc outcome).map fun pc => { s with pc := inWriter pc }
  | .serverMutex, .server .created =>
    some { pc := inReader (FileDataTransferTask.start true), executed := s.executed ++ [.reader] }
  | .serverMutex, .server _ => some { s with pc := .left (some .serverExists) }
  | .reader pc, .task outcome =>
    (FileDataTransferTask.step pc outcome).map fun pc => { s with pc := inReader pc }
  | _, _ => none

/-- One task at most has been run, and `Server already exist` says that the name of the server
    mutex was there. -/
def OneRole (events : List Event) (s : RunState) : Prop :=
  s.executed.length ≤ 1 ∧
    (s.pc = .left (some .serverExists) → .server .alreadyExists ∈ events)

/-- A call of a role task threw `interprocess_exception`. -/
def RaisesInterprocess (events : List Event) : Prop :=
  ∃ method what, .task (.threw method (.interprocessException what)) ∈ events

/-- The server mutex is not created in a run in which a role task raises `interprocess_exception`,
    and its creation does not fail for another reason than its name. -/
def Distinguished (events : List Event) : Prop :=
  .server .failed ∉ events ∧ (RaisesInterprocess events → .server .created ∉ events)

variable {s s' : RunState} {events : List Event} {executed : List Task}

theorem run_left {thrown : Option RunFault}
    (run : Transition.run step { pc := .left thrown, executed } events = some s) :
    events = [] ∧ s = { pc := .left thrown, executed } := by
  cases events with
  | nil =>
    cases run
    exact ⟨rfl, rfl⟩
  | cons event rest => cases run

/-- In a task there are its calls. -/
theorem step_of_reader {pc : TaskPc FileDataTransferTask.Pc} {event : Event}
    (next : step { pc := .reader pc, executed } event = some s) :
    ∃ outcome pc', event = .task outcome ∧ FileDataTransferTask.step pc outcome = some pc' ∧
      s = { pc := inReader pc', executed } := by
  cases event with
  | client creation => cases next
  | server creation => cases next
  | task outcome =>
    obtain ⟨pc', moved, rfl⟩ := Option.map_eq_some_iff.mp next
    exact ⟨outcome, pc', rfl, moved, rfl⟩

theorem step_of_writer {pc : TaskPc BufferTransferTask.Pc} {event : Event}
    (next : step { pc := .writer pc, executed } event = some s) :
    ∃ outcome pc', event = .task outcome ∧ BufferTransferTask.step pc outcome = some pc' ∧
      s = { pc := inWriter pc', executed } := by
  cases event with
  | client creation => cases next
  | server creation => cases next
  | task outcome =>
    obtain ⟨pc', moved, rfl⟩ := Option.map_eq_some_iff.mp next
    exact ⟨outcome, pc', rfl, moved, rfl⟩

theorem step_reader {pc : TaskPc FileDataTransferTask.Pc} {event : Event}
    (next : step { pc := inReader pc, executed } event = some s) :
    ∃ outcome pc', event = .task outcome ∧ FileDataTransferTask.step pc outcome = some pc' ∧
      s = { pc := inReader pc', executed } := by
  cases pc with
  | left thrown =>
    have out : ∃ fault, inReader (.left thrown) = .left fault := by
      cases thrown with
      | none => exact ⟨_, rfl⟩
      | some e => cases e <;> exact ⟨_, rfl⟩
    obtain ⟨fault, out⟩ := out
    rw [out] at next
    cases next
  | inside p => exact step_of_reader next
  | handling => exact step_of_reader next

/-- In `reader_->Run()` there are the calls of the task. -/
theorem run_reader {pc : TaskPc FileDataTransferTask.Pc}
    (run : Transition.run step { pc := inReader pc, executed } events = some s) :
    ∃ outcomes pc', events = outcomes.map .task ∧
      Transition.run FileDataTransferTask.step pc outcomes = some pc' ∧
      s = { pc := inReader pc', executed } := by
  induction events generalizing pc with
  | nil =>
    cases run
    exact ⟨[], pc, rfl, rfl, rfl⟩
  | cons event rest ih =>
    obtain ⟨s₁, next, run⟩ := Option.bind_eq_some_iff.mp run
    obtain ⟨outcome, pc₁, rfl, moved, rfl⟩ := step_reader next
    obtain ⟨outcomes, pc', rfl, taken, rfl⟩ := ih run
    refine ⟨outcome :: outcomes, pc', rfl, ?_, rfl⟩
    rw [Transition.run, moved]
    exact taken

/-- From the creation of the server mutex on. -/
theorem run_serverMutex
    (run : Transition.run step { pc := .serverMutex, executed } events = some s) :
    (events = [] ∧ s = { pc := .serverMutex, executed }) ∨
      (∃ creation, creation ≠ .created ∧ events = [.server creation] ∧
        s = { pc := .left (some .serverExists), executed }) ∨
      ∃ outcomes pc, events = .server .created :: outcomes.map .task ∧
        Transition.run FileDataTransferTask.step (FileDataTransferTask.start true) outcomes =
          some pc ∧
        s = { pc := inReader pc, executed := executed ++ [.reader] } := by
  cases events with
  | nil =>
    cases run
    exact Or.inl ⟨rfl, rfl⟩
  | cons event rest =>
    obtain ⟨s₁, next, run⟩ := Option.bind_eq_some_iff.mp run
    cases event with
    | client creation => cases next
    | task outcome => cases next
    | server creation =>
      cases creation with
      | created =>
        cases next
        obtain ⟨outcomes, pc, rfl, taken, rfl⟩ := run_reader run
        exact Or.inr (Or.inr ⟨outcomes, pc, rfl, taken, rfl⟩)
      | alreadyExists =>
        cases next
        obtain ⟨rfl, rfl⟩ := run_left run
        exact Or.inr (Or.inl ⟨.alreadyExists, by decide, rfl, rfl⟩)
      | failed =>
        cases next
        obtain ⟨rfl, rfl⟩ := run_left run
        exact Or.inr (Or.inl ⟨.failed, by decide, rfl, rfl⟩)

theorem step_writer {pc : TaskPc BufferTransferTask.Pc} {event : Event}
    (inside : ∀ thrown, pc ≠ .left thrown)
    (next : step { pc := inWriter pc, executed } event = some s) :
    ∃ outcome pc', event = .task outcome ∧ BufferTransferTask.step pc outcome = some pc' ∧
      s = { pc := inWriter pc', executed } := by
  cases pc with
  | left thrown => exact absurd rfl (inside thrown)
  | inside p => exact step_of_writer next
  | handling => exact step_of_writer next

/-- From `writer_->Run()` on there are the calls of the task, and the creation of the server mutex
    where an `interprocess_exception` has left the task. -/
theorem run_writer {pc : TaskPc BufferTransferTask.Pc}
    (run : Transition.run step { pc := inWriter pc, executed } events = some s) :
    ∃ outcomes pc' rest, events = outcomes.map .task ++ rest ∧
      Transition.run BufferTransferTask.step pc outcomes = some pc' ∧
      ((rest = [] ∧ s = { pc := inWriter pc', executed }) ∨
        (∃ what, pc' = .left (some (.interprocessException what))) ∧
          Transition.run step { pc := .serverMutex, executed } rest = some s) := by
  induction events generalizing pc with
  | nil =>
    cases run
    exact ⟨[], pc, [], rfl, rfl, Or.inl ⟨rfl, rfl⟩⟩
  | cons event rest ih =>
    by_cases left : ∃ thrown, pc = .left thrown
    · obtain ⟨thrown, rfl⟩ := left
      refine ⟨[], .left thrown, event :: rest, rfl, rfl, ?_⟩
      have out : (∃ what, thrown = some (.interprocessException what)) ∨
          ∃ fault, inWriter (.left thrown) = .left fault := by
        cases thrown with
        | none => exact Or.inr ⟨_, rfl⟩
        | some e =>
          cases e with
          | runtimeError what => exact Or.inr ⟨_, rfl⟩
          | invalidArgument what => exact Or.inr ⟨_, rfl⟩
          | interprocessException what => exact Or.inl ⟨what, rfl⟩
      rcases out with ⟨what, rfl⟩ | ⟨fault, out⟩
      · exact Or.inr ⟨⟨what, rfl⟩, run⟩
      · rw [out] at run
        obtain ⟨none, -⟩ := run_left run
        cases none
    · obtain ⟨s₁, next, run⟩ := Option.bind_eq_some_iff.mp run
      obtain ⟨outcome, pc₁, rfl, moved, rfl⟩ :=
        step_writer (fun thrown same => left ⟨thrown, same⟩) next
      obtain ⟨outcomes, pc', later, rfl, taken, ended⟩ := ih run
      refine ⟨outcome :: outcomes, pc', later, rfl, ?_, ended⟩
      rw [Transition.run, moved]
      exact taken

theorem inWriter_ne (pc : TaskPc BufferTransferTask.Pc) :
    inWriter pc ≠ .left (some .serverExists) := by
  cases pc with
  | inside p => simp [inWriter]
  | handling => simp [inWriter]
  | left thrown =>
    cases thrown with
    | none => simp [inWriter, afterWriter]
    | some e => cases e <;> simp [inWriter, afterWriter]

/-- `Server already exist` after the start of the task: an exception of the task. -/
theorem inReader_serverExists (pc : TaskPc FileDataTransferTask.Pc) :
    inReader pc = .left (some .serverExists) ↔
      ∃ what, pc = .left (some (.interprocessException what)) := by
  cases pc with
  | inside p => simp [inReader]
  | handling => simp [inReader]
  | left thrown =>
    cases thrown with
    | none => simp [inReader, afterReader]
    | some e => cases e <;> simp [inReader, afterReader]

theorem raisesInterprocess_tasks {outcomes : List Outcome} :
    RaisesInterprocess (outcomes.map .task) ↔
      ∃ method what, .threw method (.interprocessException what) ∈ outcomes := by
  simp [RaisesInterprocess]

/-- A process that has not run `writer_`. -/
theorem server_only_iff (creation : Creation)
    (run : Transition.run step { pc := .serverMutex, executed := [] } events = some s) :
    OneRole (.client creation :: events) s ↔ Distinguished (.client creation :: events) := by
  rcases run_serverMutex run with ⟨rfl, rfl⟩ | ⟨refusal, other, rfl, rfl⟩ |
    ⟨outcomes, pc, rfl, taken, rfl⟩
  · simp [OneRole, Distinguished]
  · cases refusal with
    | created => exact absurd rfl other
    | alreadyExists => simp [OneRole, Distinguished]
    | failed => simp [OneRole, Distinguished]
  · have raised := TaskPc.run_interprocess (by
      intro thrown same
      cases same) taken
    rw [← inReader_serverExists, ← raisesInterprocess_tasks] at raised
    -- The creation succeeded, so that the error could come from the task alone.
    have role : OneRole (.client creation :: .server .created :: outcomes.map .task)
        { pc := inReader pc, executed := [.reader] } ↔
          inReader pc ≠ .left (some .serverExists) := by
      simp [OneRole]
    have told : Distinguished (.client creation :: .server .created :: outcomes.map .task) ↔
        ¬ RaisesInterprocess (outcomes.map .task) := by
      simp [Distinguished, RaisesInterprocess]
    rw [List.nil_append, role, told, ← raised]

/-- A process that an `interprocess_exception` has made leave `writer_`. -/
theorem after_writer_iff {outcomes : List Outcome}
    (raised : RaisesInterprocess (outcomes.map .task))
    (run : Transition.run step { pc := .serverMutex, executed := [.writer] } events = some s) :
    OneRole (.client .created :: (outcomes.map .task ++ events)) s ↔
      Distinguished (.client .created :: (outcomes.map .task ++ events)) := by
  rcases run_serverMutex run with ⟨rfl, rfl⟩ | ⟨refusal, other, rfl, rfl⟩ |
    ⟨later, pc, rfl, taken, rfl⟩
  · simp [OneRole, Distinguished]
  · cases refusal with
    | created => exact absurd rfl other
    | alreadyExists => simp [OneRole, Distinguished]
    | failed => simp [OneRole, Distinguished]
  · obtain ⟨method, what, member⟩ := raised
    refine iff_of_false ?_ ?_
    · rintro ⟨one, -⟩
      simp at one
    · rintro ⟨-, untouched⟩
      refine untouched ⟨method, what, ?_⟩ (by simp)
      exact List.mem_cons_of_mem _ (List.mem_append_left _ member)

/-- In every run, with any outcomes of the role tasks: one of the two tasks at most is run, and
    `Server already exist` is thrown only for the name of the server mutex, if and only if the
    creation of that mutex fails for no other reason, and it does not succeed in a run in which a
    role task raises `interprocess_exception`. -/
theorem one_role_iff (events : List Event) (s : RunState)
    (run : Transition.run step start events = some s) :
    OneRole events s ↔ Distinguished events := by
  cases events with
  | nil =>
    cases run
    simp [OneRole, Distinguished, start]
  | cons first rest =>
    obtain ⟨s₁, next, run⟩ := Option.bind_eq_some_iff.mp run
    cases first with
    | server creation => cases next
    | task outcome => cases next
    | client creation =>
      cases creation with
      | alreadyExists =>
        cases next
        exact server_only_iff _ run
      | failed =>
        cases next
        exact server_only_iff _ run
      | created =>
        cases next
        obtain ⟨outcomes, pc, later, rfl, taken, ⟨rfl, rfl⟩ | ⟨ended, run⟩⟩ := run_writer run
        · simp [OneRole, Distinguished, start, inWriter_ne]
        · have raised := TaskPc.run_interprocess (by
            intro thrown same
            cases same) taken
          rw [← raisesInterprocess_tasks] at raised
          exact after_writer_iff (raised.mp ended) run

/-- A client leaves its task by an `interprocess_exception` and finds a server running. -/
theorem one_role_small :
    OneRole [.client .created, .task (.threw .isRunning (.interprocessException [])),
      .server .alreadyExists] { pc := .left (some .serverExists), executed := [.writer] } := by
  refine (one_role_iff _ _ rfl).mpr ⟨by decide, ?_⟩
  intro _
  decide

/-- A client whose semaphore throws goes on as server. -/
theorem both_roles : ¬ ∀ events s, Transition.run step start events = some s →
    OneRole events s := by
  intro always
  have roles := always [.client .created, .task (.threw .isRunning (.interprocessException [])),
    .server .created] _ rfl
  exact absurd roles.1 (by decide)

end FileTransfer.MultiProcessTask.RoleTasks
