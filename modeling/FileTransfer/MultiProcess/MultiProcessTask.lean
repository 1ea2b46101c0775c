import FileTransfer.FileStream.FileDataWriter
import FileTransfer.Lib.NamedObjects
import FileTransfer.MultiProcess.Protocol

/-!
# Processes in multi-process mode

Any number of processes, each somewhere in `MultiProcessTask::Create`, in `Run`, in the
destructors after it or in `SignalHandler` (`MultiProcessTask.cpp`). They share the names of two
mutexes, of three semaphores and of the shared memory, and the file system.

The process that creates the client mutex runs `writer_`, which reads the shared memory and
writes the destination; the one that creates the server mutex runs `reader_`, which reads the
source and writes the shared memory.
-/

namespace FileTransfer.MultiProcessTask

open Posix NamedObjects

/-- `mutexClientName` and `mutexServerName`. -/
inductive Mutex where
  | client
  | server
  deriving DecidableEq

/-- The three semaphore names (`SharedWriteDataAccess.h:20`). -/
inductive Semaphore where
  | stop
  | dataAvailable
  | spaceAvailable
  deriving DecidableEq

/-- The count that `open_or_create` gives a new semaphore. -/
def Semaphore.initial : Semaphore → Nat
  | .stop => 0
  | .dataAvailable => 0
  | .spaceAvailable => 1

/-- `SCommand` (`Config.h:48`), as far as multi-process mode reads it. -/
structure SCommand where
  sources : Option (List Path)
  dest : Option Path
  sharedMemory : Option Path

/-- What is thrown on the way. -/
inductive StartFault where
  | logicError (what : List UInt8)
  | badOptionalAccess
  | fault (fault : Fault)
  deriving DecidableEq

/-- The system the processes run on: the files that may be opened, the shared-memory names that
    it takes, and the size of a page. -/
structure Platform where
  host : Host
  permitsMemory : Path → Bool
  page : Nat

/-- What the processes share. -/
structure System where
  mutexes : Store Mutex Unit
  semaphores : Store Semaphore Nat
  memory : Store Path (List UInt8)
  files : FileSystem

/-- A platform that refuses nothing. -/
def Platform.permissive (currentPath : Path) : Platform :=
  { host := .permissive currentPath, permitsMemory := fun _ => true, page := 4096 }

/-- No name has been created. -/
def System.fresh (files : FileSystem) : System :=
  { mutexes := .empty, semaphores := .empty, memory := .empty, files }

/-- `instance->reader_` and `instance->writer_`. -/
inductive Task where
  | reader
  | writer
  deriving DecidableEq

/-- What the data access of a task and its handler have open: `SharedWriteDataAccess` with
    `SharedWriteDataHandler`, or `SharedReadDataAccess` with `SharedReadDataHandler`. -/
structure Access where
  semaphores : Semaphore → Option Nat
  memory : Option Nat

/-- What `Create` does, in this order. -/
inductive Build where
  | checkSources
  | openMemory (task : Task)
  | openSemaphore (task : Task) (name : Semaphore)
  | openSource
  | openDest
  deriving DecidableEq

/-- What the destructors and the handler of SIGINT do. -/
inductive Clean where
  | removeMutex (mutex : Mutex)
  | removeSemaphore (name : Semaphore)
  | removeMemory
  deriving DecidableEq

/-- `MultiProcessTask::Cleaner` (`MultiProcessTask.cpp:41`). -/
def cleaner : List Clean := [.removeMutex .client, .removeMutex .server]

/-- `SharedWriteDataAccess::Cleaner` (`SharedWriteDataAccess.h:54`), or that of
    `SharedReadDataAccess`, then the destructor of the handler. -/
def accessCleaner : List Clean :=
  [.removeSemaphore .stop, .removeSemaphore .dataAvailable, .removeSemaphore .spaceAvailable,
    .removeMemory]

/-- The destructor of a whole `MultiProcessTask`: its body, then `writer_`, then `reader_`. -/
def destructor : List Clean := cleaner ++ accessCleaner ++ accessCleaner

/-- The constructor of a data access, with what has to be unwound when it throws: the handler,
    and what was built before it. -/
def buildAccess (task : Task) (before : List Clean) : List (Build × List Clean) :=
  [(.openMemory task, before),
    (.openSemaphore task .stop, .removeMemory :: before),
    (.openSemaphore task .dataAvailable, .removeMemory :: before),
    (.openSemaphore task .spaceAvailable, .removeMemory :: before)]

/-- `Create` (`MultiProcessTask.cpp:48`), each step with what unwinding does when it throws. -/
def create : List (Build × List Clean) :=
  (.checkSources, cleaner) :: buildAccess .reader cleaner ++
    [(.openSource, accessCleaner ++ cleaner)] ++
    buildAccess .writer (cleaner ++ accessCleaner) ++
    [(.openDest, accessCleaner ++ cleaner ++ accessCleaner)]

/-- Where a process is. -/
inductive Pc where
  | creating (rest : List (Build × List Clean))
  /-- At the creation of the client mutex, and in `writer_->Run()`. -/
  | tryClient
  | client (pc : MultiProcess.ReceiverPc)
  /-- At the creation of the server mutex, and in `reader_->Run()`. -/
  | tryServer
  | server (pc : MultiProcess.SenderPc)
  /-- In destructors, with what the process ends with after them. -/
  | cleaning (rest : List Clean) (result : Except StartFault Unit)
  /-- In `SignalHandler`. -/
  | signalled (rest : List Clean)
  | ended (result : Except StartFault Unit)
  /-- `std::exit(0)`. -/
  | exited

/-- A process: its command, what its tasks have open, the calls that its `reader_` would make
    on the data access, and the writer of its destination. -/
structure Process where
  command : SCommand
  access : Task → Access
  calls : List Call
  dest : Option FileDataWriter
  pc : Pc

/-- A process at the start of `Create`. -/
def Process.start (command : SCommand) : Process :=
  { command, access := fun _ => { semaphores := fun _ => none, memory := none }, calls := [],
    dest := none, pc := .creating create }

/-- A task of the process has more open. -/
def Process.open (p : Process) (task : Task) (f : Access → Access) : Process :=
  { p with access := Function.update p.access task (f (p.access task)) }

/-- The calls of the sending loop over a reader that has just been opened. -/
def callsOf (reader : FileDataReader) : List Call :=
  ((FileDataTransferTask.loop FileDataReader.read (reader.stream.remaining.length + 1)
    reader).map Prod.fst).getD []

/-- The first source. -/
def SCommand.source (command : SCommand) : Option Path := command.sources.bind List.head?

/-- `open_or_create` of a semaphore. -/
def openSemaphore (task : Task) (name : Semaphore) (sys : System) (p : Process) :
    System × Process :=
  let (id, semaphores) := sys.semaphores.openOrCreate name name.initial
  ({ sys with semaphores }, p.open task fun access =>
    { access with semaphores := Function.update access.semaphores name (some id) })

/-- One step of `Create`. -/
def perform (platform : Platform) (sys : System) (p : Process) :
    Build → System × Except StartFault Process
  | .checkSources =>
    if p.command.source = none then
      (sys, .error (.logicError (ascii "Source file name is not set")))
    else (sys, .ok p)
  | .openMemory task =>
    match p.command.sharedMemory with
    | none => (sys, .error .badOptionalAccess)
    | some name =>
      if platform.permitsMemory (cString name) then
        let (id, memory) := sys.memory.openOrCreate (cString name) []
        ({ sys with memory }, .ok (p.open task fun access => { access with memory := some id }))
      else
        (sys, .error (.fault (.runtimeError
          (ascii "Error: Could not create or open shared memory.\n"))))
  | .openSemaphore task name =>
    let (sys, p) := openSemaphore task name sys p
    (sys, .ok p)
  -- `checkSources` has seen that there is a source.
  | .openSource =>
    match FileDataReader.open platform.host sys.files (p.command.source.getD [])
        defaultChunkSize with
    | .ok reader => (sys, .ok { p with calls := callsOf reader })
    | .error fault => (sys, .error (.fault fault))
  | .openDest =>
    match p.command.dest with
    | none => (sys, .error .badOptionalAccess)
    | some dest =>
      match FileDataWriter.create platform.host sys.files dest [] with
      | (.ok writer, files) => ({ sys with files }, .ok { p with dest := some writer })
      | (.error fault, files) => ({ sys with files }, .error (.fault fault))

/-- The shared-memory name is set, and can be opened or created. -/
def opensMemory (platform : Platform) (command : SCommand) : Bool :=
  command.sharedMemory.any fun name => platform.permitsMemory (cString name)

/-- The source can be opened. -/
def opensSource (platform : Platform) (files : FileSystem) (command : SCommand) : Bool :=
  (files.openInput platform.host (command.source.getD [])).isSome

/-- The destination is set, and can be opened. -/
def opensDest (platform : Platform) (files : FileSystem) (command : SCommand) : Bool :=
  command.dest.any fun dest => files.canOpen platform.host dest

/-- Whether a step of `Create` succeeds. -/
def succeeds (platform : Platform) (files : FileSystem) (command : SCommand) : Build → Bool
  | .checkSources => command.source.isSome
  | .openMemory _ => opensMemory platform command
  | .openSemaphore _ _ => true
  | .openSource => opensSource platform files command
  | .openDest => opensDest platform files command

/-- `open_or_create` of a semaphore is taken not to throw; every other step of `Create` may. -/
def Build.mayThrow : Build → Bool
  | .openSemaphore _ _ => false
  | _ => true

/-- Whether a step of `Create` may create a name. -/
def Build.opensName : Build → Bool
  | .openMemory _ => true
  | .openSemaphore _ _ => true
  | _ => false

/-- One removal. -/
def clean (command : SCommand) (sys : System) : Clean → System
  | .removeMutex mutex => { sys with mutexes := sys.mutexes.remove mutex }
  | .removeSemaphore name => { sys with semaphores := sys.semaphores.remove name }
  | .removeMemory =>
    match command.sharedMemory with
    | none => sys
    | some name => { sys with memory := sys.memory.remove (cString name) }

/-- A step of the protocol, on the objects that a task has open. -/
def within (sys : System) (access : Access)
    (f : MultiProcess.State → Option MultiProcess.State) (s : MultiProcess.State) :
    Option (System × MultiProcess.State) := do
  let stop ← access.semaphores .stop
  let dataAvailable ← access.semaphores .dataAvailable
  let spaceAvailable ← access.semaphores .spaceAvailable
  let memory ← access.memory
  let s ← f { s with
    stop := ← sys.semaphores.value stop
    data := ← sys.semaphores.value dataAvailable
    space := ← sys.semaphores.value spaceAvailable
    memory := ← sys.memory.value memory }
  let semaphores := ((sys.semaphores.set stop s.stop).set dataAvailable s.data).set
    spaceAvailable s.space
  pure ({ sys with semaphores, memory := sys.memory.set memory s.memory }, s)

/-- `reader_->Run()` takes a step of the sender. -/
def serverStep (f : MultiProcess.State → Option MultiProcess.State) (sys : System) (p : Process)
    (pc : MultiProcess.SenderPc) : Option (System × Process) := do
  let (sys, s) ← within sys (p.access .reader) f
    { MultiProcess.start [] p.calls with sender := pc }
  pure (sys, { p with calls := s.calls, pc := .server s.sender })

/-- `writer_->Run()` takes a step of the receiver; a chunk that it has written goes to the
    destination. A read past the last page of the memory kills the process: it is no step. -/
def clientStep (f : MultiProcess.State → Option MultiProcess.State) (sys : System) (p : Process)
    (pc : MultiProcess.ReceiverPc) : Option (System × Process) := do
  let (sys, s) ← within sys (p.access .writer) f
    { MultiProcess.start [] [] with receiver := pc }
  let chunk ← s.delivered.flatten.mapM id
  let dest ← p.dest
  let (dest, files) := dest.write sys.files chunk
  pure ({ sys with files }, { p with dest := some dest, pc := .client s.receiver })

/-- Whether the receiver is at an operation on a semaphore. -/
def receiverAtSemaphore : MultiProcess.ReceiverPc → Bool
  | .loop => true
  | .tryData => true
  | .postSpace _ => true
  | .stopping => true
  | _ => false

/-- Whether the sender is at an operation on a semaphore. -/
def senderAtSemaphore : MultiProcess.SenderPc → Bool
  | .waitSpace _ => true
  | .postData _ => true
  | .stopPost => true
  | .stopTry => true
  | _ => false

/-- The process can be in `SignalHandler` next. -/
def Pc.interruptible : Pc → Bool
  | .signalled _ => false
  | .ended _ => false
  | .exited => false
  | _ => true

def serverExists : Except StartFault Unit :=
  .error (.fault (.runtimeError (ascii "Server already exist.\n")))

/-- What a process can do next. -/
inductive Move where
  | run
  /-- The handler of the shared memory swallows an exception. -/
  | handlerFault
  /-- A semaphore throws `interprocess_exception`, which leaves the task. -/
  | interprocessException
  | sigint
  deriving DecidableEq

/-- `Create`, `Run`, the destructors and `SignalHandler`, one step. -/
def runStep (platform : Platform) (sys : System) (p : Process) : Option (System × Process) :=
  match p.pc with
  | .creating [] => some (sys, { p with pc := .tryClient })
  | .creating ((build, unwinding) :: rest) =>
    match perform platform sys p build with
    | (sys, .ok p) => some (sys, { p with pc := .creating rest })
    | (sys, .error fault) => some (sys, { p with pc := .cleaning unwinding (.error fault) })
  | .tryClient =>
    match sys.mutexes.createOnly .client () with
    | some mutexes => some ({ sys with mutexes }, { p with pc := .client .loop })
    | none => some (sys, { p with pc := .tryServer })
  | .client pc =>
    if pc = .finished ∨ pc = .failed then
      some (sys, { p with pc := .cleaning destructor (.ok ()) })
    else clientStep (MultiProcess.receiverStep platform.page) sys p pc
  | .tryServer =>
    match sys.mutexes.createOnly .server () with
    | some mutexes => some ({ sys with mutexes }, { p with pc := .server .next })
    | none => some (sys, { p with pc := .cleaning destructor serverExists })
  | .server pc =>
    if pc = .finished then some (sys, { p with pc := .cleaning destructor (.ok ()) })
    else serverStep MultiProcess.senderStep sys p pc
  | .cleaning [] result => some (sys, { p with pc := .ended result })
  | .cleaning (removal :: rest) result =>
    some (clean p.command sys removal, { p with pc := .cleaning rest result })
  | .signalled [] => some (sys, { p with pc := .exited })
  | .signalled (removal :: rest) =>
    some (clean p.command sys removal, { p with pc := .signalled rest })
  | .ended _ => none
  | .exited => none

def move (platform : Platform) (sys : System) (p : Process) : Move → Option (System × Process)
  | .run => runStep platform sys p
  | .handlerFault =>
    match p.pc with
    | .client pc => clientStep MultiProcess.receiverFault sys p pc
    | .server pc => serverStep MultiProcess.senderFault sys p pc
    | _ => none
  -- `Run` takes the exception of a semaphore for that of a mutex.
  | .interprocessException =>
    match p.pc with
    | .client pc => if receiverAtSemaphore pc then some (sys, { p with pc := .tryServer }) else none
    | .server pc =>
      if senderAtSemaphore pc then some (sys, { p with pc := .cleaning destructor serverExists })
      else none
    | _ => none
  | .sigint =>
    if p.pc.interruptible then some (sys, { p with pc := .signalled cleaner }) else none

/-- The machine: what the processes share, and all processes ever started. -/
structure State where
  system : System
  processes : List Process

inductive Action where
  | start (command : SCommand)
  | move (i : Nat) (what : Move)

def step (platform : Platform) (s : State) : Action → Option State
  | .start command => some { s with processes := s.processes ++ [.start command] }
  | .move i what => do
    let p ← s.processes[i]?
    let (system, p) ← move platform s.system p what
    pure { system, processes := s.processes.set i p }

/-- A machine on which no process has been started. -/
def boot (system : System) : State := { system, processes := [] }

/-- A number of steps of one process. -/
def runs (i n : Nat) : List Action := List.replicate n (.move i .run)

/-- Some sequence of starts and moves leads from `s` to `s'`, each meeting `ok`. -/
abbrev Reaches (platform : Platform) (ok : State → Action → Prop) (s s' : State) : Prop :=
  Transition.Reaches (step platform) ok s s'

/-- The same names, with the same objects behind them, and no file less. -/
structure SameNames (sys sys' : System) : Prop where
  files : FileDataWriter.Grown sys.files sys'.files
  mutexes : sys'.mutexes = sys.mutexes
  semaphores : sys'.semaphores.names = sys.semaphores.names
  memory : sys'.memory.names = sys.memory.names

/-- What one move of a process can do. -/
inductive Moved (platform : Platform) (sys : System) (p : Process) (what : Move) :
    System → Process → Prop
  | created (run : what = .run) (pc : p.pc = .creating []) :
      Moved platform sys p what sys { p with pc := .tryClient }
  | built (run : what = .run) {build : Build} {unwinding : List Clean}
      {rest : List (Build × List Clean)} {sys' : System} {p' : Process}
      (pc : p.pc = .creating ((build, unwinding) :: rest))
      (done : perform platform sys p build = (sys', .ok p')) :
      Moved platform sys p what sys' { p' with pc := .creating rest }
  | thrown (run : what = .run) {build : Build} {unwinding : List Clean}
      {rest : List (Build × List Clean)} {sys' : System} {fault : StartFault}
      (pc : p.pc = .creating ((build, unwinding) :: rest))
      (done : perform platform sys p build = (sys', .error fault)) :
      Moved platform sys p what sys' { p with pc := .cleaning unwinding (.error fault) }
  | takeClient (run : what = .run) (pc : p.pc = .tryClient)
      (free : sys.mutexes.names .client = none) :
      Moved platform sys p what { sys with mutexes := sys.mutexes.create .client () }
        { p with pc := .client .loop }
  | noClient (run : what = .run) (pc : p.pc = .tryClient)
      (taken : sys.mutexes.names .client ≠ none) :
      Moved platform sys p what sys { p with pc := .tryServer }
  | clientRuns (runs : what = .run ∨ what = .handlerFault)
      {before after : MultiProcess.ReceiverPc} {sys' : System} {p' : Process}
      (pc : p.pc = .client before) (names : SameNames sys sys')
      (command : p'.command = p.command) (pc' : p'.pc = .client after) :
      Moved platform sys p what sys' p'
  | clientReturns (run : what = .run) {before : MultiProcess.ReceiverPc}
      (pc : p.pc = .client before) :
      Moved platform sys p what sys { p with pc := .cleaning destructor (.ok ()) }
  | clientThrows (throws : what = .interprocessException) {before : MultiProcess.ReceiverPc}
      (pc : p.pc = .client before) : Moved platform sys p what sys { p with pc := .tryServer }
  | takeServer (run : what = .run) (pc : p.pc = .tryServer)
      (free : sys.mutexes.names .server = none) :
      Moved platform sys p what { sys with mutexes := sys.mutexes.create .server () }
        { p with pc := .server .next }
  | noServer (run : what = .run) (pc : p.pc = .tryServer)
      (taken : sys.mutexes.names .server ≠ none) :
      Moved platform sys p what sys { p with pc := .cleaning destructor serverExists }
  | serverRuns (runs : what = .run ∨ what = .handlerFault)
      {before after : MultiProcess.SenderPc} {sys' : System} {p' : Process}
      (pc : p.pc = .server before) (names : SameNames sys sys')
      (command : p'.command = p.command) (pc' : p'.pc = .server after) :
      Moved platform sys p what sys' p'
  | serverReturns (run : what = .run) {before : MultiProcess.SenderPc}
      (pc : p.pc = .server before) :
      Moved platform sys p what sys { p with pc := .cleaning destructor (.ok ()) }
  | serverThrows (throws : what = .interprocessException) {before : MultiProcess.SenderPc}
      (pc : p.pc = .server before) :
      Moved platform sys p what sys { p with pc := .cleaning destructor serverExists }
  | cleaned (run : what = .run) {removal : Clean} {rest : List Clean}
      {result : Except StartFault Unit} (pc : p.pc = .cleaning (removal :: rest) result) :
      Moved platform sys p what (clean p.command sys removal)
        { p with pc := .cleaning rest result }
  | ended (run : what = .run) {result : Except StartFault Unit} (pc : p.pc = .cleaning [] result) :
      Moved platform sys p what sys { p with pc := .ended result }
  | interrupted (signal : what = .sigint) (pc : p.pc.interruptible = true) :
      Moved platform sys p what sys { p with pc := .signalled cleaner }
  | handled (run : what = .run) {removal : Clean} {rest : List Clean}
      (pc : p.pc = .signalled (removal :: rest)) :
      Moved platform sys p what (clean p.command sys removal) { p with pc := .signalled rest }
  | exited (run : what = .run) (pc : p.pc = .signalled []) :
      Moved platform sys p what sys { p with pc := .exited }

variable {platform : Platform} {sys sys' : System} {p p' : Process}

theorem within_names {access : Access} {f : MultiProcess.State → Option MultiProcess.State}
    {s s' : MultiProcess.State} (next : within sys access f s = some (sys', s')) :
    SameNames sys sys' := by
  simp only [within, Option.bind_eq_bind, Option.bind_eq_some_iff, Option.pure_def,
    Option.some.injEq, Prod.mk.injEq] at next
  obtain ⟨_, -, _, -, _, -, _, -, _, -, _, -, _, -, _, -, _, -, rfl, -⟩ := next
  exact ⟨.refl _, rfl, rfl, rfl⟩

theorem serverStep_names {f : MultiProcess.State → Option MultiProcess.State}
    {pc : MultiProcess.SenderPc} (next : serverStep f sys p pc = some (sys', p')) :
    SameNames sys sys' ∧ p'.command = p.command ∧ ∃ after, p'.pc = .server after := by
  simp only [serverStep, Option.bind_eq_bind, Option.bind_eq_some_iff, Option.pure_def,
    Option.some.injEq, Prod.mk.injEq] at next
  obtain ⟨⟨sys₁, s⟩, inside, rfl, rfl⟩ := next
  exact ⟨within_names inside, rfl, _, rfl⟩

theorem clientStep_names {f : MultiProcess.State → Option MultiProcess.State}
    {pc : MultiProcess.ReceiverPc} (next : clientStep f sys p pc = some (sys', p')) :
    SameNames sys sys' ∧ p'.command = p.command ∧ ∃ after, p'.pc = .client after := by
  simp only [clientStep, Option.bind_eq_bind, Option.bind_eq_some_iff, Option.pure_def,
    Option.some.injEq, Prod.mk.injEq] at next
  obtain ⟨⟨sys₁, s⟩, inside, chunk, -, dest, -, rfl, rfl⟩ := next
  have names := within_names inside
  exact ⟨⟨names.files.trans (FileDataWriter.write_grown chunk), names.mutexes, names.semaphores,
    names.memory⟩, rfl, _, rfl⟩

theorem runStep_moved (next : runStep platform sys p = some (sys', p')) :
    Moved platform sys p .run sys' p' := by
  unfold runStep at next
  split at next <;> rename_i pc
  · cases next
    exact .created rfl pc
  · split at next <;> rename_i done
    · cases next
      exact .built rfl pc done
    · cases next
      exact .thrown rfl pc done
  · rcases sys.mutexes.createOnly_cases .client () with ⟨free, created⟩ | ⟨taken, failed⟩
    · rw [created] at next
      cases next
      exact .takeClient rfl pc free
    · rw [failed] at next
      cases next
      exact .noClient rfl pc taken
  · split at next
    · cases next
      exact .clientReturns rfl pc
    · obtain ⟨names, command, after, pc'⟩ := clientStep_names next
      exact .clientRuns (Or.inl rfl) pc names command pc'
  · rcases sys.mutexes.createOnly_cases .server () with ⟨free, created⟩ | ⟨taken, failed⟩
    · rw [created] at next
      cases next
      exact .takeServer rfl pc free
    · rw [failed] at next
      cases next
      exact .noServer rfl pc taken
  · split at next
    · cases next
      exact .serverReturns rfl pc
    · obtain ⟨names, command, after, pc'⟩ := serverStep_names next
      exact .serverRuns (Or.inl rfl) pc names command pc'
  · cases next
    exact .ended rfl pc
  · cases next
    exact .cleaned rfl pc
  · cases next
    exact .exited rfl pc
  · cases next
    exact .handled rfl pc
  · cases next
  · cases next

theorem move_moved {what : Move} (next : move platform sys p what = some (sys', p')) :
    Moved platform sys p what sys' p' := by
  cases what with
  | run => exact runStep_moved next
  | handlerFault =>
    simp only [move] at next
    split at next <;> rename_i pc
    · obtain ⟨names, command, after, pc'⟩ := clientStep_names next
      exact .clientRuns (Or.inr rfl) pc names command pc'
    · obtain ⟨names, command, after, pc'⟩ := serverStep_names next
      exact .serverRuns (Or.inr rfl) pc names command pc'
    · cases next
  | interprocessException =>
    simp only [move] at next
    split at next <;> rename_i pc
    · split at next
      · cases next
        exact .clientThrows rfl pc
      · cases next
    · split at next
      · cases next
        exact .serverThrows rfl pc
      · cases next
    · cases next
  | sigint =>
    simp only [move] at next
    split at next
    · rename_i pc
      cases next
      exact .interrupted rfl pc
    · cases next

/-- What one action can do. -/
theorem step_cases {s s' : State} {a : Action} (next : step platform s a = some s') :
    (∃ command, a = .start command ∧
      s' = { s with processes := s.processes ++ [.start command] }) ∨
    ∃ i what p system p', a = .move i what ∧ s.processes[i]? = some p ∧
      Moved platform s.system p what system p' ∧
      s' = { system, processes := s.processes.set i p' } := by
  cases a with
  | start command =>
    cases next
    exact Or.inl ⟨command, rfl, rfl⟩
  | move i what =>
    simp only [step, Option.bind_eq_bind, Option.bind_eq_some_iff, Option.pure_def,
      Option.some.injEq] at next
    obtain ⟨p, found, ⟨system, p'⟩, moved, rfl⟩ := next
    exact Or.inr ⟨i, what, p, system, p', rfl, found, move_moved moved, rfl⟩

/-- A process after a move: the one that moved, or another one. -/
theorem getElem?_moved {processes : List Process} {i j : Nat} {q : Process}
    (found : (processes.set i p')[j]? = some q) :
    (j = i ∧ q = p') ∨ (j ≠ i ∧ processes[j]? = some q) := by
  by_cases same : j = i
  · subst same
    obtain ⟨inside, -⟩ := List.getElem?_eq_some_iff.mp found
    rw [List.length_set] at inside
    rw [List.getElem?_set_self inside] at found
    exact Or.inl ⟨rfl, (Option.some.inj found).symm⟩
  · rw [List.getElem?_set_ne (Ne.symm same)] at found
    exact Or.inr ⟨same, found⟩

/-- A process after a start: a process from before, or the new one. -/
theorem getElem?_started {processes : List Process} {j : Nat} {q : Process}
    (found : (processes ++ [p'])[j]? = some q) :
    processes[j]? = some q ∨ (j = processes.length ∧ q = p') := by
  by_cases old : j < processes.length
  · rw [List.getElem?_append_left old] at found
    exact Or.inl found
  · rw [List.getElem?_append_right (Nat.le_of_not_lt old), List.getElem?_singleton] at found
    split at found
    · rename_i zero
      exact Or.inr ⟨by omega, (Option.some.inj found).symm⟩
    · cases found

/-- What a step of `Create` that succeeds leaves alone. -/
structure Built (build : Build) (sys : System) (p : Process) (sys' : System) (p' : Process) :
    Prop where
  command : p'.command = p.command
  mutexes : sys'.mutexes = sys.mutexes
  semaphores : build.mayThrow = true → sys'.semaphores = sys.semaphores
  memory : build.opensName = false → sys'.memory = sys.memory
  files : build ≠ .openDest → sys'.files = sys.files
  grown : FileDataWriter.Grown sys.files sys'.files

theorem perform_ok {build : Build} (h : succeeds platform sys.files p.command build = true) :
    ∃ sys' p', perform platform sys p build = (sys', .ok p') ∧ Built build sys p sys' p' := by
  cases build with
  | checkSources =>
    have there : p.command.source ≠ none := Option.isSome_iff_ne_none.mp h
    refine ⟨sys, p, ?_, rfl, rfl, fun _ => rfl, fun _ => rfl, fun _ => rfl, .refl _⟩
    simp only [perform, if_neg there]
  | openMemory task =>
    simp only [succeeds, opensMemory] at h
    cases named : p.command.sharedMemory with
    | none =>
      rw [named] at h
      cases h
    | some name =>
      rw [named] at h
      have permitted : platform.permitsMemory (cString name) = true := h
      simp only [perform, named, permitted, if_true]
      refine ⟨_, _, rfl, rfl, rfl, fun _ => rfl, ?_, fun _ => rfl, .refl _⟩
      intro opensNot
      cases opensNot
  | openSemaphore task name =>
    refine ⟨_, _, rfl, rfl, rfl, ?_, fun _ => rfl, fun _ => rfl, .refl _⟩
    intro throws
    cases throws
  | openSource =>
    simp only [succeeds, opensSource] at h
    obtain ⟨content, found⟩ := Option.isSome_iff_exists.mp h
    simp only [perform, FileDataReader.open, found]
    exact ⟨_, _, rfl, rfl, rfl, fun _ => rfl, fun _ => rfl, fun _ => rfl, .refl _⟩
  | openDest =>
    simp only [succeeds, opensDest] at h
    cases named : p.command.dest with
    | none =>
      rw [named] at h
      cases h
    | some dest =>
      rw [named] at h
      have opens : sys.files.canOpen platform.host dest = true := h
      simp only [perform, named, FileDataWriter.create, FileDataWriter.openFile,
        FileSystem.openOutput, opens, if_true]
      refine ⟨_, _, rfl, rfl, rfl, fun _ => rfl, fun _ => rfl, ?_, .update _ _⟩
      intro notDest
      exact absurd rfl notDest

/-- A step of `Create` that fails changes nothing. -/
theorem perform_error {build : Build} (h : succeeds platform sys.files p.command build = false) :
    ∃ fault, perform platform sys p build = (sys, .error fault) := by
  cases build with
  | checkSources =>
    have missing : p.command.source = none :=
      Option.isNone_iff_eq_none.mp (Option.isSome_eq_false_iff.mp h)
    simp only [perform, if_pos missing]
    exact ⟨_, rfl⟩
  | openMemory task =>
    simp only [succeeds, opensMemory] at h
    cases named : p.command.sharedMemory with
    | none =>
      simp only [perform, named]
      exact ⟨_, rfl⟩
    | some name =>
      rw [named] at h
      have refused : platform.permitsMemory (cString name) = false := h
      simp only [perform, named, refused, Bool.false_eq_true, if_false]
      exact ⟨_, rfl⟩
  | openSemaphore task name => cases h
  | openSource =>
    simp only [succeeds, opensSource] at h
    have failed : sys.files.openInput platform.host (p.command.source.getD []) = none :=
      Option.isNone_iff_eq_none.mp (Option.isSome_eq_false_iff.mp h)
    simp only [perform, FileDataReader.open, failed]
    split
    · rename_i opened
      split at opened
      · cases opened
      · split at opened <;> cases opened
    · exact ⟨_, rfl⟩
  | openDest =>
    simp only [succeeds, opensDest] at h
    cases named : p.command.dest with
    | none =>
      simp only [perform, named]
      exact ⟨_, rfl⟩
    | some dest =>
      rw [named] at h
      have failed : sys.files.canOpen platform.host dest = false := h
      simp only [perform, named, FileDataWriter.create, FileDataWriter.openFile,
        FileSystem.openOutput, failed, if_true, Bool.false_eq_true, if_false]
      by_cases long : FileSystem.tooLong platform.host dest = true
      · simp only [long, if_true]
        exact ⟨_, rfl⟩
      · by_cases there : sys.files.exists dest = true
        · simp only [if_neg long, there, if_true]
          exact ⟨_, rfl⟩
        · simp only [if_neg long, if_neg there]
          exact ⟨_, rfl⟩

/-- A step of `Create` succeeds, or fails and changes nothing, and which of the two is decided by
    the command and the files. -/
theorem perform_spec {build : Build} {result : Except StartFault Process}
    (done : perform platform sys p build = (sys', result)) :
    (succeeds platform sys.files p.command build = true ∧
      ∃ p', result = .ok p' ∧ Built build sys p sys' p') ∨
      succeeds platform sys.files p.command build = false ∧
        (∃ fault, result = .error fault) ∧ sys' = sys := by
  cases success : succeeds platform sys.files p.command build with
  | true =>
    obtain ⟨sys₁, p₁, performed, built⟩ := perform_ok success
    rw [performed] at done
    cases done
    exact Or.inl ⟨rfl, p₁, rfl, built⟩
  | false =>
    obtain ⟨fault, performed⟩ := perform_error success
    rw [performed] at done
    cases done
    exact Or.inr ⟨rfl, ⟨fault, rfl⟩, rfl⟩

theorem perform_cases {build : Build} {result : Except StartFault Process}
    (done : perform platform sys p build = (sys', result)) :
    (∃ p', result = .ok p' ∧ Built build sys p sys' p') ∨
      (∃ fault, result = .error fault) ∧ build.mayThrow = true ∧ sys' = sys := by
  rcases perform_spec done with ⟨-, built⟩ | ⟨fails, thrown, same⟩
  · exact Or.inl built
  · refine Or.inr ⟨thrown, ?_, same⟩
    cases build with
    | openSemaphore task name => cases fails
    | _ => rfl

/-- `Create` leaves the mutexes alone, and takes no file away. -/
theorem perform_frame {build : Build} {result : Except StartFault Process}
    (done : perform platform sys p build = (sys', result)) :
    sys'.mutexes = sys.mutexes ∧ FileDataWriter.Grown sys.files sys'.files := by
  rcases perform_cases done with ⟨p', -, built⟩ | ⟨-, -, rfl⟩
  · exact ⟨built.mutexes, built.grown⟩
  · exact ⟨rfl, .refl _⟩

/-- What one removal leaves of the names. -/
theorem names_clean {command : SCommand} (removal : Clean) :
    (∀ mutex, (clean command sys removal).mutexes.names mutex =
        if removal = .removeMutex mutex then none else sys.mutexes.names mutex) ∧
      (∀ name, (clean command sys removal).semaphores.names name =
        if removal = .removeSemaphore name then none else sys.semaphores.names name) ∧
      (∀ path, command.sharedMemory = some path →
        (clean command sys removal).memory.names (cString path) =
          if removal = .removeMemory then none else sys.memory.names (cString path)) ∧
      (clean command sys removal).files = sys.files := by
  cases removal with
  | removeMutex mutex =>
    refine ⟨?_, fun _ => rfl, fun _ _ => rfl, rfl⟩
    intro other
    by_cases same : other = mutex
    · subst same
      simp [clean]
    · simp [clean, same, Ne.symm same]
  | removeSemaphore name =>
    refine ⟨fun _ => rfl, ?_, fun _ _ => rfl, rfl⟩
    intro other
    by_cases same : other = name
    · subst same
      simp [clean]
    · simp [clean, same, Ne.symm same]
  | removeMemory =>
    cases named : command.sharedMemory with
    | none => simp [clean, named]
    | some path => simp [clean, named]

/-- No move takes a file away. -/
theorem Moved.grown {what : Move} (moved : Moved platform sys p what sys' p') :
    FileDataWriter.Grown sys.files sys'.files := by
  cases moved with
  | built run pc done => exact (perform_frame done).2
  | thrown run pc done => exact (perform_frame done).2
  | clientRuns runs pc names command pc' => exact names.files
  | serverRuns runs pc names command pc' => exact names.files
  | cleaned run pc =>
    rw [(names_clean _).2.2.2]
    exact .refl _
  | handled run pc =>
    rw [(names_clean _).2.2.2]
    exact .refl _
  | _ => exact .refl _

end FileTransfer.MultiProcessTask
