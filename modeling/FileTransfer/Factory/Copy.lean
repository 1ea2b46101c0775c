import FileTransfer.Factory.TaskFactory
import FileTransfer.MultiProcess.RoleTasks
import FileTransfer.Threads.MultiThreadInvariant

/-!
# A copy and its source

`MultiThreadTask` and `MultiProcessTask`, `Create` step by step and any part of `Run`, over a file
system in which several names may lead to one file. A file is read when `Read` is called, as it is
then.
-/

namespace FileTransfer

open Posix
open MultiProcessTask (StartFault Build)

/-- Where the program runs; `target` is the file behind a name. -/
structure Machine extends MultiProcessTask.Platform where
  target : Path → Path

namespace Machine

/-- The file that a name given to the system leads to. -/
def fileOf (machine : Machine) (name : Path) : Path := machine.target (cString name)

/-- The disk, as names see it. -/
def names (machine : Machine) (disk : FileSystem) : FileSystem := disk.through machine.target

end Machine

/-- A `FileDataReader` and the file it is open on. The stream may have fetched bytes that it has not
    delivered. -/
structure SourceReader where
  path : Path
  fetched : Nat
  buffered : List UInt8
  reader : FileDataReader

namespace SourceReader

/-- `FileDataReader::Create` (`FileDataReader.h:35`). -/
def «open» (machine : Machine) (disk : FileSystem) (fileName : Path) :
    Except Fault SourceReader :=
  match FileDataReader.open machine.host (machine.names disk) fileName defaultChunkSize with
  | .ok reader =>
    .ok { path := machine.fileOf fileName, fetched := 0, buffered := [], reader }
  | .error fault => .error fault

/-- The stream fetches some more bytes. -/
def fetch (r : SourceReader) (disk : FileSystem) (count : Nat) : SourceReader :=
  let bytes := (((disk.files r.path).getD []).drop r.fetched).take count
  { r with fetched := r.fetched + bytes.length, buffered := r.buffered ++ bytes }

/-- `Read` (`FileDataReader.h:59`): what the stream has not fetched yet is read from the file. -/
def read (r : SourceReader) (disk : FileSystem) : List UInt8 × SourceReader :=
  let r := r.fetch disk (r.reader.chunkBuffer.length - r.buffered.length)
  let stream := { r.reader.stream with remaining := r.buffered }
  let (chunk, reader) := { r.reader with stream }.read
  (chunk, { r with buffered := reader.stream.remaining, reader })

end SourceReader

/-- `FileDataWriter::Create` (`FileDataWriter.h:32`), without a subfolder. -/
def openDest (machine : Machine) (disk : FileSystem) (fileName : Path) :
    Except Fault (FileDataWriter × FileSystem) :=
  match (FileDataWriter.create machine.host (machine.names disk) fileName []).1 with
  | .ok writer =>
    let path := machine.target writer.stream.path
    .ok ({ stream := { path, position := 0 } },
      { disk with files := Function.update disk.files path (some []) })
  | .error fault => .error fault

/-- Where a copy is: in `Create`, with the steps still to come, or in `Run`. In multi-thread mode
    `ended` says that `Read` has returned the empty span. -/
inductive CopyPc where
  | creating (rest : List Build)
  | failed (fault : StartFault)
  | threads (s : Threads.MultiThread.State) (ended : Bool)
  | process (s : MultiProcessTask.RoleTasks.RunState)

/-- A copy: the disk, the files it has open, and where it is. -/
structure Copy where
  disk : FileSystem
  reader : Option SourceReader
  writer : Option FileDataWriter
  pc : CopyPc

namespace Copy

/-- What happens next: a step of `Create` or the start of `Run`, a fetch of the source's stream, a
    step of a thread, or an event in `MultiProcessTask::Run`. -/
inductive Action where
  | create
  | fetch (count : Nat)
  | thread (action : Threads.MultiThread.Action)
  | process (event : MultiProcessTask.RoleTasks.Event)

/-- The first source. -/
def source (command : SCommand) : Option Path := command.sources.bind List.head?

/-- `MultiThreadTask::Create` (`MultiThreadTask.cpp:13`) and `MultiProcessTask::Create`
    (`MultiProcessTask.cpp:48`): first `ReaderFactory`, then `WriterFactory`. -/
def createSteps : Mode → List Build
  | .multiThread => [.checkSources, .openSource, .openDest]
  | .multiProcess => MultiProcessTask.create.map Prod.fst
  | _ => []

def start (command : SCommand) (disk : FileSystem) : Copy :=
  { disk, reader := none, writer := none, pc := .creating (createSteps command.mode) }

/-- One step of `Create`. -/
def perform (machine : Machine) (command : SCommand) (c : Copy) : Build → Except StartFault Copy
  | .checkSources =>
    match source command with
    | none => .error (.logicError (ascii "Source file name is not set"))
    | some _ => .ok c
  | .openMemory _ =>
    match command.sharedMemory with
    | none => .error .badOptionalAccess
    | some name =>
      if machine.permitsMemory (cString name) then .ok c
      else .error (.fault (.runtimeError
        (ascii "Error: Could not create or open shared memory.\n")))
  | .openSemaphore _ _ => .ok c
  -- `checkSources` has seen that there is a source.
  | .openSource =>
    match SourceReader.open machine c.disk ((source command).getD []) with
    | .ok reader => .ok { c with reader := some reader }
    | .error fault => .error (.fault fault)
  | .openDest =>
    match command.dest with
    | none => .error .badOptionalAccess
    | some dest =>
      match openDest machine c.disk dest with
      | .ok (writer, disk) => .ok { c with writer := some writer, disk }
      | .error fault => .error (.fault fault)

/-- The start of `Run`. -/
def beginRun (command : SCommand) (c : Copy) : Option Copy :=
  match command.mode with
  | .multiThread =>
    (Threads.MultiThread.start bufferSize []).map fun s => { c with pc := .threads s false }
  | .multiProcess => some { c with pc := .process MultiProcessTask.RoleTasks.start }
  | _ => none

/-- `writer_->Write(data)`. -/
def write (c : Copy) (data : List UInt8) : Option Copy :=
  c.writer.map fun writer =>
    let (writer, disk) := writer.write c.disk data
    { c with writer := some writer, disk }

/-- `reader_->Read()` in the reading thread: the calls that follow in `FileDataTransferTask::Run`
    (`FileDataTransferTask.h:36`). -/
def readSource (c : Copy) (s : Threads.MultiThread.State) : Option Copy :=
  c.reader.map fun reader =>
    let (chunk, reader) := reader.read c.disk
    if chunk = [] then
      { c with reader := some reader, pc := .threads { s with calls := [.stop] } true }
    else
      { c with reader := some reader, pc := .threads { s with calls := [.write chunk] } false }

/-- A step of one of the two threads: the reading thread reads when it has made the calls that
    follow from its last `Read`. -/
def threadStep (c : Copy) (s : Threads.MultiThread.State) (ended : Bool)
    (action : Threads.MultiThread.Action) : Option Copy :=
  if action = .producer ∧ s.producer = .next ∧ s.calls = [] ∧ ended = false then c.readSource s
  else
    (Threads.MultiThread.step bufferSize s action).bind fun s' =>
      match action, s.consumer with
      | .consumer, .writing chunk =>
        (c.write chunk).map fun c => { c with pc := .threads s' ended }
      | _, _ => some { c with pc := .threads s' ended }

/-- An event in `MultiProcessTask::Run`: a `Write` of the client that returns has written its chunk,
    whoever sent it; what a `Read` of the server returns does not change the disk. -/
def processStep (c : Copy) (s : MultiProcessTask.RoleTasks.RunState)
    (event : MultiProcessTask.RoleTasks.Event) : Option Copy :=
  (MultiProcessTask.RoleTasks.step s event).bind fun s' =>
    match event, s.pc with
    | .task (.returned .write), .writer (.inside (.write data)) =>
      (c.write data).map fun c => { c with pc := .process s' }
    | _, _ => some { c with pc := .process s' }

def step (machine : Machine) (command : SCommand) (c : Copy) (action : Action) : Option Copy :=
  match action, c.pc with
  | .create, .creating [] => beginRun command c
  | .create, .creating (build :: rest) =>
    match perform machine command c build with
    | .ok c => some { c with pc := .creating rest }
    | .error fault => some { c with pc := .failed fault }
  | .fetch count, _ => c.reader.map fun reader =>
    { c with reader := some (reader.fetch c.disk count) }
  | .thread action, .threads s ended => c.threadStep s ended action
  | .process event, .process s => c.processStep s event
  | _, _ => none

/-- The file that the source's name leads to. -/
def sourceFile (machine : Machine) (command : SCommand) : Option Path :=
  (source command).map machine.fileOf

/-- The bytes of the source file. -/
def sourceBytes (machine : Machine) (command : SCommand) (disk : FileSystem) :
    Option (List UInt8) :=
  (sourceFile machine command).bind disk.files

/-- What a step does to the source: it opens a destination for output that leads to the same file,
    while there is something in it; or it writes something there in multi-process mode. -/
inductive Damages (machine : Machine) (command : SCommand) (c : Copy) : Action → Prop
  | truncate {rest : List Build} {dest : Path} (pc : c.pc = .creating (.openDest :: rest))
      (set : command.dest = some dest)
      (opens : (machine.names c.disk).canOpen machine.host dest = true)
      (same : sourceFile machine command = some (machine.fileOf dest))
      (filled : sourceBytes machine command c.disk ≠ some []) :
      Damages machine command c .create
  | write {s : MultiProcessTask.RoleTasks.RunState} {data : List UInt8} {writer : FileDataWriter}
      (pc : c.pc = .process s) (call : s.pc = .writer (.inside (.write data)))
      (opened : c.writer = some writer)
      (same : sourceFile machine command = some writer.stream.path) (filled : data ≠ []) :
      Damages machine command c (.process (.task (.returned .write)))

/-- What a step of `Create` that succeeds does. -/
inductive Built (machine : Machine) (command : SCommand) (c : Copy) : Build → Copy → Prop
  | kept {build : Build} (notDest : build ≠ .openDest) : Built machine command c build c
  | source {reader : SourceReader}
      (opened : SourceReader.open machine c.disk ((source command).getD []) = .ok reader) :
      Built machine command c .openSource { c with reader := some reader }
  | dest {dest : Path} (set : command.dest = some dest)
      (opens : (machine.names c.disk).canOpen machine.host dest = true) :
      Built machine command c .openDest
        { c with
          writer := some { stream := { path := machine.fileOf dest, position := 0 } }
          disk :=
            { c.disk with
              files := Function.update c.disk.files (machine.fileOf dest) (some []) } }

/-- What a step of a copy does. -/
inductive Move (machine : Machine) (command : SCommand) (c : Copy) : Action → Copy → Prop
  | threads {s : Threads.MultiThread.State} (pc : c.pc = .creating [])
      (started : Threads.MultiThread.start bufferSize [] = some s) :
      Move machine command c .create { c with pc := .threads s false }
  | process (pc : c.pc = .creating []) :
      Move machine command c .create
        { c with pc := .process MultiProcessTask.RoleTasks.start }
  | built {build : Build} {rest : List Build} {c' : Copy} (pc : c.pc = .creating (build :: rest))
      (built : Built machine command c build c') :
      Move machine command c .create { c' with pc := .creating rest }
  | failed {build : Build} {rest : List Build} {fault : StartFault}
      (pc : c.pc = .creating (build :: rest))
      (refused : perform machine command c build = .error fault) :
      Move machine command c .create { c with pc := .failed fault }
  | fetch {reader : SourceReader} (count : Nat) (opened : c.reader = some reader) :
      Move machine command c (.fetch count)
        { c with reader := some (reader.fetch c.disk count) }
  | read {s : Threads.MultiThread.State} {c' : Copy} (pc : c.pc = .threads s false)
      (next : s.producer = .next) (read : c.readSource s = some c') :
      Move machine command c (.thread .producer) c'
  | thread {s s' : Threads.MultiThread.State} {ended : Bool} {action : Threads.MultiThread.Action}
      (pc : c.pc = .threads s ended)
      (next : Threads.MultiThread.step bufferSize s action = some s') :
      Move machine command c (.thread action) { c with pc := .threads s' ended }
  | threadWrite {s s' : Threads.MultiThread.State} {ended : Bool} {chunk : List UInt8} {c' : Copy}
      (pc : c.pc = .threads s ended) (writing : s.consumer = .writing chunk)
      (next : Threads.MultiThread.step bufferSize s .consumer = some s')
      (written : c.write chunk = some c') :
      Move machine command c (.thread .consumer) { c' with pc := .threads s' ended }
  | event {s s' : MultiProcessTask.RoleTasks.RunState} {event : MultiProcessTask.RoleTasks.Event}
      (pc : c.pc = .process s)
      (other : ∀ data, event = .task (.returned .write) → s.pc ≠ .writer (.inside (.write data))) :
      Move machine command c (.process event) { c with pc := .process s' }
  | processWrite {s s' : MultiProcessTask.RoleTasks.RunState} {data : List UInt8} {c' : Copy}
      (pc : c.pc = .process s) (call : s.pc = .writer (.inside (.write data)))
      (written : c.write data = some c') :
      Move machine command c (.process (.task (.returned .write))) { c' with pc := .process s' }

variable {machine : Machine} {command : SCommand} {c c' : Copy}

theorem openDest_of_canOpen {disk : FileSystem} {dest : Path}
    (opens : (machine.names disk).canOpen machine.host dest = true) :
    openDest machine disk dest =
      .ok ({ stream := { path := machine.fileOf dest, position := 0 } },
        { disk with files := Function.update disk.files (machine.fileOf dest) (some []) }) := by
  simp only [openDest, FileDataWriter.create, FileDataWriter.openFile, FileSystem.openOutput, opens,
    if_true]
  rfl

theorem openDest_of_not_canOpen {disk : FileSystem} {dest : Path}
    (refused : (machine.names disk).canOpen machine.host dest ≠ true) :
    ∃ fault, openDest machine disk dest = .error fault := by
  simp only [openDest, FileDataWriter.create, FileDataWriter.openFile, FileSystem.openOutput,
    if_neg refused, if_true]
  by_cases long : FileSystem.tooLong machine.host dest = true
  · rw [if_pos long]
    exact ⟨_, rfl⟩
  · rw [if_neg long]
    by_cases there : (machine.names disk).exists dest = true
    · rw [if_pos there]
      exact ⟨_, rfl⟩
    · rw [if_neg there]
      exact ⟨_, rfl⟩

theorem names_of_id (own : machine.target = id) (disk : FileSystem) :
    machine.names disk = disk := by
  rw [Machine.names, own]
  rfl

/-- Where every name is a file of its own, the destination is opened under its name. -/
theorem openDest_of_id (own : machine.target = id) (disk : FileSystem) (dest : Path) :
    FileDataWriter.create machine.host disk dest [] =
      match openDest machine disk dest with
      | .ok (writer, disk) => (.ok writer, disk)
      | .error fault => (.error fault, disk) := by
  by_cases opens : disk.canOpen machine.host dest = true
  · have opens' := opens
    rw [← names_of_id own disk] at opens'
    rw [openDest_of_canOpen opens']
    simp [FileDataWriter.create, FileDataWriter.openFile, FileSystem.openOutput, opens,
      Machine.fileOf, own]
  · simp only [openDest, names_of_id own, FileDataWriter.create, FileDataWriter.openFile,
      FileSystem.openOutput, if_neg opens, if_true]
    split
    · rfl
    · split <;> rfl

/-- Where every name is a file of its own, a step of `Create` is that of `MultiProcessTask`. -/
theorem perform_of_id (own : machine.target = id) {system : MultiProcessTask.System}
    {process : MultiProcessTask.Process} (files : system.files = c.disk)
    (fields : process.command = { command with }) (build : Build) :
    let done := MultiProcessTask.perform machine.toPlatform system process build
    (∃ c' process', perform machine command c build = .ok c' ∧ done.2 = .ok process' ∧
        done.1.files = c'.disk) ∨
      ∃ fault, perform machine command c build = .error fault ∧ done.2 = .error fault ∧
        done.1.files = c.disk := by
  cases build with
  | checkSources =>
    simp only [perform, MultiProcessTask.perform, MultiProcessTask.SCommand.source, source, fields]
    cases command.sources.bind List.head? with
    | none => simpa using files
    | some name => simpa using files
  | openMemory task =>
    simp only [perform, MultiProcessTask.perform, fields]
    cases command.sharedMemory with
    | none => simpa using files
    | some name =>
      by_cases permitted : machine.permitsMemory (cString name) = true
      · simpa [permitted] using files
      · simpa [permitted] using files
  | openSemaphore task name =>
    simpa [perform, MultiProcessTask.perform, MultiProcessTask.openSemaphore] using files
  | openSource =>
    simp only [perform, MultiProcessTask.perform, SourceReader.open, names_of_id own,
      MultiProcessTask.SCommand.source, source, fields, files]
    cases FileDataReader.open machine.host c.disk
        ((command.sources.bind List.head?).getD []) defaultChunkSize with
    | error fault => simpa using files
    | ok reader => simpa using files
  | openDest =>
    simp only [perform, MultiProcessTask.perform, fields]
    cases command.dest with
    | none => simpa using files
    | some dest =>
      simp only [files, openDest_of_id own]
      cases openDest machine c.disk dest with
      | error fault => simp
      | ok opened => simp

theorem perform_built {build : Build} (performed : perform machine command c build = .ok c') :
    Built machine command c build c' := by
  cases build with
  | checkSources =>
    simp only [perform] at performed
    split at performed
    · cases performed
    · cases performed
      exact .kept (by simp)
  | openMemory task =>
    simp only [perform] at performed
    split at performed
    · cases performed
    · split at performed
      · cases performed
        exact .kept (by simp)
      · cases performed
  | openSemaphore task name =>
    cases performed
    exact .kept (by simp)
  | openSource =>
    simp only [perform] at performed
    split at performed
    · rename_i reader opened
      cases performed
      exact .source opened
    · cases performed
  | openDest =>
    simp only [perform] at performed
    split at performed
    · cases performed
    · rename_i dest set
      by_cases opens : (machine.names c.disk).canOpen machine.host dest = true
      · rw [openDest_of_canOpen opens] at performed
        cases performed
        exact .dest set opens
      · obtain ⟨fault, refused⟩ := openDest_of_not_canOpen opens
        rw [refused] at performed
        cases performed

theorem threadStep_move {s : Threads.MultiThread.State} {ended : Bool}
    {action : Threads.MultiThread.Action} (pc : c.pc = .threads s ended)
    (next : c.threadStep s ended action = some c') :
    Move machine command c (.thread action) c' := by
  unfold threadStep at next
  split at next
  · rename_i reads
    obtain ⟨rfl, producer, -, rfl⟩ := reads
    exact .read pc producer next
  · obtain ⟨s', stepped, next⟩ := Option.bind_eq_some_iff.mp next
    split at next
    · rename_i chunk writing _ _
      obtain ⟨c'', written, rfl⟩ := Option.map_eq_some_iff.mp next
      exact .threadWrite pc writing stepped written
    · cases next
      exact .thread pc stepped

theorem processStep_move {s : MultiProcessTask.RoleTasks.RunState}
    {event : MultiProcessTask.RoleTasks.Event} (pc : c.pc = .process s)
    (next : c.processStep s event = some c') : Move machine command c (.process event) c' := by
  obtain ⟨s', -, next⟩ := Option.bind_eq_some_iff.mp next
  split at next
  · rename_i data call _
    obtain ⟨c'', written, rfl⟩ := Option.map_eq_some_iff.mp next
    exact .processWrite pc call written
  · rename_i other
    cases next
    exact .event pc fun data returned call => other data returned call

theorem step_move {action : Action} (next : step machine command c action = some c') :
    Move machine command c action c' := by
  unfold step at next
  split at next
  · rename_i pc
    unfold beginRun at next
    split at next
    · obtain ⟨s, started, rfl⟩ := Option.map_eq_some_iff.mp next
      exact .threads pc started
    · cases next
      exact .process pc
    · cases next
  · rename_i build rest pc
    split at next
    · rename_i performed
      cases next
      exact .built pc (perform_built performed)
    · rename_i refused
      cases next
      exact .failed pc refused
  · obtain ⟨reader, opened, rfl⟩ := Option.map_eq_some_iff.mp next
    exact .fetch _ opened
  · rename_i pc
    exact threadStep_move pc next
  · rename_i pc
    exact processStep_move pc next
  · cases next

end Copy

end FileTransfer
