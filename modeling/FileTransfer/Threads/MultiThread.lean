import FileTransfer.FileStream.FileDataReader
import FileTransfer.Threads.RingFidelity

/-!
# The two threads of `MultiThreadTask`

The reading thread runs `FileDataTransferTask` over `SafeWriteDataAccess`, the writing thread
`BufferTransferTask` over `SafeReadDataAccess`. A step is one atomic load or store of a flag
or of `running_`, one access inside the buffer, or one call of the file writer. What the
reading thread does with its file is seen only through the calls it makes, so its state is
the list of the calls still to come.
-/

namespace FileTransfer.Threads

/-- Where the reading thread is in `FileDataTransferTask::Run` (`FileDataTransferTask.h:36`)
    and `SafeWriteDataAccess` (`SyncWriteDataAccess.h:34`). -/
inductive ProducerPc where
  /-- Between two calls on the data access. -/
  | next
  /-- The wait loop of `Write`, before `IsWritingEnabled` and before `IsRunning`. -/
  | writeSpin (chunk : List UInt8)
  | writeSpinRunning (chunk : List UInt8)
  /-- `if (!running_.load()) return`. -/
  | writeCheck (chunk : List UInt8)
  /-- In `writer_->Write(data)`. -/
  | writing (chunk : List UInt8)
  /-- `Write` has returned. -/
  | written (chunk : List UInt8)
  /-- The wait loop of `Stop`, and its store. -/
  | stopSpin
  | stopStore
  | finished
  deriving DecidableEq

/-- Where the writing thread is in `BufferTransferTask::Run` (`BufferTransferTask.h:36`) and
    `SafeReadDataAccess` (`SyncReadDataAccess.h:19`). -/
inductive ConsumerPc where
  /-- `while (syncDataAccess_->IsRunning())`. -/
  | loop
  /-- The wait loop of `Read`, before `IsReadingEnabled` and before `IsRunning`. -/
  | readSpin
  | readSpinRunning
  /-- `if (!running_.load()) return {}`. -/
  | readCheck
  /-- In `reader_->Read()`. -/
  | reading
  /-- Before `writer_->Write(data)`. -/
  | writing (chunk : List UInt8)
  /-- The handler of `std::runtime_error`, before its `Stop`. -/
  | stopping
  /-- `Run` has returned, by its loop or from the handler. -/
  | finished
  | failed
  deriving DecidableEq

namespace MultiThread

/-- The ring with the two threads round it. `written` collects the chunks passed to the file
    writer, `atCall` is what was accepted when the current `Write` was called. -/
structure State where
  ring : Ring
  running : Bool
  calls : List Call
  producer : ProducerPc
  consumer : ConsumerPc
  written : List (List UInt8)
  atCall : List UInt8

inductive Action where
  | producer
  | consumer
  /-- The file writer throws `std::runtime_error`. -/
  | consumerThrows
  deriving DecidableEq

/-- `MultiThreadTask::Create` and the start of `Run` (`MultiThreadTask.cpp:13`), for a reading
    thread that makes these calls. -/
def start (size : Nat) (calls : List Call) : Option State :=
  (CircularBuffer.create size).map fun buffer =>
    { ring := Ring.start buffer, running := true, calls := calls, producer := .next,
      consumer := .loop, written := [], atCall := [] }

/-- The start for a source file with this content. -/
def startCopy (size : Nat) (content : List UInt8) : Option State :=
  (FileDataTransferTask.loop FileDataReader.read (content.length + 1)
    (FileDataReader.create content defaultChunkSize)).bind fun (calls, _) => start size calls

def writingEnabled (s : State) : Bool := s.ring.buffer.state.writingEnabled

def readingEnabled (s : State) : Bool := s.ring.buffer.state.readingEnabled

/-- One step of the reading thread. -/
def producerStep (capacity : Nat) (s : State) : Option State :=
  match s.producer with
  | .next =>
    match s.calls with
    | [] => some { s with producer := .finished }
    | .write chunk :: calls =>
      some { s with calls := calls, producer := .writeSpin chunk, atCall := s.ring.accepted }
    | .stop :: calls => some { s with calls := calls, producer := .stopSpin }
  | .writeSpin chunk =>
    if writingEnabled s then some { s with producer := .writeCheck chunk }
    else some { s with producer := .writeSpinRunning chunk }
  | .writeSpinRunning chunk =>
    if s.running then some { s with producer := .writeSpin chunk }
    else some { s with producer := .writeCheck chunk }
  | .writeCheck chunk =>
    if s.running = true ∧ chunk ≠ [] then
      (s.ring.callWrite chunk).map fun ring => { s with ring := ring, producer := .writing chunk }
    else some { s with producer := .written chunk }
  | .writing chunk =>
    if s.ring.writer = .idle then some { s with producer := .written chunk }
    else (s.ring.writerStep capacity).map fun ring => { s with ring := ring }
  | .written _ => some { s with producer := .next }
  | .stopSpin => if writingEnabled s then some { s with producer := .stopStore } else some s
  | .stopStore => some { s with running := false, producer := .next }
  | .finished => none

/-- `writer_->Write` is skipped for an empty chunk. -/
def afterRead (chunk : List UInt8) : ConsumerPc := if chunk = [] then .loop else .writing chunk

/-- One step of the writing thread. -/
def consumerStep (capacity : Nat) (s : State) : Option State :=
  match s.consumer with
  | .loop =>
    if s.running then some { s with consumer := .readSpin }
    else some { s with consumer := .finished }
  | .readSpin =>
    if readingEnabled s then some { s with consumer := .readCheck }
    else some { s with consumer := .readSpinRunning }
  | .readSpinRunning =>
    if s.running then some { s with consumer := .readSpin }
    else some { s with consumer := .readCheck }
  | .readCheck =>
    if s.running then
      s.ring.callRead.map fun ring => { s with ring := ring, consumer := .reading }
    else some { s with consumer := .loop }
  | .reading =>
    match s.ring.reader with
    | .done chunk =>
      (s.ring.readerStep capacity).map fun ring =>
        { s with ring := ring, consumer := afterRead chunk }
    | _ => (s.ring.readerStep capacity).map fun ring => { s with ring := ring }
  | .writing chunk => some { s with written := s.written ++ [chunk], consumer := .loop }
  | .stopping => some { s with running := false, consumer := .failed }
  | .finished => none
  | .failed => none

def consumerThrows (s : State) : Option State :=
  match s.consumer with
  | .writing _ => some { s with consumer := .stopping }
  | _ => none

def step (capacity : Nat) (s : State) : Action → Option State
  | .producer => producerStep capacity s
  | .consumer => consumerStep capacity s
  | .consumerThrows => consumerThrows s

/-- The guard of the runs without an exception. -/
def noThrow (_ : State) (a : Action) : Prop := a ≠ .consumerThrows

/-- Some interleaving leads from `s` to `s'`, each step meeting `ok`. -/
abbrev Reaches (capacity : Nat) (ok : State → Action → Prop) (s s' : State) : Prop :=
  Transition.Reaches (step capacity) ok s s'

/-- What one step of the reading thread can do. -/
inductive ProducerMove (capacity : Nat) (s : State) : State → Prop
  | finish (none : s.calls = []) (pc : s.producer = .next) :
      ProducerMove capacity s { s with producer := .finished }
  | callWrite {chunk : List UInt8} {calls : List Call} (call : s.calls = .write chunk :: calls)
      (pc : s.producer = .next) :
      ProducerMove capacity s
        { s with calls := calls, producer := .writeSpin chunk, atCall := s.ring.accepted }
  | callStop {calls : List Call} (call : s.calls = .stop :: calls) (pc : s.producer = .next) :
      ProducerMove capacity s { s with calls := calls, producer := .stopSpin }
  | writeEnabled {chunk : List UInt8} (set : writingEnabled s = true)
      (pc : s.producer = .writeSpin chunk) :
      ProducerMove capacity s { s with producer := .writeCheck chunk }
  | writeDisabled {chunk : List UInt8} (pc : s.producer = .writeSpin chunk) :
      ProducerMove capacity s { s with producer := .writeSpinRunning chunk }
  | writeRunning {chunk : List UInt8} (pc : s.producer = .writeSpinRunning chunk) :
      ProducerMove capacity s { s with producer := .writeSpin chunk }
  | writeStopped {chunk : List UInt8} (stopped : s.running = false)
      (pc : s.producer = .writeSpinRunning chunk) :
      ProducerMove capacity s { s with producer := .writeCheck chunk }
  | enter {chunk : List UInt8} {ring : Ring} (running : s.running = true) (filled : chunk ≠ [])
      (call : s.ring.callWrite chunk = some ring) (pc : s.producer = .writeCheck chunk) :
      ProducerMove capacity s { s with ring := ring, producer := .writing chunk }
  | skip {chunk : List UInt8} (refused : ¬ (s.running = true ∧ chunk ≠ []))
      (pc : s.producer = .writeCheck chunk) :
      ProducerMove capacity s { s with producer := .written chunk }
  | access {chunk : List UInt8} {ring : Ring} (access : s.ring.writerStep capacity = some ring)
      (pc : s.producer = .writing chunk) :
      ProducerMove capacity s { s with ring := ring }
  | leave {chunk : List UInt8} (outside : s.ring.writer = .idle)
      (pc : s.producer = .writing chunk) :
      ProducerMove capacity s { s with producer := .written chunk }
  | returned {chunk : List UInt8} (pc : s.producer = .written chunk) :
      ProducerMove capacity s { s with producer := .next }
  | stopEnabled (set : writingEnabled s = true) (pc : s.producer = .stopSpin) :
      ProducerMove capacity s { s with producer := .stopStore }
  | stopDisabled (pc : s.producer = .stopSpin) : ProducerMove capacity s s
  | stopStore (pc : s.producer = .stopStore) :
      ProducerMove capacity s { s with running := false, producer := .next }

/-- What one step of the writing thread can do. -/
inductive ConsumerMove (capacity : Nat) (s : State) : State → Prop
  | again (running : s.running = true) (pc : s.consumer = .loop) :
      ConsumerMove capacity s { s with consumer := .readSpin }
  | finish (stopped : s.running = false) (pc : s.consumer = .loop) :
      ConsumerMove capacity s { s with consumer := .finished }
  | readEnabled (set : readingEnabled s = true) (pc : s.consumer = .readSpin) :
      ConsumerMove capacity s { s with consumer := .readCheck }
  | readDisabled (pc : s.consumer = .readSpin) :
      ConsumerMove capacity s { s with consumer := .readSpinRunning }
  | readRunning (pc : s.consumer = .readSpinRunning) :
      ConsumerMove capacity s { s with consumer := .readSpin }
  | readStopped (stopped : s.running = false) (pc : s.consumer = .readSpinRunning) :
      ConsumerMove capacity s { s with consumer := .readCheck }
  | enter {ring : Ring} (running : s.running = true) (call : s.ring.callRead = some ring)
      (pc : s.consumer = .readCheck) :
      ConsumerMove capacity s { s with ring := ring, consumer := .reading }
  | skip (pc : s.consumer = .readCheck) : ConsumerMove capacity s { s with consumer := .loop }
  | access {ring : Ring} (notDone : ∀ chunk, s.ring.reader ≠ .done chunk)
      (access : s.ring.readerStep capacity = some ring) (pc : s.consumer = .reading) :
      ConsumerMove capacity s { s with ring := ring }
  | leave {chunk : List UInt8} {ring : Ring} (done : s.ring.reader = .done chunk)
      (access : s.ring.readerStep capacity = some ring) (pc : s.consumer = .reading) :
      ConsumerMove capacity s { s with ring := ring, consumer := afterRead chunk }
  | write {chunk : List UInt8} (pc : s.consumer = .writing chunk) :
      ConsumerMove capacity s { s with written := s.written ++ [chunk], consumer := .loop }
  | fail (pc : s.consumer = .stopping) :
      ConsumerMove capacity s { s with running := false, consumer := .failed }

variable {capacity : Nat} {s s' : State}

theorem producerStep_move (next : producerStep capacity s = some s') :
    ProducerMove capacity s s' := by
  unfold producerStep at next
  split at next <;> rename_i pc
  · split at next <;> cases next <;> rename_i call
    · exact .finish call pc
    · exact .callWrite call pc
    · exact .callStop call pc
  · split at next <;> cases next <;> rename_i test
    · exact .writeEnabled test pc
    · exact .writeDisabled pc
  · split at next <;> cases next <;> rename_i test
    · exact .writeRunning pc
    · exact .writeStopped (by simpa using test) pc
  · split at next <;> rename_i test
    · obtain ⟨ring, call, rfl⟩ := Option.map_eq_some_iff.mp next
      exact .enter test.1 test.2 call pc
    · cases next; exact .skip test pc
  · split at next <;> rename_i test
    · cases next; exact .leave test pc
    · obtain ⟨ring, access, rfl⟩ := Option.map_eq_some_iff.mp next
      exact .access access pc
  · cases next; exact .returned pc
  · split at next <;> cases next <;> rename_i test
    · exact .stopEnabled test pc
    · exact .stopDisabled pc
  · cases next; exact .stopStore pc
  · cases next

theorem consumerStep_move (next : consumerStep capacity s = some s') :
    ConsumerMove capacity s s' := by
  unfold consumerStep at next
  split at next <;> rename_i pc
  · split at next <;> cases next <;> rename_i test
    · exact .again test pc
    · exact .finish (by simpa using test) pc
  · split at next <;> cases next <;> rename_i test
    · exact .readEnabled test pc
    · exact .readDisabled pc
  · split at next <;> cases next <;> rename_i test
    · exact .readRunning pc
    · exact .readStopped (by simpa using test) pc
  · split at next <;> rename_i test
    · obtain ⟨ring, call, rfl⟩ := Option.map_eq_some_iff.mp next
      exact .enter test call pc
    · cases next; exact .skip pc
  · split at next <;> rename_i test <;>
      obtain ⟨ring, access, rfl⟩ := Option.map_eq_some_iff.mp next
    · exact .leave test access pc
    · exact .access test access pc
  · cases next; exact .write pc
  · cases next; exact .fail pc
  · cases next
  · cases next

/-- An exception of the file writer only moves the writing thread to its handler. -/
theorem consumerThrows_eq (next : consumerThrows s = some s') :
    (∃ chunk, s.consumer = .writing chunk) ∧ s' = { s with consumer := .stopping } := by
  unfold consumerThrows at next
  split at next
  · rename_i chunk writing
    exact ⟨⟨chunk, writing⟩, (Option.some.inj next).symm⟩
  · cases next

end MultiThread

end FileTransfer.Threads
