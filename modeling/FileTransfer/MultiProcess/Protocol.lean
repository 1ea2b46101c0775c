import FileTransfer.FileStream.FileDataReader
import FileTransfer.Lib.Transition

/-!
# The sender and the receiver of multi-process mode

The sending process runs `FileDataTransferTask` over `SharedWriteDataAccess` and
`SharedWriteDataHandler`, the receiving process `BufferTransferTask` over
`SharedReadDataAccess` and `SharedReadDataHandler`. They share three semaphores and one
shared-memory object. What `SharedReadDataHandler::Read` returns is a view of that object and
not a copy, so the receiver's `writer_->Write` looks at the memory byte by byte while the
sender may be changing it.
-/

namespace FileTransfer.MultiProcess

/-- `shared_memory_object::truncate`: what is added to a shorter object is zero. -/
def truncate (memory : List UInt8) (size : Nat) : List UInt8 :=
  memory.take size ++ List.replicate (size - memory.length) 0

/-- The end of the last page of an object. -/
def pageEnd (page size : Nat) : Nat := (size + page - 1) / page * page

/-- The byte of a mapped view at an offset. Past the end of the object the last page reads as
    zero; what comes of a read beyond that page is not the program's to say. -/
def byteAt (page : Nat) (memory : List UInt8) (i : Nat) : Option UInt8 :=
  if i < memory.length then memory[i]? else if i < pageEnd page memory.length then some 0 else none

/-- Where the sender is in `FileDataTransferTask::Run` (`FileDataTransferTask.h:36`),
    `SharedWriteDataAccess` (`SharedWriteDataAccess.h:63`) and `SharedWriteDataHandler::Write`
    (`SharedWriteData.h:52`). -/
inductive SenderPc where
  /-- Between two calls on the data access. -/
  | next
  /-- `spaceAvailableSemaphore_->wait()`. -/
  | waitSpace (chunk : List UInt8)
  | truncate (chunk : List UInt8)
  | map (chunk : List UInt8)
  /-- The copy into `data_`, with the number of bytes already there. -/
  | copy (chunk : List UInt8) (i : Nat)
  /-- `dataAvailableSemaphore_->post()`. -/
  | postData (chunk : List UInt8)
  /-- The loop of `Stop`: the post and the `try_wait`. -/
  | stopPost
  | stopTry
  | finished
  deriving DecidableEq

/-- Where the receiver is in `BufferTransferTask::Run` (`BufferTransferTask.h:36`),
    `SharedReadDataAccess` (`SharedReadDataAccess.h:63`) and `SharedReadDataHandler::Read`
    (`SharedReadData.h:52`). -/
inductive ReceiverPc where
  /-- `while (syncDataAccess_->IsRunning())`. -/
  | loop
  /-- `dataAvailableSemaphore_->try_wait()`. -/
  | tryData
  | mapRead
  /-- `spaceAvailableSemaphore_->post()`, with the size of the view about to be returned. -/
  | postSpace (size : Nat)
  /-- In `writer_->Write(data)`, with what has been taken from the view so far. -/
  | writing (size : Nat) (done : List (Option UInt8))
  /-- The handler of `std::runtime_error`, before its `Stop`. -/
  | stopping
  /-- `Run` has returned, by its loop or from the handler. -/
  | finished
  | failed
  deriving DecidableEq

/-- The semaphores, the shared memory and the two parties. `published` collects the chunks
    whose data was posted, `taken` counts the successful waits on the data semaphore,
    `delivered` collects what was appended to the destination. -/
structure State where
  stop : Nat
  data : Nat
  space : Nat
  memory : List UInt8
  calls : List Call
  sender : SenderPc
  receiver : ReceiverPc
  published : List (List UInt8)
  taken : Nat
  delivered : List (List (Option UInt8))
  deriving DecidableEq

inductive Action where
  | sender
  /-- `truncate` or the mapping throws in the sender. -/
  | senderFault
  | receiver
  /-- The mapping throws in the receiver. -/
  | receiverFault
  /-- The file writer throws `std::runtime_error`. -/
  | receiverThrows
  deriving DecidableEq

/-- Fresh semaphores, whatever the shared memory holds, and a sender that makes these calls. -/
def start (memory : List UInt8) (calls : List Call) : State :=
  { stop := 0, data := 0, space := 1, memory := memory, calls := calls, sender := .next,
    receiver := .loop, published := [], taken := 0, delivered := [] }

/-- One step of the sender. -/
def senderStep (s : State) : Option State :=
  match s.sender with
  | .next =>
    match s.calls with
    | [] => some { s with sender := .finished }
    | .write chunk :: calls => some { s with calls := calls, sender := .waitSpace chunk }
    | .stop :: calls => some { s with calls := calls, sender := .stopPost }
  | .waitSpace chunk =>
    if 0 < s.space then some { s with space := s.space - 1, sender := .truncate chunk } else none
  | .truncate chunk =>
    some { s with memory := truncate s.memory chunk.length, sender := .map chunk }
  -- An object of size zero cannot be mapped; the handler swallows the exception.
  | .map chunk =>
    if s.memory = [] then some { s with sender := .postData chunk }
    else some { s with sender := .copy chunk 0 }
  | .copy chunk i =>
    match chunk[i]? with
    | some byte => some { s with memory := s.memory.set i byte, sender := .copy chunk (i + 1) }
    | none => some { s with sender := .postData chunk }
  | .postData chunk =>
    some { s with data := s.data + 1, sender := .next, published := s.published ++ [chunk] }
  | .stopPost => some { s with stop := s.stop + 1, sender := .stopTry }
  | .stopTry =>
    if 0 < s.space then some { s with space := s.space - 1, sender := .next }
    else some { s with sender := .stopPost }
  | .finished => none

/-- An exception in `SharedWriteDataHandler::Write` does not leave it: the data is posted. -/
def senderFault (s : State) : Option State :=
  match s.sender with
  | .truncate chunk => some { s with sender := .postData chunk }
  | .map chunk => some { s with sender := .postData chunk }
  | _ => none

/-- One step of the receiver. -/
def receiverStep (page : Nat) (s : State) : Option State :=
  match s.receiver with
  | .loop =>
    if 0 < s.stop then some { s with stop := s.stop - 1, receiver := .finished }
    else some { s with receiver := .tryData }
  | .tryData =>
    if 0 < s.data then
      some { s with data := s.data - 1, taken := s.taken + 1, receiver := .mapRead }
    else some { s with receiver := .loop }
  | .mapRead => some { s with receiver := .postSpace s.memory.length }
  | .postSpace size =>
    if size = 0 then some { s with space := s.space + 1, receiver := .loop }
    else some { s with space := s.space + 1, receiver := .writing size [] }
  | .writing size done =>
    if done.length < size then
      some { s with receiver := .writing size (done ++ [byteAt page s.memory done.length]) }
    else some { s with receiver := .loop, delivered := s.delivered ++ [done] }
  | .stopping => some { s with space := s.space + 1, receiver := .failed }
  | .finished => none
  | .failed => none

/-- An exception in `SharedReadDataHandler::Read` does not leave it: the empty span is
    returned. -/
def receiverFault (s : State) : Option State :=
  match s.receiver with
  | .mapRead => some { s with receiver := .postSpace 0 }
  | _ => none

def receiverThrows (s : State) : Option State :=
  match s.receiver with
  | .writing _ _ => some { s with receiver := .stopping }
  | _ => none

def step (page : Nat) (s : State) : Action → Option State
  | .sender => senderStep s
  | .senderFault => senderFault s
  | .receiver => receiverStep page s
  | .receiverFault => receiverFault s
  | .receiverThrows => receiverThrows s

/-- The guard of the runs without failures. -/
def noFault (_ : State) (a : Action) : Prop := a = .sender ∨ a = .receiver

instance (s : State) (a : Action) : Decidable (noFault s a) :=
  inferInstanceAs (Decidable (_ ∨ _))

/-- Some interleaving leads from `s` to `s'`, each step meeting `ok`. -/
abbrev Reaches (page : Nat) (ok : State → Action → Prop) (s s' : State) : Prop :=
  Transition.Reaches (step page) ok s s'

/-- What one step of the sender can do. -/
inductive SenderMove (s : State) : State → Prop
  | finish (none : s.calls = []) (pc : s.sender = .next) :
      SenderMove s { s with sender := .finished }
  | callWrite {chunk : List UInt8} {calls : List Call} (call : s.calls = .write chunk :: calls)
      (pc : s.sender = .next) :
      SenderMove s { s with calls := calls, sender := .waitSpace chunk }
  | callStop {calls : List Call} (call : s.calls = .stop :: calls) (pc : s.sender = .next) :
      SenderMove s { s with calls := calls, sender := .stopPost }
  | takeSpace {chunk : List UInt8} (free : 0 < s.space) (pc : s.sender = .waitSpace chunk) :
      SenderMove s { s with space := s.space - 1, sender := .truncate chunk }
  | truncate {chunk : List UInt8} (pc : s.sender = .truncate chunk) :
      SenderMove s { s with memory := truncate s.memory chunk.length, sender := .map chunk }
  | mapEmpty {chunk : List UInt8} (empty : s.memory = []) (pc : s.sender = .map chunk) :
      SenderMove s { s with sender := .postData chunk }
  | map {chunk : List UInt8} (pc : s.sender = .map chunk) :
      SenderMove s { s with sender := .copy chunk 0 }
  | copy {chunk : List UInt8} {i : Nat} {byte : UInt8} (more : chunk[i]? = some byte)
      (pc : s.sender = .copy chunk i) :
      SenderMove s { s with memory := s.memory.set i byte, sender := .copy chunk (i + 1) }
  | copied {chunk : List UInt8} {i : Nat} (all : chunk[i]? = none)
      (pc : s.sender = .copy chunk i) :
      SenderMove s { s with sender := .postData chunk }
  | postData {chunk : List UInt8} (pc : s.sender = .postData chunk) :
      SenderMove s
        { s with data := s.data + 1, sender := .next, published := s.published ++ [chunk] }
  | stopPost (pc : s.sender = .stopPost) :
      SenderMove s { s with stop := s.stop + 1, sender := .stopTry }
  | stopTaken (free : 0 < s.space) (pc : s.sender = .stopTry) :
      SenderMove s { s with space := s.space - 1, sender := .next }
  | stopAgain (pc : s.sender = .stopTry) : SenderMove s { s with sender := .stopPost }

/-- What one step of the receiver can do. -/
inductive ReceiverMove (page : Nat) (s : State) : State → Prop
  | leave (post : 0 < s.stop) (pc : s.receiver = .loop) :
      ReceiverMove page s { s with stop := s.stop - 1, receiver := .finished }
  | poll (unposted : ¬ 0 < s.stop) (pc : s.receiver = .loop) :
      ReceiverMove page s { s with receiver := .tryData }
  | takeData (full : 0 < s.data) (pc : s.receiver = .tryData) :
      ReceiverMove page s
        { s with data := s.data - 1, taken := s.taken + 1, receiver := .mapRead }
  | noData (empty : ¬ 0 < s.data) (pc : s.receiver = .tryData) :
      ReceiverMove page s { s with receiver := .loop }
  | map (pc : s.receiver = .mapRead) :
      ReceiverMove page s { s with receiver := .postSpace s.memory.length }
  | returnEmpty {size : Nat} (empty : size = 0) (pc : s.receiver = .postSpace size) :
      ReceiverMove page s { s with space := s.space + 1, receiver := .loop }
  | returnView {size : Nat} (filled : size ≠ 0) (pc : s.receiver = .postSpace size) :
      ReceiverMove page s { s with space := s.space + 1, receiver := .writing size [] }
  | write {size : Nat} {done : List (Option UInt8)} (more : done.length < size)
      (pc : s.receiver = .writing size done) :
      ReceiverMove page s
        { s with receiver := .writing size (done ++ [byteAt page s.memory done.length]) }
  | written {size : Nat} {done : List (Option UInt8)} (all : ¬ done.length < size)
      (pc : s.receiver = .writing size done) :
      ReceiverMove page s { s with receiver := .loop, delivered := s.delivered ++ [done] }
  | fail (pc : s.receiver = .stopping) :
      ReceiverMove page s { s with space := s.space + 1, receiver := .failed }

variable {page : Nat} {s s' : State}

theorem senderStep_move (next : senderStep s = some s') : SenderMove s s' := by
  unfold senderStep at next
  split at next <;> rename_i pc
  · split at next <;> cases next <;> rename_i call
    · exact .finish call pc
    · exact .callWrite call pc
    · exact .callStop call pc
  · split at next <;> cases next
    exact .takeSpace ‹_› pc
  · cases next; exact .truncate pc
  · split at next <;> cases next <;> rename_i test
    · exact .mapEmpty test pc
    · exact .map pc
  · split at next <;> cases next <;> rename_i test
    · exact .copy test pc
    · exact .copied test pc
  · cases next; exact .postData pc
  · cases next; exact .stopPost pc
  · split at next <;> cases next <;> rename_i test
    · exact .stopTaken test pc
    · exact .stopAgain pc
  · cases next

theorem receiverStep_move (next : receiverStep page s = some s') : ReceiverMove page s s' := by
  unfold receiverStep at next
  split at next <;> rename_i pc
  · split at next <;> cases next <;> rename_i test
    · exact .leave test pc
    · exact .poll test pc
  · split at next <;> cases next <;> rename_i test
    · exact .takeData test pc
    · exact .noData test pc
  · cases next; exact .map pc
  · split at next <;> cases next <;> rename_i test
    · exact .returnEmpty test pc
    · exact .returnView test pc
  · split at next <;> cases next <;> rename_i test
    · exact .write test pc
    · exact .written test pc
  · cases next; exact .fail pc
  · cases next
  · cases next

end FileTransfer.MultiProcess
