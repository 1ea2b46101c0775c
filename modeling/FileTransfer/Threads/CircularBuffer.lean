import FileTransfer.Lib.Transition
import FileTransfer.Lib.Cyclic

/-!
# The circular buffer and its two users

`CircularBuffer` with the flags of `BufferStateSync`, and the two loops that run on it,
`BufferWriter::Write` in the reading thread and `BufferReader::Read` in the writing thread.
Both are step machines: a step performs at most one load or store of `head_`, `tail_`, a
flag or one cell of `data_`, and the position says which access comes next together with
the values already loaded. `Ring` is the buffer with one user of each kind in the middle of
a call, and two histories that the program does not keep: the bytes stored and published,
and the chunks returned.
-/

namespace FileTransfer.Threads

/-- `size_t` addition, modulo `2 ^ 64`. -/
def sizeAdd (a b : Nat) : Nat := (a + b) % 2 ^ 64

/-- `size_t` subtraction, modulo `2 ^ 64`. -/
def sizeSub (a b : Nat) : Nat := (a + (2 ^ 64 - b)) % 2 ^ 64

theorem sizeAdd_eq {a b : Nat} (h : a + b < 2 ^ 64) : sizeAdd a b = a + b := Nat.mod_eq_of_lt h

theorem sizeSub_eq {a b : Nat} (le : b ≤ a) (h : a < 2 ^ 64) : sizeSub a b = a - b := by
  have turn : a + (2 ^ 64 - b) = a - b + 2 ^ 64 := by omega
  rw [sizeSub, turn, Nat.add_mod_right, Nat.mod_eq_of_lt (by omega)]

/-- `BufferStateSync` (`BufferStateSync.h:4`), with its initial values. -/
structure BufferStateSync where
  writingEnabled : Bool := true
  readingEnabled : Bool := false
  deriving DecidableEq

/-- `CircularBuffer` (`CircularBuffer.h:13`): `data_`, `head_`, `tail_` and the flags behind
    `state_`. The constant `capacity_` is a parameter of the operations. -/
structure CircularBuffer where
  data : Nat → UInt8
  head : Nat
  tail : Nat
  state : BufferStateSync

namespace CircularBuffer

/-- `std::vector<char>::max_size`: a longer `resize` throws `std::length_error`. -/
def maxSize : Nat := 2 ^ 63 - 1

/-- The constructor (`CircularBuffer.h:29`) in in-memory mode: `dataVec_.resize(size)`
    throws or fills with zeros, and `head_` and `tail_` are value-initialised. -/
def create (size : Nat) : Option CircularBuffer :=
  if size ≤ maxSize then some { data := fun _ => 0, head := 0, tail := 0, state := {} } else none

/-- `BufferStateSetter::EnableWriting` (`BufferStateSetter.h:22`). -/
def enableWriting (b : CircularBuffer) : CircularBuffer :=
  { b with state := { b.state with writingEnabled := true } }

/-- `BufferStateSetter::EnableReading` (`BufferStateSetter.h:30`). -/
def enableReading (b : CircularBuffer) : CircularBuffer :=
  { b with state := { b.state with readingEnabled := true } }

/-- `BufferStateSetter::DisableWriting` (`BufferStateSetter.h:38`). -/
def disableWriting (b : CircularBuffer) : CircularBuffer :=
  { b with state := { b.state with writingEnabled := false } }

/-- `BufferStateSetter::DisableReading` (`BufferStateSetter.h:46`). -/
def disableReading (b : CircularBuffer) : CircularBuffer :=
  { b with state := { b.state with readingEnabled := false } }

/-- `data_[tail] = item`. -/
def storeData (b : CircularBuffer) (tail : Nat) (item : UInt8) : CircularBuffer :=
  { b with data := Function.update b.data tail item }

/-- `operator[]` (`CircularBuffer.h:53`): the cell an index names. -/
def cellOf (capacity index : Nat) : Nat := index % capacity

/-- `GetDataSize` (`CircularBuffer.h:62`) on the two values it loads. -/
def getDataSize (capacity head tail : Nat) : Nat :=
  if head ≤ tail then sizeSub tail head else sizeAdd (sizeSub capacity head) tail

/-- The next tail index in `Write` (`CircularBuffer.h:77`). -/
def nextTail (capacity tail : Nat) : Nat := sizeAdd tail 1 % capacity

/-- The new head index in `SetHead` (`CircularBuffer.h:107`). -/
def newHead (capacity head value : Nat) : Nat := sizeAdd head value % capacity

/-- The bytes held: the cells from `head_` up to `tail_`, going round. -/
def content (capacity : Nat) (b : CircularBuffer) : List UInt8 :=
  Cyclic.window b.data capacity b.head (getDataSize capacity b.head b.tail)

end CircularBuffer

/-- Where the reading thread is inside `BufferWriter::Write` (`BufferWriter.h:28`) and the
    `CircularBuffer::Write` (`CircularBuffer.h:74`) it calls for each byte. -/
inductive WriterPc where
  | idle
  /-- At the `for`, with the bytes still to be written. -/
  | forLoop (data : List UInt8)
  | loadHead (item : UInt8) (rest : List UInt8) (tail nextTail : Nat)
  | disableWriting (rest : List UInt8)
  | storeData (item : UInt8) (rest : List UInt8) (tail nextTail : Nat)
  | storeTail (item : UInt8) (rest : List UInt8) (nextTail : Nat)
  | enableReading (rest : List UInt8)
  deriving DecidableEq

/-- Where the writing thread is inside `BufferReader::Read` (`BufferReader.h:30`); `chunk` is
    the part of `chunk_` filled so far. -/
inductive ReaderPc where
  | idle
  /-- `GetDataSize`, before each of its two loads. -/
  | sizeHead
  | sizeTail (head : Nat)
  /-- `GetHead`. -/
  | loadHead (dataSize : Nat)
  | copy (dataSize head : Nat) (chunk : List UInt8)
  /-- `SetHead` (`CircularBuffer.h:104`), after its load of `head_`. -/
  | storeHead (chunk : List UInt8) (newHead : Nat)
  | enableWriting (chunk : List UInt8) (newHead : Nat)
  | loadTail (chunk : List UInt8) (newHead : Nat)
  | disableReading (chunk : List UInt8)
  | done (chunk : List UInt8)
  deriving DecidableEq

/-- The buffer with its two users. `accepted` collects the bytes stored and published
    through `tail_`, `returned` the chunks of the completed `BufferReader::Read` calls. -/
structure Ring where
  buffer : CircularBuffer
  writer : WriterPc
  reader : ReaderPc
  accepted : List UInt8
  returned : List (List UInt8)

/-- What may happen next: a thread outside an operation starts one, or a thread inside one
    makes its next access. -/
inductive RingAction where
  | callWrite (data : List UInt8)
  | writer
  | callRead
  | reader
  deriving DecidableEq

namespace Ring

open CircularBuffer

def start (b : CircularBuffer) : Ring :=
  { buffer := b, writer := .idle, reader := .idle, accepted := [], returned := [] }

def callWrite (r : Ring) (data : List UInt8) : Option Ring :=
  match r.writer with
  | .idle => some { r with writer := .forLoop data }
  | _ => none

def callRead (r : Ring) : Option Ring :=
  match r.reader with
  | .idle => some { r with reader := .sizeHead }
  | _ => none

/-- One access of `BufferWriter::Write`. -/
def writerStep (capacity : Nat) (r : Ring) : Option Ring :=
  match r.writer with
  | .idle => none
  | .forLoop [] => some { r with writer := .idle }
  | .forLoop (item :: rest) =>
    let tail := r.buffer.tail
    some { r with writer := .loadHead item rest tail (nextTail capacity tail) }
  | .loadHead item rest tail next =>
    if next = r.buffer.head then some { r with writer := .disableWriting rest }
    else some { r with writer := .storeData item rest tail next }
  -- The byte whose turn it was is gone: the loop goes on with the next one.
  | .disableWriting rest =>
    some { r with buffer := r.buffer.disableWriting, writer := .forLoop rest }
  | .storeData item rest tail next =>
    some { r with buffer := r.buffer.storeData tail item, writer := .storeTail item rest next }
  | .storeTail item rest next =>
    some { r with
      buffer := { r.buffer with tail := next }
      writer := .enableReading rest
      accepted := r.accepted ++ [item] }
  | .enableReading rest =>
    some { r with buffer := r.buffer.enableReading, writer := .forLoop rest }

/-- One access of `BufferReader::Read`. -/
def readerStep (capacity : Nat) (r : Ring) : Option Ring :=
  match r.reader with
  | .idle => none
  | .sizeHead => some { r with reader := .sizeTail r.buffer.head }
  | .sizeTail head =>
    some { r with reader := .loadHead (getDataSize capacity head r.buffer.tail) }
  | .loadHead dataSize => some { r with reader := .copy dataSize r.buffer.head [] }
  | .copy dataSize head chunk =>
    if chunk.length < dataSize then
      let cell := cellOf capacity (sizeAdd head chunk.length)
      some { r with reader := .copy dataSize head (chunk ++ [r.buffer.data cell]) }
    else some { r with reader := .storeHead chunk (newHead capacity r.buffer.head dataSize) }
  | .storeHead chunk head =>
    some { r with
      buffer := { r.buffer with head := head }, reader := .enableWriting chunk head }
  | .enableWriting chunk head =>
    some { r with buffer := r.buffer.enableWriting, reader := .loadTail chunk head }
  | .loadTail chunk head =>
    if head = r.buffer.tail then some { r with reader := .disableReading chunk }
    else some { r with reader := .done chunk }
  | .disableReading chunk =>
    some { r with buffer := r.buffer.disableReading, reader := .done chunk }
  | .done chunk => some { r with reader := .idle, returned := r.returned ++ [chunk] }

/-- The buffer under two free users: any chunks are written, reads come at any time. -/
def step (capacity : Nat) (r : Ring) : RingAction → Option Ring
  | .callWrite data => r.callWrite data
  | .writer => r.writerStep capacity
  | .callRead => r.callRead
  | .reader => r.readerStep capacity

/-- Some interleaving of the two users leads from `r` to `r'`. -/
abbrev Reaches (capacity : Nat) (r r' : Ring) : Prop :=
  Transition.Reaches (step capacity) (fun _ _ => True) r r'

/-- What one access of `BufferWriter::Write` can do. -/
inductive WriterMove (capacity : Nat) (r : Ring) : Ring → Prop
  | leave (pc : r.writer = .forLoop []) : WriterMove capacity r { r with writer := .idle }
  | loadTail {item : UInt8} {rest : List UInt8} (pc : r.writer = .forLoop (item :: rest)) :
      WriterMove capacity r
        { r with writer := .loadHead item rest r.buffer.tail (nextTail capacity r.buffer.tail) }
  | full {item : UInt8} {rest : List UInt8} {tail next : Nat}
      (full : next = r.buffer.head) (pc : r.writer = .loadHead item rest tail next) :
      WriterMove capacity r { r with writer := .disableWriting rest }
  | room {item : UInt8} {rest : List UInt8} {tail next : Nat}
      (room : next ≠ r.buffer.head) (pc : r.writer = .loadHead item rest tail next) :
      WriterMove capacity r { r with writer := .storeData item rest tail next }
  | disableWriting {rest : List UInt8} (pc : r.writer = .disableWriting rest) :
      WriterMove capacity r
        { r with buffer := r.buffer.disableWriting, writer := .forLoop rest }
  | storeData {item : UInt8} {rest : List UInt8} {tail next : Nat}
      (pc : r.writer = .storeData item rest tail next) :
      WriterMove capacity r
        { r with buffer := r.buffer.storeData tail item, writer := .storeTail item rest next }
  | storeTail {item : UInt8} {rest : List UInt8} {next : Nat}
      (pc : r.writer = .storeTail item rest next) :
      WriterMove capacity r
        { r with
          buffer := { r.buffer with tail := next }
          writer := .enableReading rest
          accepted := r.accepted ++ [item] }
  | enableReading {rest : List UInt8} (pc : r.writer = .enableReading rest) :
      WriterMove capacity r
        { r with buffer := r.buffer.enableReading, writer := .forLoop rest }

/-- What one access of `BufferReader::Read` can do. -/
inductive ReaderMove (capacity : Nat) (r : Ring) : Ring → Prop
  | sizeHead (pc : r.reader = .sizeHead) :
      ReaderMove capacity r { r with reader := .sizeTail r.buffer.head }
  | sizeTail {head : Nat} (pc : r.reader = .sizeTail head) :
      ReaderMove capacity r
        { r with reader := .loadHead (getDataSize capacity head r.buffer.tail) }
  | loadHead {dataSize : Nat} (pc : r.reader = .loadHead dataSize) :
      ReaderMove capacity r { r with reader := .copy dataSize r.buffer.head [] }
  | copy {dataSize head : Nat} {chunk : List UInt8} (more : chunk.length < dataSize)
      (pc : r.reader = .copy dataSize head chunk) :
      ReaderMove capacity r
        { r with
          reader := .copy dataSize head
            (chunk ++ [r.buffer.data (cellOf capacity (sizeAdd head chunk.length))]) }
  | copied {dataSize head : Nat} {chunk : List UInt8}
      (all : ¬ chunk.length < dataSize) (pc : r.reader = .copy dataSize head chunk) :
      ReaderMove capacity r
        { r with reader := .storeHead chunk (newHead capacity r.buffer.head dataSize) }
  | storeHead {chunk : List UInt8} {head : Nat} (pc : r.reader = .storeHead chunk head) :
      ReaderMove capacity r
        { r with buffer := { r.buffer with head := head }, reader := .enableWriting chunk head }
  | enableWriting {chunk : List UInt8} {head : Nat} (pc : r.reader = .enableWriting chunk head) :
      ReaderMove capacity r
        { r with buffer := r.buffer.enableWriting, reader := .loadTail chunk head }
  | empty {chunk : List UInt8} {head : Nat} (empty : head = r.buffer.tail)
      (pc : r.reader = .loadTail chunk head) :
      ReaderMove capacity r { r with reader := .disableReading chunk }
  | filled {chunk : List UInt8} {head : Nat} (filled : head ≠ r.buffer.tail)
      (pc : r.reader = .loadTail chunk head) :
      ReaderMove capacity r { r with reader := .done chunk }
  | disableReading {chunk : List UInt8} (pc : r.reader = .disableReading chunk) :
      ReaderMove capacity r
        { r with buffer := r.buffer.disableReading, reader := .done chunk }
  | leave {chunk : List UInt8} (pc : r.reader = .done chunk) :
      ReaderMove capacity r { r with reader := .idle, returned := r.returned ++ [chunk] }

variable {capacity : Nat} {r r' : Ring} {data : List UInt8}

theorem callWrite_eq (next : r.callWrite data = some r') :
    r.writer = .idle ∧ r' = { r with writer := .forLoop data } := by
  unfold callWrite at next
  split at next
  · rename_i outside
    exact ⟨outside, (Option.some.inj next).symm⟩
  · cases next

theorem callRead_eq (next : r.callRead = some r') :
    r.reader = .idle ∧ r' = { r with reader := .sizeHead } := by
  unfold callRead at next
  split at next
  · rename_i outside
    exact ⟨outside, (Option.some.inj next).symm⟩
  · cases next

theorem writerStep_move (next : r.writerStep capacity = some r') :
    WriterMove capacity r r' := by
  unfold writerStep at next
  split at next <;> rename_i pc
  · cases next
  · cases next; exact .leave pc
  · cases next; exact .loadTail pc
  · split at next <;> cases next <;> rename_i test
    · exact .full test pc
    · exact .room test pc
  · cases next; exact .disableWriting pc
  · cases next; exact .storeData pc
  · cases next; exact .storeTail pc
  · cases next; exact .enableReading pc

theorem readerStep_move (next : r.readerStep capacity = some r') :
    ReaderMove capacity r r' := by
  unfold readerStep at next
  split at next <;> rename_i pc
  · cases next
  · cases next; exact .sizeHead pc
  · cases next; exact .sizeTail pc
  · cases next; exact .loadHead pc
  · split at next <;> cases next <;> rename_i test
    · exact .copy test pc
    · exact .copied test pc
  · cases next; exact .storeHead pc
  · cases next; exact .enableWriting pc
  · split at next <;> cases next <;> rename_i test
    · exact .empty test pc
    · exact .filled test pc
  · cases next; exact .disableReading pc
  · cases next; exact .leave pc

end Ring

end FileTransfer.Threads
