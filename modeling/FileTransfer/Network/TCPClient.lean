import FileTransfer.Network.Transfer
import FileTransfer.Lib.Transition

/-!
# Asynchronous sends from a buffer that is used again

`TCPClient::Write` (`TCPClient.h:64`) starts an `async_write` over the span it is given, and
that span is the `buffer_` of the reader's serializer. The operation may take bytes from there
until its completion handler has run, and handlers run only inside `io_context::run`, which the
client calls only in its constructor. So a send, once started, stays outstanding.
-/

namespace FileTransfer

namespace TCPClient

/-- The serializer whose `buffer_` a span points into. -/
inductive Buffer where
  | name
  | data
  deriving DecidableEq

/-- An outstanding `async_write` and how many bytes it has taken. -/
structure Send where
  buffer : Buffer
  size : Nat
  taken : Nat
  deriving DecidableEq

/-- Where the client is in `FileTransferTask::Run`: before a `Read` or a `Write` of the name or
    the data task, or before the `Stop`. -/
inductive Pc where
  | readName
  | writeName (size : Nat)
  | readData
  | writeData (size : Nat)
  | stop
  | finished
  deriving DecidableEq

/-- The client in the middle of `Run`. `memory` is the storage behind the two buffers, which
    `clear` leaves as it is; `written` collects the spans passed to `Write`, as they were then;
    `wire` is what has been put on the connection. -/
structure State where
  task : FileTransferTask
  pc : Pc
  connected : Bool
  memory : Buffer → List UInt8
  sends : List Send
  written : List (List UInt8)
  wire : List UInt8

inductive Action where
  | client
  /-- An outstanding send takes its next byte. -/
  | take (send : Nat)
  deriving DecidableEq

/-- The start of `Run` on a client that is connected. -/
def start (task : FileTransferTask) : State :=
  { task, pc := .readName, connected := true, memory := fun _ => [], sends := [], written := [],
    wire := [] }

/-- A frame packed into a buffer. The first frame is the longest, so the storage is never
    reallocated under an outstanding send. -/
def store (memory : Buffer → List UInt8) (buffer : Buffer) (frame : List UInt8) :
    Buffer → List UInt8 :=
  Function.update memory buffer (frame ++ (memory buffer).drop frame.length)

/-- `Write` (`TCPClient.h:64`). No handler closes the socket, as none runs. -/
def write (s : State) (buffer : Buffer) (size : Nat) : State :=
  if s.connected then
    { s with
      sends := s.sends ++ [{ buffer, size, taken := 0 }]
      written := s.written ++ [(s.memory buffer).take size] }
  else s

/-- One step of `Run`. -/
def clientStep (keystream : Keystream) (s : State) : Option State :=
  match s.pc with
  | .readName =>
    let read := s.task.nameReader.read keystream s.task.encryption
    let task := { s.task with nameReader := read.2.1, encryption := read.2.2 }
    if read.1 = [] then some { s with task, pc := .readData }
    else
      some { s with
        task, pc := .writeName read.1.length, memory := store s.memory .name read.1 }
  | .writeName size => some { write s .name size with pc := .readData }
  | .readData =>
    let read := FileDataSegmentReader.read keystream (s.task.dataReader, s.task.encryption)
    let task := { s.task with dataReader := read.2.1, encryption := read.2.2 }
    if read.1 = [] then some { s with task, pc := .stop }
    else
      some { s with
        task, pc := .writeData read.1.length, memory := store s.memory .data read.1 }
  | .writeData size => some { write s .data size with pc := .readData }
  | .stop => some { s with connected := false, pc := .finished }
  | .finished => none

/-- A send puts the next byte of its span, as the memory is now, on the connection. -/
def takeStep (s : State) (i : Nat) : Option State :=
  match s.sends[i]? with
  | some send =>
    if send.taken < send.size then
      (s.memory send.buffer)[send.taken]?.map fun byte =>
        { s with
          sends := s.sends.set i { send with taken := send.taken + 1 }
          wire := s.wire ++ [byte] }
    else none
  | none => none

def step (keystream : Keystream) (s : State) : Action → Option State
  | .client => clientStep keystream s
  | .take i => takeStep s i

/-- Some schedule of the sends leads from `s` to `s'`. -/
abbrev Reaches (keystream : Keystream) (s s' : State) : Prop :=
  Transition.Reaches (step keystream) (fun _ _ => True) s s'

/-- At most one send is outstanding, so none was when it was started; the memory of an
    outstanding send is as it was when the send was started; and the connection carries the
    written frames in order, all of them once all their bytes are taken. -/
structure Orderly (s : State) : Prop where
  single : s.sends.length ≤ 1
  kept : ∀ (i : Nat) (send : Send), s.sends[i]? = some send →
    s.written[i]? = some ((s.memory send.buffer).take send.size)
  ordered : s.wire <+: s.written.flatten
  complete : (∀ send ∈ s.sends, send.taken = send.size) → s.wire = s.written.flatten

variable {keystream : Keystream} {source content : List UInt8}
  {entropy : Nat → Vector UInt8 blockSize} {s s' : State}

/-- The run for an empty file: the name frame is sent, and nothing after it. -/
def NameOnly (keystream : Keystream) (source : List UInt8)
    (entropy : Nat → Vector UInt8 blockSize) (s : State) : Prop :=
  let named := (Serializer.create .typeFileName).pack keystream (.create entropy) source
  (s.pc = .readName ∧ s = start (FileTransferTask.forFile source [] entropy)) ∨
    (s.pc = .writeName named.1.length ∧ s.memory .name = named.1 ∧ s.sends = [] ∧
      s.written = [] ∧ s.wire = [] ∧ s.connected = true ∧
      s.task.dataReader.reader = .create [] defaultChunkSize) ∨
    ((s.pc = .readData ∨ s.pc = .stop ∨ s.pc = .finished) ∧ s.memory .name = named.1 ∧
      (∃ taken, taken ≤ named.1.length ∧
        s.sends = [{ buffer := .name, size := named.1.length, taken }] ∧
        s.wire = named.1.take taken) ∧
      s.written = [named.1] ∧
      (s.pc = .readData → s.task.dataReader.reader = .create [] defaultChunkSize))

theorem create_room (content : List UInt8) :
    0 < (FileDataReader.create content defaultChunkSize).chunkBuffer.length := by
  rw [FileDataReader.create, List.length_replicate]
  decide

/-- Reading the data of an empty file returns the empty span. -/
theorem read_empty (r : FileDataSegmentReader) (e : Encryption)
    (atEnd : r.reader = .create [] defaultChunkSize) :
    (FileDataSegmentReader.read keystream (r, e)).1 = [] := by
  obtain ⟨last, ended, -⟩ := @FileDataReader.read_end (.create [] defaultChunkSize)
    (fun _ => rfl) (create_room [])
  simp only [FileDataSegmentReader.read, atEnd, ended, Serializer.pack_nil]

theorem NameOnly.clientStep (named : source ≠ []) (h : NameOnly keystream source entropy s)
    (next : clientStep keystream s = some s') : NameOnly keystream source entropy s' := by
  have framed := @Serializer.pack_ne_nil keystream (.create .typeFileName) (.create entropy) _
    named
  obtain ⟨pc, rfl⟩ | ⟨pc, memory, sends, written, wire, connected, reader⟩ |
    ⟨pc, memory, sent, written, reader⟩ := h
  · simp only [TCPClient.clientStep, start, FileTransferTask.forFile,
      FileNameSegmentReader.read, framed, if_false] at next
    cases next
    exact .inr (.inl ⟨rfl, by simp [store], rfl, rfl, rfl, rfl, rfl⟩)
  · simp only [TCPClient.clientStep, pc, write, connected, if_true] at next
    cases next
    refine .inr (.inr ⟨.inl rfl, memory, ⟨0, Nat.zero_le _, ?_, ?_⟩, ?_, fun _ => reader⟩)
    · simp [sends]
    · simp [wire]
    · simp [written, memory]
  · rcases pc with pc | pc | pc
    · have none := @read_empty keystream _ s.task.encryption (reader pc)
      simp only [TCPClient.clientStep, pc, none, if_true] at next
      cases next
      exact .inr (.inr ⟨.inr (.inl rfl), memory, sent, written, by simp⟩)
    · simp only [TCPClient.clientStep, pc] at next
      cases next
      exact .inr (.inr ⟨.inr (.inr rfl), memory, sent, written, by simp⟩)
    · simp [TCPClient.clientStep, pc] at next

theorem NameOnly.takeStep {i : Nat} (h : NameOnly keystream source entropy s)
    (next : takeStep s i = some s') : NameOnly keystream source entropy s' := by
  rcases h with ⟨-, rfl⟩ | ⟨-, -, sends, -⟩ |
    ⟨pc, memory, ⟨taken, within, sends, wire⟩, written, reader⟩
  · simp [TCPClient.takeStep, start] at next
  · simp [TCPClient.takeStep, sends] at next
  · unfold TCPClient.takeStep at next
    cases i with
    | succ i => simp [sends] at next
    | zero =>
      simp only [sends, List.getElem?_cons_zero] at next
      split at next
      · rename_i more
        obtain ⟨byte, atByte, rfl⟩ := Option.map_eq_some_iff.mp next
        refine .inr (.inr ⟨pc, memory, ⟨taken + 1, more, rfl, ?_⟩, written, reader⟩)
        rw [memory] at atByte
        simp only [wire, List.take_add_one, atByte, Option.toList_some]
      · cases next

theorem NameOnly.orderly (h : NameOnly keystream source entropy s) : Orderly s := by
  obtain ⟨-, rfl⟩ | ⟨-, -, sends, written, wire, -⟩ |
    ⟨-, memory, ⟨taken, within, sends, wire⟩, written, -⟩ := h
  · exact ⟨by simp [start], by simp [start], by simp [start], by simp [start]⟩
  · exact ⟨by simp [sends], by simp [sends], by simp [wire], by simp [wire, written]⟩
  · refine ⟨by simp [sends], ?_, ?_, ?_⟩
    · intro i send isSend
      cases i with
      | zero =>
        simp only [sends, List.getElem?_cons_zero, Option.some.injEq] at isSend
        subst isSend
        simp [written, memory]
      | succ i => simp [sends] at isSend
    · simpa [wire, written] using List.take_prefix taken _
    · intro all
      have whole := all _ (by rw [sends]; exact List.mem_singleton_self _)
      simp only at whole
      simp [wire, written, whole]

/-- A file with any content makes the client start a second send over the first. -/
theorem two_sends (named : source ≠ []) (filled : content ≠ []) :
    ∃ s, Reaches keystream (start (FileTransferTask.forFile source content entropy)) s ∧
      s.sends.length = 2 := by
  have framed := @Serializer.pack_ne_nil keystream (.create .typeFileName) (.create entropy) _
    named
  have chunk : (FileDataReader.create content defaultChunkSize).read.1 ≠ [] := by
    rw [FileDataReader.read_more rfl (create_room content) filled, ← List.length_pos_iff,
      List.length_take]
    exact Nat.lt_min.mpr ⟨create_room content, List.length_pos_iff.mpr filled⟩
  have dataFrame := fun e => @Serializer.pack_ne_nil keystream (.create .typeFileData) e _ chunk
  obtain ⟨s, ran, two⟩ : ∃ s, Transition.run (step keystream)
      (start (FileTransferTask.forFile source content entropy))
      [.client, .client, .client, .client] = some s ∧ s.sends.length = 2 := by
    simp only [Transition.run, step, clientStep, start, FileTransferTask.forFile,
      FileNameSegmentReader.read, framed, if_false, write, if_true, FileDataSegmentReader.read,
      FileDataSegmentReader.create, dataFrame, Option.bind_some]
    exact ⟨_, rfl, rfl⟩
  exact ⟨s, .of_run _ ran fun _ _ _ => trivial, two⟩

/-- Over every schedule of the sends, the client keeps to the rules of its sends and puts the
    frames on the connection in order, if and only if there is no data to send after the
    name. -/
theorem orderly_iff_content_empty (keystream : Keystream) (source content : List UInt8)
    (entropy : Nat → Vector UInt8 blockSize) (named : source ≠ []) :
    (∀ s, Reaches keystream (start (FileTransferTask.forFile source content entropy)) s →
        Orderly s) ↔
      content = [] := by
  constructor
  · intro orderly
    by_contra filled
    obtain ⟨s, run, two⟩ := @two_sends keystream source content entropy named filled
    have single := (orderly s run).single
    omega
  · rintro rfl s run
    apply @NameOnly.orderly keystream source entropy
    apply run.invariant (.inl ⟨rfl, rfl⟩)
    intro t a u nameOnly _ next
    cases a with
    | client => exact nameOnly.clientStep named next
    | take i => exact nameOnly.takeStep next

/-- An empty file: the first byte of the name frame is on its way. -/
theorem orderly_iff_content_empty_small :
    ∃ s, Reaches (fun _ _ _ => 7)
        (start (FileTransferTask.forFile (ascii "a") [] fun _ => .replicate 16 2)) s ∧
      s.sends = [{ buffer := .name, size := 22, taken := 1 }] ∧ s.wire = [1] ∧ Orderly s := by
  have run : Reaches (fun _ _ _ => 7)
      (start (FileTransferTask.forFile (ascii "a") [] fun _ => .replicate 16 2)) _ :=
    .of_run [.client, .client, .take 0] rfl fun _ _ _ => trivial
  exact ⟨_, run, rfl, rfl, (orderly_iff_content_empty _ _ _ _ (by decide)).mpr rfl _ run⟩

/-- A one-byte file: the data frame's send is started while the name frame's is outstanding. -/
theorem second_send_overlaps : ¬ ∀ keystream source content entropy s, source ≠ [] →
    Reaches keystream (start (FileTransferTask.forFile source content entropy)) s →
    Orderly s := by
  intro always
  obtain ⟨s, run, two⟩ := @two_sends (fun _ _ _ => 7) (ascii "a") [1]
    (fun _ => .replicate 16 2) (by decide) (by decide)
  have single := (always _ _ _ _ s (by decide) run).single
  omega

end TCPClient

end FileTransfer
