import FileTransfer.Lib.Linearization
import FileTransfer.Threads.BackPressure
import FileTransfer.Threads.BoundedBuffer

/-!
# The ring buffer between two threads is the same queue

The operations of the buffer as wholes are those of a queue with `capacity - 1` places. The two
loops of `BufferWriter::Write` and `BufferReader::Read` make them access by access and at the same
time, and still every run is a run of that queue: a byte is pushed when `tail_` is stored, or turned
away when the load of `head_` finds the buffer full; a read takes the size when it loads `tail_`,
its bytes one by one, and drops them when it stores `head_`.
-/

namespace FileTransfer.Threads

open CircularBuffer Cyclic DataRefinement
open BoundedQueue (Operation Answer)
open Linearization (Takes)

namespace Ring

/-- The operation of the queue that an access commits, with the answer the loop goes on with. -/
def commit (capacity : Nat) (r : Ring) : RingAction → Option (Operation UInt8 × Answer UInt8)
  | .callWrite _ => none
  | .callRead => none
  | .writer =>
    match r.writer with
    -- Turned away: the loop goes on with the next byte.
    | .loadHead item _ _ next => if next = r.buffer.head then some (.push item, .done) else none
    | .storeTail item _ _ => some (.push item, .done)
    | _ => none
  | .reader =>
    match r.reader with
    | .sizeTail head => some (.size, .size (getDataSize capacity head r.buffer.tail))
    | .copy dataSize head chunk =>
      if chunk.length < dataSize then
        some (.get chunk.length,
          .item (r.buffer.data (cellOf capacity (sizeAdd head chunk.length))))
      else none
    | .storeHead chunk _ => some (.drop chunk.length, .done)
    | _ => none

/-- What is in the buffer. -/
def held (r : Ring) : List UInt8 := r.accepted.drop r.consumed.length

/-- The bytes passed to `BufferWriter::Write`. -/
def offered (actions : List RingAction) : List UInt8 :=
  actions.flatMap fun
    | .callWrite data => data
    | _ => []

/-- The bytes of the writing side of a history. -/
def pushed (history : List (Operation UInt8 × Answer UInt8)) : List UInt8 :=
  history.flatMap fun
    | (.push item, _) => [item]
    | _ => []

/-- The reading side of a history. -/
def readSide (history : List (Operation UInt8 × Answer UInt8)) :
    List (Operation UInt8 × Answer UInt8) :=
  history.filter fun
    | (.push _, _) => false
    | _ => true

/-- The bytes of a chunk, looked at in turn. -/
def gets (chunk : List UInt8) : List (Operation UInt8 × Answer UInt8) :=
  chunk.mapIdx fun i item => (.get i, .item item)

/-- What a `BufferReader::Read` that returns the chunk has done to the queue. -/
def readOf (chunk : List UInt8) : List (Operation UInt8 × Answer UInt8) :=
  (.size, .size chunk.length) :: gets chunk ++ [(.drop chunk.length, .done)]

end Ring

/-- What the `Read` in progress has done to the queue so far. -/
def ReaderPc.soFar : ReaderPc → List (Operation UInt8 × Answer UInt8)
  | .idle => []
  | .sizeHead => []
  | .sizeTail _ => []
  | .loadHead dataSize => [(.size, .size dataSize)]
  | .copy dataSize _ chunk => (.size, .size dataSize) :: Ring.gets chunk
  | .storeHead chunk _ => (.size, .size chunk.length) :: Ring.gets chunk
  | .enableWriting chunk _ => Ring.readOf chunk
  | .loadTail chunk _ => Ring.readOf chunk
  | .disableReading chunk => Ring.readOf chunk
  | .done chunk => Ring.readOf chunk

variable {capacity : Nat}

namespace Shared

variable {b : CircularBuffer} {consumed accepted : List UInt8}

/-- The next tail meets the head when all places are taken. -/
theorem full (h : Shared capacity b consumed accepted)
    (full : (accepted.length + 1) % capacity = b.head) :
    accepted.length - consumed.length = capacity - 1 := by
  have ordered := h.ordered
  have within := h.within
  by_contra room
  rw [h.head] at full
  exact mod_ne_mod (by omega : consumed.length < accepted.length + 1) (by omega) full.symm

/-- The bytes held, as the cells from `head_` on. -/
theorem held_eq (h : Shared capacity b consumed accepted) :
    accepted.drop consumed.length =
      window b.data capacity consumed.length (accepted.length - consumed.length) := by
  have content := h.content
  nth_rewrite 1 [content]
  exact List.drop_left

end Shared

namespace Ring

variable {r r' : Ring}

theorem length_held (r : Ring) : r.held.length = r.accepted.length - r.consumed.length :=
  List.length_drop

theorem Inv.writer_commits (h : Inv capacity r) (next : r.writerStep capacity = some r') :
    Takes (BoundedQueue.perform (capacity - 1)) r.held r'.held (commit capacity r .writer) := by
  obtain ⟨shared, writer, -⟩ := h
  have ordered := shared.ordered
  have length := length_held r
  unfold commit
  cases writerStep_move next <;> rename_i pc <;> simp only [pc, WriterOk] at writer ⊢
  case full item rest tail next full =>
    have all := shared.full (writer.2.symm.trans full)
    rw [if_pos full]
    simp only [Takes, BoundedQueue.perform]
    rw [if_neg (by omega)]
    rfl
  case room item rest tail next room =>
    rw [if_neg room]
    rfl
  case storeTail item rest next =>
    obtain ⟨-, -, room⟩ := writer
    simp only [Takes, BoundedQueue.perform]
    rw [if_pos (by omega), held, held, ← List.drop_append_of_le_length ordered]
    rfl
  all_goals rfl

theorem Inv.reader_commits (two : 2 ≤ capacity) (addressable : capacity ≤ 2 ^ 63)
    (h : Inv capacity r) (next : r.readerStep capacity = some r') :
    Takes (BoundedQueue.perform (capacity - 1)) r.held r'.held (commit capacity r .reader) := by
  obtain ⟨shared, -, reader⟩ := h
  have within := shared.within
  have size := shared.getDataSize two addressable
  have length := length_held r
  unfold commit
  cases readerStep_move next <;> rename_i pc <;> simp only [pc, ReaderOk] at reader ⊢
  case sizeTail head =>
    simp only [Takes, BoundedQueue.perform, Option.some.injEq, Prod.mk.injEq, Answer.size.injEq]
    rw [reader, size, length]
    refine ⟨rfl, ?_⟩
    simp [held, consumed, pc, ReaderPc.released]
  case copy dataSize head chunk more =>
    obtain ⟨sameHead, le, -, -⟩ := reader
    have there : r.held[chunk.length]? =
        some (r.buffer.data (cellOf capacity (sizeAdd head chunk.length))) := by
      rw [held, shared.held_eq, getElem?_window (by omega), sameHead, shared.head,
        cellOf_mod two addressable _ (by omega)]
    rw [if_pos more]
    simp only [Takes, BoundedQueue.perform, there, Option.map_some, Option.some.injEq,
      Prod.mk.injEq, true_and]
    simp [held, consumed, pc, ReaderPc.released]
  case copied dataSize head chunk all =>
    rw [if_neg all]
    simp [Takes, held, consumed, pc, ReaderPc.released]
  case storeHead chunk head =>
    obtain ⟨-, le, -⟩ := reader
    simp only [Takes, BoundedQueue.perform]
    rw [if_pos (by omega)]
    simp [held, consumed, pc, ReaderPc.released, List.drop_drop]
  all_goals simp [Takes, held, consumed, pc, ReaderPc.released]

/-- Every access commits as the queue answers. -/
theorem commits (two : 2 ≤ capacity) (addressable : capacity ≤ 2 ^ 63) :
    Linearization.Commits (step capacity) (commit capacity) (BoundedQueue.perform (capacity - 1))
      (Inv capacity) held := by
  intro r action r' inv next
  cases action with
  | callWrite data =>
    obtain ⟨-, rfl⟩ := callWrite_eq next
    rfl
  | callRead =>
    obtain ⟨outside, rfl⟩ := callRead_eq next
    simp [commit, Takes, held, consumed, outside, ReaderPc.released]
  | writer => exact inv.writer_commits next
  | reader => exact inv.reader_commits two addressable next

/-- Each thread's side of a history is what its calls ask for, in the order of its calls. -/
structure InOrder (capacity : Nat) (actions : List RingAction)
    (history : List (Operation UInt8 × Answer UInt8)) (r : Ring) : Prop where
  inv : Inv capacity r
  written : pushed history ++ r.writer.pending = offered actions
  read : readSide history = r.returned.flatMap readOf ++ r.reader.soFar

theorem gets_concat (chunk : List UInt8) (item : UInt8) :
    gets (chunk ++ [item]) = gets chunk ++ [(.get chunk.length, .item item)] := by
  simp [gets, List.mapIdx_append]

variable {actions : List RingAction} {history : List (Operation UInt8 × Answer UInt8)}

theorem pushed_append (first second : List (Operation UInt8 × Answer UInt8)) :
    pushed (first ++ second) = pushed first ++ pushed second := List.flatMap_append

theorem readSide_append (first second : List (Operation UInt8 × Answer UInt8)) :
    readSide (first ++ second) = readSide first ++ readSide second := List.filter_append ..

theorem offered_append (first second : List RingAction) :
    offered (first ++ second) = offered first ++ offered second := List.flatMap_append

theorem written_step (next : r.writerStep capacity = some r') :
    pushed (commit capacity r .writer).toList ++ r'.writer.pending = r.writer.pending ∧
      readSide (commit capacity r .writer).toList = [] := by
  unfold commit
  cases writerStep_move next <;> rename_i pc <;> simp only [pc]
  case full full =>
    rw [if_pos full]
    exact ⟨rfl, rfl⟩
  case room room =>
    rw [if_neg room]
    exact ⟨rfl, rfl⟩
  all_goals exact ⟨rfl, rfl⟩

theorem read_step (h : Inv capacity r) (next : r.readerStep capacity = some r') :
    r.returned.flatMap readOf ++ r.reader.soFar ++
        readSide (commit capacity r .reader).toList =
      r'.returned.flatMap readOf ++ r'.reader.soFar ∧
      pushed (commit capacity r .reader).toList = [] := by
  have reader := h.reader
  unfold commit
  cases readerStep_move next <;> rename_i pc <;> simp only [pc, ReaderOk] at reader ⊢
  case copy dataSize head chunk more =>
    rw [if_pos more]
    refine ⟨?_, rfl⟩
    simp [ReaderPc.soFar, readSide, gets_concat]
  case copied dataSize head chunk done =>
    obtain ⟨-, -, below, -⟩ := reader
    have all : chunk.length = dataSize := by omega
    rw [if_neg done]
    refine ⟨?_, rfl⟩
    simp [ReaderPc.soFar, readSide, all]
  case storeHead chunk head =>
    refine ⟨?_, rfl⟩
    simp [ReaderPc.soFar, readSide, readOf]
  case leave chunk =>
    refine ⟨?_, rfl⟩
    simp [ReaderPc.soFar, readSide]
  all_goals
    refine ⟨?_, rfl⟩
    simp [ReaderPc.soFar, readSide, gets]

theorem InOrder.step (two : 2 ≤ capacity) (addressable : capacity ≤ 2 ^ 63)
    (h : InOrder capacity actions history r) {action : RingAction}
    (next : r.step capacity action = some r') :
    InOrder capacity (actions ++ [action]) (history ++ (commit capacity r action).toList) r' := by
  obtain ⟨inv, written, read⟩ := h
  refine ⟨inv.step two addressable next, ?_, ?_⟩
  · rw [pushed_append, offered_append, ← written]
    cases action with
    | callWrite data =>
      obtain ⟨outside, rfl⟩ := callWrite_eq next
      simp [commit, pushed, offered, outside, WriterPc.pending]
    | callRead =>
      obtain ⟨-, rfl⟩ := callRead_eq next
      simp [commit, pushed, offered]
    | writer =>
      rw [List.append_assoc, (written_step next).1]
      simp [offered]
    | reader =>
      rw [(read_step inv next).2, (readerStep_frame next).1]
      simp [offered]
  · rw [readSide_append, read]
    cases action with
    | callWrite data =>
      obtain ⟨-, rfl⟩ := callWrite_eq next
      simp [commit, readSide]
    | callRead =>
      obtain ⟨outside, rfl⟩ := callRead_eq next
      simp [commit, readSide, outside, ReaderPc.soFar]
    | writer =>
      obtain ⟨reader, returned, -⟩ := writerStep_frame next
      rw [(written_step next).2, List.append_nil, reader, returned]
    | reader => exact (read_step inv next).1

end Ring

/-- For every capacity and every run of the two threads' calls: the operations that the run commits,
    in the order in which it commits them, are answered as by a queue with `size - 1` places, which
    ends with what the buffer holds. Each byte passed to a `Write` is pushed once, in the order of
    the calls and before its call returns; each `Read` takes the size, looks at that many bytes and
    drops them, and returns them. -/
theorem ring_linearizable {size : Nat} (two : 2 ≤ size) {b : CircularBuffer}
    (created : CircularBuffer.create size = some b) {actions : List RingAction} {r : Ring}
    (run : Transition.run (Ring.step size) (Ring.start b) actions = some r) :
    let history := Linearization.history (Ring.step size) (Ring.commit size) (Ring.start b) actions
    specify (BoundedQueue.perform (size - 1)) [] (history.map Prod.fst) =
        some (history.map Prod.snd, r.held) ∧
      Ring.pushed history ++ r.writer.pending = Ring.offered actions ∧
      Ring.readSide history = r.returned.flatMap Ring.readOf ++ r.reader.soFar ∧
      r.buffer.content size = r.held := by
  intro history
  obtain ⟨addressable, head, tail, -⟩ := CircularBuffer.create_spec created
  have start := Ring.Inv.start two head tail
  have legal := (Ring.commits two addressable).specify_history start
    (fun _ _ _ inv next => inv.step two addressable next) run
  have inOrder : Ring.InOrder size actions history r :=
    Linearization.run_induction (P := Ring.InOrder size) ⟨start, rfl, rfl⟩
      (fun _ _ _ _ _ h next => h.step two addressable next) run
  have shared := inOrder.inv.shared
  refine ⟨legal, inOrder.written, inOrder.read, ?_⟩
  rw [Ring.held, shared.held_eq, CircularBuffer.content, shared.getDataSize two addressable,
    shared.head, window_mod]

/-- At capacity two the second byte is turned away while the first is being read. -/
theorem ring_linearizable_small : ∃ b r actions, CircularBuffer.create 2 = some b ∧
    Transition.run (Ring.step 2) (Ring.start b) actions = some r ∧ r.returned = [[7]] ∧
    Linearization.history (Ring.step 2) (Ring.commit 2) (Ring.start b) actions =
      [(.push 7, .done), (.size, .size 1), (.get 0, .item 7), (.push 8, .done),
        (.drop 1, .done)] ∧
    specify (BoundedQueue.perform 1) [] [.push 7, .size, .get 0, .push 8, .drop 1] =
      some ([.done, .size 1, .item 7, .done, .done], r.held) := by
  have created : CircularBuffer.create 2 = some ⟨fun _ => 0, 0, 0, {}⟩ := rfl
  have run : Transition.run (Ring.step 2) (Ring.start ⟨fun _ => 0, 0, 0, {}⟩)
      [.callWrite [7, 8], .writer, .writer, .writer, .writer, .writer, .writer, .callRead, .reader,
        .reader, .reader, .reader, .writer, .writer, .reader, .reader, .reader, .reader, .reader,
        .reader, .writer] = some _ := rfl
  have legal := (ring_linearizable (by decide) created run).1
  exact ⟨_, _, _, created, run, rfl, rfl, legal⟩

end FileTransfer.Threads
