import FileTransfer.Threads.CircularBuffer

/-!
# What the indices mean in the middle of two calls

Behind `head_` and `tail_` stand two unbounded positions, the numbers of bytes released by
the reader and accepted from the writer. `Shared` says how the buffer represents them,
`WriterOk` and `ReaderOk` what the values a thread has already loaded still mean after the
other thread has moved on: the writer's free cell stays free because only the writer fills
cells, and the reader's window stays intact because only the reader frees cells. Together
they are `Ring.Inv`, which every access of either thread keeps.
-/

namespace FileTransfer.Threads

open CircularBuffer Cyclic

/-- The buffer holds `accepted` from position `consumed.length` on. -/
structure Shared (capacity : Nat) (b : CircularBuffer) (consumed accepted : List UInt8) :
    Prop where
  head : b.head = consumed.length % capacity
  tail : b.tail = accepted.length % capacity
  ordered : consumed.length ≤ accepted.length
  within : accepted.length < consumed.length + capacity
  content : accepted = consumed ++
    window b.data capacity consumed.length (accepted.length - consumed.length)

/-- The values loaded by the writer. -/
def WriterOk (capacity : Nat) (b : CircularBuffer) (consumed accepted : List UInt8) :
    WriterPc → Prop
  | .loadHead _ _ tail next => tail = b.tail ∧ next = (accepted.length + 1) % capacity
  | .storeData _ _ tail next =>
    tail = b.tail ∧ next = (accepted.length + 1) % capacity ∧
      accepted.length + 1 < consumed.length + capacity
  | .storeTail item _ next =>
    b.data b.tail = item ∧ next = (accepted.length + 1) % capacity ∧
      accepted.length + 1 < consumed.length + capacity
  | _ => True

/-- The values loaded by the reader. -/
def ReaderOk (capacity : Nat) (b : CircularBuffer) (consumed accepted : List UInt8) :
    ReaderPc → Prop
  | .sizeTail head => head = b.head
  | .loadHead n => n ≤ accepted.length - consumed.length
  | .copy n head chunk =>
    head = b.head ∧ n ≤ accepted.length - consumed.length ∧ chunk.length ≤ n ∧
      chunk = window b.data capacity consumed.length chunk.length
  | .storeHead chunk head =>
    head = (consumed.length + chunk.length) % capacity ∧
      chunk.length ≤ accepted.length - consumed.length ∧
      chunk = window b.data capacity consumed.length chunk.length
  | .enableWriting _ head => head = b.head
  | .loadTail _ head => head = b.head
  | _ => True

/-- The chunk a read has released by its store of `head_` but not yet returned. -/
def ReaderPc.released : ReaderPc → List UInt8
  | .enableWriting chunk _ => chunk
  | .loadTail chunk _ => chunk
  | .disableReading chunk => chunk
  | .done chunk => chunk
  | _ => []

/-- The bytes taken out of the buffer. -/
def Ring.consumed (r : Ring) : List UInt8 := r.returned.flatten ++ r.reader.released

structure Ring.Inv (capacity : Nat) (r : Ring) : Prop where
  shared : Shared capacity r.buffer r.consumed r.accepted
  writer : WriterOk capacity r.buffer r.consumed r.accepted r.writer
  reader : ReaderOk capacity r.buffer r.consumed r.accepted r.reader

section Arithmetic

variable {capacity : Nat} (two : 2 ≤ capacity) (addressable : capacity ≤ 2 ^ 63)
include two addressable

theorem nextTail_mod (p : Nat) : nextTail capacity (p % capacity) = (p + 1) % capacity := by
  have below : p % capacity < capacity := Nat.mod_lt _ (by omega)
  rw [nextTail, sizeAdd_eq (by omega), Nat.mod_add_mod]

theorem newHead_mod {n : Nat} (p : Nat) (small : n ≤ capacity) :
    newHead capacity (p % capacity) n = (p + n) % capacity := by
  have below : p % capacity < capacity := Nat.mod_lt _ (by omega)
  rw [newHead, sizeAdd_eq (by omega), Nat.mod_add_mod]

theorem cellOf_mod {i : Nat} (p : Nat) (small : i ≤ capacity) :
    cellOf capacity (sizeAdd (p % capacity) i) = (p + i) % capacity := by
  have below : p % capacity < capacity := Nat.mod_lt _ (by omega)
  rw [cellOf, sizeAdd_eq (by omega), Nat.mod_add_mod]

/-- `GetDataSize` is the distance, without wrapping in `size_t`. -/
theorem getDataSize_eq_distance {h t : Nat} (hh : h < capacity) (ht : t < capacity) :
    getDataSize capacity h t = distance capacity h t := by
  unfold getDataSize distance
  split
  · rename_i le
    exact sizeSub_eq le (by omega)
  · rw [sizeSub_eq (by omega) (by omega), sizeAdd_eq (by omega)]

end Arithmetic

namespace Shared

variable {capacity : Nat} {b : CircularBuffer} {consumed accepted : List UInt8}

theorem getDataSize (h : Shared capacity b consumed accepted) (two : 2 ≤ capacity)
    (addressable : capacity ≤ 2 ^ 63) :
    getDataSize capacity b.head b.tail = accepted.length - consumed.length := by
  have positive : 0 < capacity := by omega
  rw [h.head, h.tail, getDataSize_eq_distance two addressable (Nat.mod_lt _ positive)
    (Nat.mod_lt _ positive), distance_mod h.ordered h.within]

theorem content_eq (h : Shared capacity b consumed accepted) (two : 2 ≤ capacity)
    (addressable : capacity ≤ 2 ^ 63) : accepted = consumed ++ b.content capacity := by
  rw [CircularBuffer.content, h.getDataSize two addressable, h.head, window_mod]
  exact h.content

/-- A store into the cell at `tail_` is outside the window. -/
theorem window_storeData (h : Shared capacity b consumed accepted) {n : Nat} {item : UInt8}
    (le : n ≤ accepted.length - consumed.length) :
    window (b.storeData b.tail item).data capacity consumed.length n =
      window b.data capacity consumed.length n := by
  have ordered := h.ordered
  have within := h.within
  apply window_update_of_ne
  intro i hi
  rw [h.tail]
  exact mod_ne_mod (by omega) (by omega)

theorem storeData (h : Shared capacity b consumed accepted) (item : UInt8) :
    Shared capacity (b.storeData b.tail item) consumed accepted where
  head := h.head
  tail := h.tail
  ordered := h.ordered
  within := h.within
  content := by rw [h.window_storeData (Nat.le_refl _)]; exact h.content

/-- Publishing the byte stored at `tail_`. -/
theorem storeTail (h : Shared capacity b consumed accepted)
    (room : accepted.length + 1 < consumed.length + capacity) :
    Shared capacity { b with tail := (accepted.length + 1) % capacity } consumed
      (accepted ++ [b.data b.tail]) where
  head := h.head
  tail := by simp
  ordered := by have := h.ordered; simp only [List.length_append, List.length_singleton]; omega
  within := by simpa using room
  content := by
    have ordered := h.ordered
    have grown : (accepted ++ [b.data b.tail]).length - consumed.length =
        accepted.length - consumed.length + 1 := by
      simp only [List.length_append, List.length_singleton]; omega
    have last : consumed.length + (accepted.length - consumed.length) = accepted.length := by omega
    rw [grown, window_succ, ← List.append_assoc, ← h.content, last, h.tail]

/-- Releasing the first bytes of the window. -/
theorem storeHead (h : Shared capacity b consumed accepted) {chunk : List UInt8}
    (le : chunk.length ≤ accepted.length - consumed.length)
    (copied : chunk = window b.data capacity consumed.length chunk.length) :
    Shared capacity { b with head := (consumed.length + chunk.length) % capacity }
      (consumed ++ chunk) accepted where
  head := by simp
  tail := h.tail
  ordered := by have := h.ordered; simp only [List.length_append]; omega
  within := by have := h.within; simp only [List.length_append]; omega
  content := by
    have ordered := h.ordered
    have parts : accepted.length - consumed.length =
        chunk.length + (accepted.length - (consumed ++ chunk).length) := by
      simp only [List.length_append]; omega
    have whole := h.content
    rw [parts, window_add, ← copied, ← List.append_assoc] at whole
    simpa only [List.length_append] using whole

end Shared

section Frames

variable {capacity : Nat} {b b' : CircularBuffer} {consumed accepted : List UInt8}

/-- What the writer loaded survives the release of a chunk. -/
theorem WriterOk.release {pc : WriterPc} (h : WriterOk capacity b consumed accepted pc)
    (tail : b'.tail = b.tail) (data : b'.data = b.data) (chunk : List UInt8) :
    WriterOk capacity b' (consumed ++ chunk) accepted pc := by
  cases pc <;> simp only [WriterOk, tail, data, List.length_append] at h ⊢
  case loadHead => exact h
  case storeData => exact ⟨h.1, h.2.1, by omega⟩
  case storeTail => exact ⟨h.1, h.2.1, by omega⟩

/-- What the writer loaded does not depend on the flags. -/
theorem WriterOk.same {pc : WriterPc} (h : WriterOk capacity b consumed accepted pc)
    (tail : b'.tail = b.tail) (data : b'.data = b.data) :
    WriterOk capacity b' consumed accepted pc := by
  simpa using h.release tail data []

/-- What the reader loaded does not depend on the flags. -/
theorem ReaderOk.same {pc : ReaderPc} (h : ReaderOk capacity b consumed accepted pc)
    (head : b'.head = b.head) (data : b'.data = b.data) :
    ReaderOk capacity b' consumed accepted pc := by
  cases pc <;> simp only [ReaderOk, head, data] at h ⊢ <;> exact h

/-- The window being copied survives the writer's store. -/
theorem ReaderOk.storeData {pc : ReaderPc} (h : ReaderOk capacity b consumed accepted pc)
    (shared : Shared capacity b consumed accepted) (item : UInt8) :
    ReaderOk capacity (b.storeData b.tail item) consumed accepted pc := by
  cases pc <;> simp only [ReaderOk] at h ⊢
  case copy n head chunk =>
    obtain ⟨sameHead, le, below, copied⟩ := h
    exact ⟨sameHead, le, below, by rwa [shared.window_storeData (by omega)]⟩
  case storeHead chunk head =>
    obtain ⟨moved, le, copied⟩ := h
    exact ⟨moved, le, by rwa [shared.window_storeData le]⟩
  all_goals exact h

/-- A reader's snapshot stays below `tail_` when more is published. -/
theorem ReaderOk.publish {pc : ReaderPc} (h : ReaderOk capacity b consumed accepted pc)
    (next : Nat) (item : UInt8) :
    ReaderOk capacity { b with tail := next } consumed (accepted ++ [item]) pc := by
  cases pc <;> simp only [ReaderOk, List.length_append, List.length_singleton] at h ⊢
  case loadHead => omega
  case copy => exact ⟨h.1, by omega, h.2.2⟩
  case storeHead => exact ⟨h.1, by omega, h.2.2⟩
  all_goals exact h

end Frames

namespace Ring

variable {capacity : Nat} {r r' : Ring}

/-- Outside the part of a read between its store of `head_` and its return, the bytes taken
    out are the bytes returned. -/
theorem Inv.of_unreleased (none : r.reader.released = [])
    (shared : Shared capacity r.buffer r.returned.flatten r.accepted)
    (writer : WriterOk capacity r.buffer r.returned.flatten r.accepted r.writer)
    (reader : ReaderOk capacity r.buffer r.returned.flatten r.accepted r.reader) :
    Inv capacity r := by
  have same : r.consumed = r.returned.flatten := by rw [consumed, none, List.append_nil]
  exact ⟨same ▸ shared, same ▸ writer, same ▸ reader⟩

theorem Inv.start {b : CircularBuffer} (two : 2 ≤ capacity) (head : b.head = 0)
    (tail : b.tail = 0) : Inv capacity (Ring.start b) := by
  refine .of_unreleased rfl ⟨?_, ?_, Nat.le_refl _, ?_, rfl⟩ trivial trivial
  · simpa [Ring.start] using head
  · simpa [Ring.start] using tail
  · simp only [Ring.start, List.flatten_nil, List.length_nil]; omega

theorem Inv.callWrite {data : List UInt8} (h : Inv capacity r)
    (next : r.callWrite data = some r') : Inv capacity r' := by
  obtain ⟨-, rfl⟩ := callWrite_eq next
  exact ⟨h.shared, trivial, h.reader⟩

theorem Inv.callRead (h : Inv capacity r) (next : r.callRead = some r') : Inv capacity r' := by
  obtain ⟨outside, rfl⟩ := callRead_eq next
  obtain ⟨shared, writer, -⟩ := h
  simp only [consumed, outside, ReaderPc.released, List.append_nil] at shared writer
  exact .of_unreleased rfl shared writer trivial

/-- Every access of `BufferWriter::Write` keeps the invariant. -/
theorem Inv.writerStep (two : 2 ≤ capacity) (addressable : capacity ≤ 2 ^ 63)
    (h : Inv capacity r) (next : r.writerStep capacity = some r') : Inv capacity r' := by
  obtain ⟨shared, writer, reader⟩ := h
  cases writerStep_move next with
  | leave => exact ⟨shared, trivial, reader⟩
  | loadTail =>
    refine ⟨shared, ⟨rfl, ?_⟩, reader⟩
    rw [shared.tail]
    exact nextTail_mod two addressable _
  | full => exact ⟨shared, trivial, reader⟩
  | room room pc =>
    -- The head index loaded here may be stale, but a stale one is further from the tail.
    rw [pc] at writer
    rw [writer.2, shared.head] at room
    exact ⟨shared, ⟨writer.1, writer.2, succ_lt_of_mod_ne shared.within room⟩, reader⟩
  | disableWriting =>
    exact ⟨⟨shared.head, shared.tail, shared.ordered, shared.within, shared.content⟩, trivial,
      reader.same rfl rfl⟩
  | storeData pc =>
    rw [pc] at writer
    obtain ⟨rfl, nextEq, room⟩ := writer
    refine ⟨shared.storeData _, ⟨?_, nextEq, room⟩, reader.storeData shared _⟩
    exact Function.update_self ..
  | storeTail pc =>
    rw [pc] at writer
    obtain ⟨rfl, rfl, room⟩ := writer
    exact ⟨shared.storeTail room, trivial, reader.publish _ _⟩
  | enableReading =>
    exact ⟨⟨shared.head, shared.tail, shared.ordered, shared.within, shared.content⟩, trivial,
      reader.same rfl rfl⟩

/-- Every access of `BufferReader::Read` keeps the invariant. -/
theorem Inv.readerStep (two : 2 ≤ capacity) (addressable : capacity ≤ 2 ^ 63)
    (h : Inv capacity r) (next : r.readerStep capacity = some r') : Inv capacity r' := by
  obtain ⟨shared, writer, reader⟩ := h
  have within := shared.within
  unfold consumed at shared writer reader within
  cases readerStep_move next <;> rename_i pc <;>
    simp only [pc, ReaderPc.released, ReaderOk, List.append_nil] at shared writer reader within
  case sizeHead => exact .of_unreleased rfl shared writer rfl
  case sizeTail =>
    subst reader
    exact .of_unreleased rfl shared writer (shared.getDataSize two addressable).le
  case loadHead => exact .of_unreleased rfl shared writer ⟨rfl, reader, Nat.zero_le _, rfl⟩
  case copy dataSize head chunk more =>
    obtain ⟨sameHead, le, below, copied⟩ := reader
    have grown : (chunk ++ [r.buffer.data (cellOf capacity (sizeAdd head chunk.length))]).length =
        chunk.length + 1 := by simp
    refine .of_unreleased rfl shared writer ⟨sameHead, le, by omega, ?_⟩
    rw [grown, window_succ, ← copied, sameHead, shared.head,
      cellOf_mod two addressable _ (by omega)]
  case copied dataSize head chunk done =>
    obtain ⟨sameHead, le, below, copied⟩ := reader
    have all : chunk.length = dataSize := by omega
    refine .of_unreleased rfl shared writer ⟨?_, all ▸ le, copied⟩
    rw [shared.head, newHead_mod two addressable _ (by omega), ← all]
  case storeHead chunk head =>
    obtain ⟨moved, le, copied⟩ := reader
    have released := shared.storeHead le copied
    rw [← moved] at released
    exact ⟨released, writer.release rfl rfl chunk, rfl⟩
  case enableWriting =>
    exact ⟨⟨shared.head, shared.tail, shared.ordered, shared.within, shared.content⟩,
      writer.same rfl rfl, reader⟩
  case empty => exact ⟨shared, writer, trivial⟩
  case filled => exact ⟨shared, writer, trivial⟩
  case disableReading =>
    exact ⟨⟨shared.head, shared.tail, shared.ordered, shared.within, shared.content⟩,
      writer.same rfl rfl, trivial⟩
  case leave chunk =>
    have returned : (r.returned ++ [chunk]).flatten = r.returned.flatten ++ chunk := by simp
    exact .of_unreleased rfl (returned ▸ shared) (returned ▸ writer) trivial

theorem Inv.step (two : 2 ≤ capacity) (addressable : capacity ≤ 2 ^ 63) {a : RingAction}
    (h : Inv capacity r) (next : r.step capacity a = some r') : Inv capacity r' := by
  cases a with
  | callWrite data => exact h.callWrite next
  | writer => exact h.writerStep two addressable next
  | callRead => exact h.callRead next
  | reader => exact h.readerStep two addressable next

theorem Inv.of_reaches (two : 2 ≤ capacity) (addressable : capacity ≤ 2 ^ 63)
    (h : Inv capacity r) (run : Reaches capacity r r') : Inv capacity r' :=
  run.invariant h fun _ _ _ inv _ next => inv.step two addressable next

end Ring

end FileTransfer.Threads
