import FileTransfer.Lib.DataRefinement
import FileTransfer.Threads.RingInvariant

/-!
# The circular buffer is a bounded queue

The operations of `CircularBuffer` as wholes, one after the other, against a queue that has room
for one byte less than there are cells.
-/

namespace FileTransfer.Threads

open CircularBuffer Cyclic DataRefinement

namespace CircularBuffer

/-- The buffer after its constructor, on a new vector or on a view of a file. -/
def initial (memory : Nat → UInt8) : CircularBuffer :=
  { data := memory, head := 0, tail := 0, state := {} }

/-- `operator[]` (`CircularBuffer.h:53`). -/
def get (capacity : Nat) (b : CircularBuffer) (index : Nat) : UInt8 :=
  b.data (cellOf capacity index)

/-- `GetDataSize` (`CircularBuffer.h:62`). -/
def dataSize (capacity : Nat) (b : CircularBuffer) : Nat := getDataSize capacity b.head b.tail

/-- `Write` (`CircularBuffer.h:74`). -/
def write (capacity : Nat) (b : CircularBuffer) (item : UInt8) : CircularBuffer :=
  let tail := b.tail
  let next := nextTail capacity tail
  if next = b.head then b.disableWriting
  else { b.storeData tail item with tail := next }.enableReading

/-- `GetHead` (`CircularBuffer.h:95`). -/
def getHead (b : CircularBuffer) : Nat := b.head

/-- `SetHead` (`CircularBuffer.h:104`). -/
def setHead (capacity : Nat) (b : CircularBuffer) (value : Nat) : CircularBuffer :=
  let head := newHead capacity b.head value
  let b := { b with head := head }.enableWriting
  if head = b.tail then b.disableReading else b

/-- The operations of a queue, on the buffer. -/
def perform (capacity : Nat) (b : CircularBuffer) :
    BoundedQueue.Operation UInt8 → BoundedQueue.Answer UInt8 × CircularBuffer
  | .push item => (.done, b.write capacity item)
  | .size => (.size (b.dataSize capacity), b)
  | .get i => (.item (b.get capacity (sizeAdd b.getHead i)), b)
  | .drop n => (.done, b.setHead capacity n)

/-- The buffer holds the queue; `readingEnabled_` says whether there is something in it, and where
    `writingEnabled_` is not set there is no room. -/
structure Represents (capacity : Nat) (b : CircularBuffer) (q : List UInt8) : Prop where
  shared : ∃ consumed, Shared capacity b consumed (consumed ++ q)
  reading : b.state.readingEnabled = true ↔ q ≠ []
  writing : b.state.writingEnabled = false → q.length = capacity - 1

/-- No index that an operation computes is wrapped modulo `2 ^ 64`. -/
structure NoWrap (capacity : Nat) (b : CircularBuffer) (size : Nat) : Prop where
  write : b.tail + 1 < 2 ^ 64
  dataSize : b.tail < b.head → b.head ≤ capacity ∧ capacity - b.head + b.tail < 2 ^ 64
  get : ∀ i < size, b.head + i < 2 ^ 64
  setHead : ∀ n ≤ size, b.head + n < 2 ^ 64

end CircularBuffer

section

variable {capacity : Nat} {b : CircularBuffer} {consumed q : List UInt8}

namespace CircularBuffer

theorem setHead_empty {n : Nat} (empty : newHead capacity b.head n = b.tail) :
    b.setHead capacity n =
      { b with head := newHead capacity b.head n }.enableWriting.disableReading :=
  if_pos empty

theorem setHead_filled {n : Nat} (filled : newHead capacity b.head n ≠ b.tail) :
    b.setHead capacity n = { b with head := newHead capacity b.head n }.enableWriting :=
  if_neg filled

end CircularBuffer

namespace CircularBuffer.Represents

theorem initial (two : 2 ≤ capacity) (memory : Nat → UInt8) :
    Represents capacity (initial memory) [] := by
  refine ⟨⟨[], ?_, ?_, Nat.le_refl _, ?_, rfl⟩, ?_, ?_⟩
  · rfl
  · rfl
  · rw [List.append_nil, List.length_nil]
    omega
  · simp [CircularBuffer.initial]
  · intro disabled
    cases disabled

theorem dataSize (h : Represents capacity b q) (two : 2 ≤ capacity)
    (addressable : capacity ≤ 2 ^ 63) : b.dataSize capacity = q.length := by
  obtain ⟨consumed, shared⟩ := h.shared
  rw [CircularBuffer.dataSize, shared.getDataSize two addressable, List.length_append]
  omega

theorem content (h : Represents capacity b q) (two : 2 ≤ capacity)
    (addressable : capacity ≤ 2 ^ 63) : b.content capacity = q := by
  obtain ⟨consumed, shared⟩ := h.shared
  exact (List.append_cancel_left (shared.content_eq two addressable)).symm

theorem head_lt (h : Represents capacity b q) (two : 2 ≤ capacity) : b.head < capacity := by
  obtain ⟨consumed, shared⟩ := h.shared
  rw [shared.head]
  exact Nat.mod_lt _ (by omega)

theorem tail_lt (h : Represents capacity b q) (two : 2 ≤ capacity) : b.tail < capacity := by
  obtain ⟨consumed, shared⟩ := h.shared
  rw [shared.tail]
  exact Nat.mod_lt _ (by omega)

theorem length_lt (h : Represents capacity b q) : q.length < capacity := by
  obtain ⟨consumed, shared⟩ := h.shared
  have within := shared.within
  rw [List.length_append] at within
  omega

theorem noWrap (h : Represents capacity b q) (two : 2 ≤ capacity)
    (addressable : capacity ≤ 2 ^ 63) : NoWrap capacity b q.length := by
  have head := h.head_lt two
  have tail := h.tail_lt two
  have length := h.length_lt
  refine ⟨by omega, ?_, ?_, ?_⟩
  · intro wrapped
    omega
  · intro i inside
    omega
  · intro n inside
    omega

/-- `Write` finds the buffer full when it holds one byte less than there are cells. -/
theorem full_iff (h : Represents capacity b q) (two : 2 ≤ capacity)
    (addressable : capacity ≤ 2 ^ 63) :
    nextTail capacity b.tail = b.head ↔ q.length = capacity - 1 := by
  obtain ⟨consumed, shared⟩ := h.shared
  rw [shared.tail, nextTail_mod two addressable, shared.head]
  have within := shared.within
  rw [List.length_append] at within ⊢
  constructor
  · intro same
    by_contra room
    exact mod_ne_mod (by omega : consumed.length < consumed.length + q.length + 1) (by omega)
      same.symm
  · intro full
    have turn : consumed.length + q.length + 1 = consumed.length + capacity := by omega
    rw [turn, Nat.add_mod_right]

theorem write (h : Represents capacity b q) (two : 2 ≤ capacity)
    (addressable : capacity ≤ 2 ^ 63) (item : UInt8) :
    Represents capacity (b.write capacity item)
      (if q.length < capacity - 1 then q ++ [item] else q) := by
  have full := h.full_iff two addressable
  have length := h.length_lt
  unfold CircularBuffer.write
  by_cases last : nextTail capacity b.tail = b.head
  · rw [if_pos last, if_neg (by have := full.mp last; omega)]
    obtain ⟨consumed, shared⟩ := h.shared
    exact ⟨⟨consumed, shared.head, shared.tail, shared.ordered, shared.within, shared.content⟩,
      h.reading, fun _ => full.mp last⟩
  · have room : q.length < capacity - 1 := by
      have := mt full.mpr last
      omega
    rw [if_neg last, if_pos room]
    obtain ⟨consumed, shared⟩ := h.shared
    have published := (shared.storeData item).storeTail (by rw [List.length_append]; omega)
    rw [← nextTail_mod two addressable, ← shared.tail] at published
    refine ⟨⟨consumed, ?_⟩, ?_, ?_⟩
    · have stored : (b.storeData b.tail item).data (b.storeData b.tail item).tail = item :=
        Function.update_self ..
      rw [stored, List.append_assoc] at published
      exact ⟨published.head, published.tail, published.ordered, published.within,
        published.content⟩
    · simp [enableReading]
    · intro disabled
      have before := h.writing disabled
      omega

/-- What is held, as the cells from `head_` on. -/
theorem window_eq (shared : Shared capacity b consumed (consumed ++ q)) :
    q = window b.data capacity consumed.length q.length := by
  have content := List.append_cancel_left shared.content
  rw [List.length_append, Nat.add_sub_cancel_left] at content
  exact content

theorem setHead (h : Represents capacity b q) (two : 2 ≤ capacity)
    (addressable : capacity ≤ 2 ^ 63) {n : Nat} (inside : n ≤ q.length) :
    Represents capacity (b.setHead capacity n) (q.drop n) := by
  obtain ⟨consumed, shared⟩ := h.shared
  have length := h.length_lt
  have size : (q.take n).length = n := List.length_take_of_le inside
  have copied : q.take n = window b.data capacity consumed.length (q.take n).length := by
    rw [size, ← window_take inside, ← window_eq shared]
  have released := shared.storeHead (by rw [size, List.length_append]; omega) copied
  have whole : consumed ++ q = (consumed ++ q.take n) ++ q.drop n := by
    rw [List.append_assoc, List.take_append_drop]
  have head : newHead capacity b.head n = (consumed.length + (q.take n).length) % capacity := by
    rw [shared.head, size, newHead_mod two addressable _ (by omega)]
  rw [← head, whole] at released
  -- The new head meets the tail when nothing is left.
  have empty : newHead capacity b.head n = b.tail ↔ q.drop n = [] := by
    have before := shared.tail
    rw [head, before, size, List.length_append, List.drop_eq_nil_iff]
    constructor
    · intro same
      by_contra more
      exact mod_ne_mod (by omega : consumed.length + n < consumed.length + q.length) (by omega) same
    · intro all
      rw [show n = q.length by omega]
  by_cases none : newHead capacity b.head n = b.tail
  · rw [setHead_empty none]
    refine ⟨⟨consumed ++ q.take n, ?_⟩, ?_, ?_⟩
    · exact ⟨released.head, released.tail, released.ordered, released.within, released.content⟩
    · simp [disableReading, empty.mp none]
    · intro disabled
      cases disabled
  · rw [setHead_filled none]
    refine ⟨⟨consumed ++ q.take n, ?_⟩, ?_, ?_⟩
    · exact ⟨released.head, released.tail, released.ordered, released.within, released.content⟩
    · have some_left : q.drop n ≠ [] := mt empty.mpr none
      have some_before : q ≠ [] := by
        rintro rfl
        exact some_left List.drop_nil
      simpa [enableWriting, some_left] using h.reading.mpr some_before
    · intro disabled
      cases disabled

theorem get (h : Represents capacity b q) (two : 2 ≤ capacity)
    (addressable : capacity ≤ 2 ^ 63) {i : Nat} {item : UInt8} (there : q[i]? = some item) :
    b.get capacity (sizeAdd b.getHead i) = item := by
  obtain ⟨consumed, shared⟩ := h.shared
  have length := h.length_lt
  have inside : i < q.length := (List.getElem?_eq_some_iff.mp there).1
  rw [window_eq shared, getElem?_window inside] at there
  rw [CircularBuffer.get, getHead, shared.head, cellOf_mod two addressable _ (by omega)]
  exact Option.some.inj there

end CircularBuffer.Represents

namespace Ring

variable {r : Ring}

/-- The accesses of the writing loop for one byte, with none of the reader's in between, are the
    whole `Write`. -/
theorem reaches_write {item : UInt8} {rest : List UInt8}
    (turn : r.writer = .forLoop (item :: rest)) :
    ∃ accepted, Transition.Reaches (step capacity) (fun _ action => action = .writer) r
      { r with
        buffer := r.buffer.write capacity item
        writer := .forLoop rest
        accepted := accepted } := by
  obtain ⟨b, writer, reader, accepted, returned⟩ := r
  subst turn
  by_cases last : nextTail capacity b.tail = b.head
  · refine ⟨accepted, .of_run [.writer, .writer, .writer] ?_ (by simp)⟩
    simp [Transition.run, step, writerStep, CircularBuffer.write, last]
  · refine ⟨accepted ++ [item], .of_run [.writer, .writer, .writer, .writer, .writer] ?_ (by simp)⟩
    simp [Transition.run, step, writerStep, CircularBuffer.write, last]

/-- The accesses of the reading loop after its copy, with none of the writer's in between, are the
    whole `SetHead`. -/
theorem reaches_setHead {dataSize head : Nat} {chunk : List UInt8}
    (copied : r.reader = .copy dataSize head chunk) (all : ¬ chunk.length < dataSize) :
    Transition.Reaches (step capacity) (fun _ action => action = .reader) r
      { r with buffer := r.buffer.setHead capacity dataSize, reader := .done chunk } := by
  obtain ⟨b, writer, reader, accepted, returned⟩ := r
  subst copied
  by_cases empty : newHead capacity b.head dataSize = b.tail
  · refine .of_run [.reader, .reader, .reader, .reader, .reader] ?_ (by simp)
    rw [setHead_empty empty]
    simp [Transition.run, step, readerStep, all, enableWriting, empty]
  · refine .of_run [.reader, .reader, .reader, .reader] ?_ (by simp)
    rw [setHead_filled empty]
    simp [Transition.run, step, readerStep, all, enableWriting, empty]

end Ring

/-- The operations of the buffer are those of a queue with `capacity - 1` places. -/
theorem buffer_refines (two : 2 ≤ capacity) (addressable : capacity ≤ 2 ^ 63) :
    Refines (CircularBuffer.perform capacity) (BoundedQueue.perform (capacity - 1))
      (Represents capacity) := by
  intro b q operation answer q' h performed
  cases operation with
  | push item =>
    cases performed
    exact ⟨rfl, h.write two addressable item⟩
  | size =>
    cases performed
    exact ⟨by rw [CircularBuffer.perform, h.dataSize two addressable], h⟩
  | get i =>
    obtain ⟨item, there, same⟩ := Option.map_eq_some_iff.mp performed
    cases same
    exact ⟨by rw [CircularBuffer.perform, h.get two addressable there], h⟩
  | drop n =>
    simp only [BoundedQueue.perform] at performed
    split at performed
    · rename_i inside
      cases performed
      exact ⟨rfl, h.setHead two addressable inside⟩
    · cases performed

end

/-- For every capacity, every content of the memory and every sequence of whole operations that
    reads and removes no more than there is: the operations answer as those of a queue with
    `capacity - 1` places, and after them the buffer holds what the queue holds. Then a refused
    `Write` leaves the cells and the indices, no index wraps, and the flags say what they should. -/
theorem circularBuffer_refines_queue {capacity : Nat} (two : 2 ≤ capacity)
    (addressable : capacity ≤ 2 ^ 63) (memory : Nat → UInt8)
    (operations : List (BoundedQueue.Operation UInt8)) (answers : List (BoundedQueue.Answer UInt8))
    (q : List UInt8)
    (allowed : specify (BoundedQueue.perform (capacity - 1)) [] operations = some (answers, q)) :
    ∃ b, execute (CircularBuffer.perform capacity) (.initial memory) operations = (answers, b) ∧
      b.content capacity = q ∧ b.dataSize capacity = q.length ∧
      (∀ i item, q[i]? = some item → b.get capacity (sizeAdd b.getHead i) = item) ∧
      (∀ item, q.length < capacity - 1 →
        (b.write capacity item).content capacity = q ++ [item]) ∧
      (∀ item, ¬ q.length < capacity - 1 → (b.write capacity item).data = b.data ∧
        (b.write capacity item).head = b.head ∧ (b.write capacity item).tail = b.tail) ∧
      (∀ n ≤ q.length, (b.setHead capacity n).content capacity = q.drop n) ∧
      b.head < capacity ∧ b.tail < capacity ∧ NoWrap capacity b q.length ∧
      (b.state.readingEnabled = true ↔ q ≠ []) ∧
      (b.state.writingEnabled = false → q.length = capacity - 1) := by
  obtain ⟨answered, h⟩ := (buffer_refines two addressable).execute_eq
    (CircularBuffer.Represents.initial two memory) allowed
  refine ⟨_, Prod.ext answered rfl, h.content two addressable, h.dataSize two addressable,
    fun i item there => h.get two addressable there, ?_, ?_, ?_, h.head_lt two, h.tail_lt two,
    h.noWrap two addressable, h.reading, h.writing⟩
  · intro item room
    have written := (h.write two addressable item).content two addressable
    rwa [if_pos room] at written
  · intro item full
    have length := h.length_lt
    have last := (h.full_iff two addressable).mpr (by omega)
    rw [CircularBuffer.write, if_pos last]
    exact ⟨rfl, rfl, rfl⟩
  · intro n inside
    exact (h.setHead two addressable inside).content two addressable

/-- Three bytes into two places, one byte out, and a fourth round the end of the cells. -/
theorem circularBuffer_refines_queue_small :
    ∃ b, execute (CircularBuffer.perform 3) (.initial fun _ => 0)
        [.push 7, .push 8, .push 9, .size, .drop 1, .push 10, .get 1] =
          ([.done, .done, .done, .size 2, .done, .done, .item 10], b) ∧
      b.content 3 = [8, 10] := by
  obtain ⟨b, executed, content, -⟩ := @circularBuffer_refines_queue 3 (by decide)
    (by decide) (fun _ => 0) [.push 7, .push 8, .push 9, .size, .drop 1, .push 10, .get 1] _ _ rfl
  exact ⟨b, executed, content⟩

end FileTransfer.Threads
