import FileTransfer.Threads.Stall
import FileTransfer.Threads.Subsequence

/-!
# A schedule that loses nothing

The conditions under which a copy loses no byte and no flag can be met, whatever the source is and
however small the buffer: the writing thread takes each byte out before the next one comes.
-/

namespace FileTransfer.Threads

open CircularBuffer Cyclic

namespace MultiThread

/-- No byte meets a full buffer, none is left behind at `Stop`, no flag is lost, and the file writer
    does not throw. -/
def smooth (capacity : Nat) (s : State) (a : Action) : Prop :=
  notFull s a ∧ drainedAtStop capacity s a ∧ flagKept s a

instance (capacity : Nat) (s : State) (a : Action) : Decidable (smooth capacity s a) :=
  inferInstanceAs (Decidable (_ ∧ _ ∧ _))

/-- The buffer is empty, and the writing thread is about to wait for data. -/
structure Calm (capacity : Nat) (s : State) : Prop where
  inside : s.ring.buffer.head < capacity
  empty : s.ring.buffer.head = s.ring.buffer.tail
  state : s.ring.buffer.state = { writingEnabled := true, readingEnabled := false }
  reader : s.ring.reader = .idle
  running : s.running = true
  consumer : s.consumer = .readSpin

variable {capacity : Nat} {s : State}

/-- The reading thread stops, and both threads return. -/
theorem Calm.stop (calm : Calm capacity s) (pc : s.producer = .next)
    (outside : s.ring.writer = .idle) (call : s.calls = [.stop]) :
    ∃ s', Reaches capacity (smooth capacity) s s' ∧ s'.producer = .finished ∧
      s'.consumer = .finished := by
  obtain ⟨inside, empty, state, reader, running, consumer⟩ := calm
  obtain ⟨⟨⟨data, i, tail, flags⟩, writer, readerPc, accepted, returned⟩, _, calls, producer,
    consumerPc, written, atCall⟩ := s
  dsimp only at inside empty state reader running consumer pc outside call
  subst empty state reader running consumer pc outside call
  have stopped : Reaches capacity (smooth capacity)
      ⟨⟨⟨data, i, i, ⟨true, false⟩⟩, .idle, .idle, accepted, returned⟩, true, [.stop], .next,
        .readSpin, written, atCall⟩
      ⟨⟨⟨data, i, i, ⟨true, false⟩⟩, .idle, .idle, accepted, returned⟩, false, [], .finished,
        .readSpin, written, atCall⟩ := by
    refine .of_checked_run (.replicate 4 .producer) ?_
    simp [List.replicate, Transition.run, smooth, notFull, drainedAtStop, flagKept, step,
      producerStep, writingEnabled, WriterPc.fullTest, Ring.Covered]
  refine ⟨⟨⟨⟨data, i, i, ⟨true, false⟩⟩, .idle, .idle, accepted, returned⟩, false, [], .finished,
    .finished, written, atCall⟩, stopped.trans (.of_checked_run (.replicate 4 .consumer) ?_), rfl,
    rfl⟩
  simp [List.replicate, Transition.run, smooth, notFull, drainedAtStop, flagKept, step,
    consumerStep, readingEnabled, ReaderPc.disables]

section Indices

variable (two : 2 ≤ capacity) (addressable : capacity ≤ 2 ^ 63)
include two addressable

theorem nextTail_ne {i : Nat} (inside : i < capacity) : nextTail capacity i ≠ i := by
  have next := nextTail_mod two addressable i
  rw [Nat.mod_eq_of_lt inside] at next
  rw [next]
  have apart := mod_ne_mod (Nat.lt_succ_self i) (by omega : i + 1 < i + capacity)
  rw [Nat.mod_eq_of_lt inside] at apart
  exact apart.symm

theorem getDataSize_nextTail {i : Nat} (inside : i < capacity) :
    getDataSize capacity i (nextTail capacity i) = 1 := by
  have next := nextTail_mod two addressable i
  have distance := distance_mod (Nat.le_succ i) (by omega : i + 1 < i + capacity)
  rw [Nat.mod_eq_of_lt inside] at next distance
  have below : (i + 1) % capacity < capacity := Nat.mod_lt _ (by omega)
  rw [next, getDataSize_eq_distance two addressable inside below, distance]
  omega

/-- A byte is stored and read again, and the file writer gets it. -/
theorem Calm.byte {chunk : List UInt8} {item : UInt8} {rest : List UInt8} (calm : Calm capacity s)
    (pc : s.producer = .writing chunk) (turn : s.ring.writer = .forLoop (item :: rest)) :
    ∃ s', Reaches capacity (smooth capacity) s s' ∧ Calm capacity s' ∧
      s'.producer = .writing chunk ∧ s'.ring.writer = .forLoop rest ∧ s'.calls = s.calls := by
  obtain ⟨inside, empty, state, reader, running, consumer⟩ := calm
  obtain ⟨⟨⟨data, i, tail, flags⟩, writer, readerPc, accepted, returned⟩, _, calls, producer,
    consumerPc, written, atCall⟩ := s
  dsimp only at inside empty state reader running consumer pc turn
  subst empty state reader running consumer pc turn
  have room := nextTail_ne two addressable inside
  have size := getDataSize_nextTail two addressable inside
  have cell : cellOf capacity (sizeAdd i 0) = i := by
    have same := cellOf_mod two addressable i (Nat.zero_le capacity)
    rwa [Nat.add_zero, Nat.mod_eq_of_lt inside] at same
  have moved : newHead capacity i 1 = nextTail capacity i := rfl
  let buffer : CircularBuffer :=
    ⟨Function.update data i item, i, nextTail capacity i, ⟨true, true⟩⟩
  let taken : CircularBuffer :=
    ⟨Function.update data i item, nextTail capacity i, nextTail capacity i, ⟨true, false⟩⟩
  have stored : Reaches capacity (smooth capacity)
      ⟨⟨⟨data, i, i, ⟨true, false⟩⟩, .forLoop (item :: rest), .idle, accepted, returned⟩, true,
        calls, .writing chunk, .readSpin, written, atCall⟩
      ⟨⟨buffer, .forLoop rest, .idle, accepted ++ [item], returned⟩, true, calls, .writing chunk,
        .readSpin, written, atCall⟩ := by
    refine .of_checked_run (.replicate 5 .producer) ?_
    simp [List.replicate, Transition.run, smooth, notFull, drainedAtStop, flagKept, step,
      producerStep, Ring.writerStep, WriterPc.fullTest, room, storeData, enableReading, buffer]
  have copied : Reaches capacity (smooth capacity)
      ⟨⟨buffer, .forLoop rest, .idle, accepted ++ [item], returned⟩, true, calls, .writing chunk,
        .readSpin, written, atCall⟩
      ⟨⟨buffer, .forLoop rest, .copy 1 i [item], accepted ++ [item], returned⟩, true, calls,
        .writing chunk, .reading, written, atCall⟩ := by
    refine .of_checked_run (.replicate 6 .consumer) ?_
    simp [List.replicate, Transition.run, smooth, notFull, drainedAtStop, flagKept, step,
      consumerStep, readingEnabled, Ring.callRead, Ring.readerStep, size, cell, ReaderPc.disables,
      buffer]
  have released : Reaches capacity (smooth capacity)
      ⟨⟨buffer, .forLoop rest, .copy 1 i [item], accepted ++ [item], returned⟩, true, calls,
        .writing chunk, .reading, written, atCall⟩
      ⟨⟨taken, .forLoop rest, .done [item], accepted ++ [item], returned⟩, true, calls,
        .writing chunk, .reading, written, atCall⟩ := by
    refine .of_checked_run (.replicate 5 .consumer) ?_
    simp [List.replicate, Transition.run, smooth, notFull, drainedAtStop, flagKept, step,
      consumerStep, writingEnabled, Ring.readerStep, moved, ReaderPc.disables, enableWriting,
      disableReading, buffer, taken]
  have passed : Reaches capacity (smooth capacity)
      ⟨⟨taken, .forLoop rest, .done [item], accepted ++ [item], returned⟩, true, calls,
        .writing chunk, .reading, written, atCall⟩
      ⟨⟨taken, .forLoop rest, .idle, accepted ++ [item], returned ++ [[item]]⟩, true, calls,
        .writing chunk, .readSpin, written ++ [[item]], atCall⟩ := by
    refine .of_checked_run (.replicate 3 .consumer) ?_
    simp [List.replicate, Transition.run, smooth, notFull, drainedAtStop, flagKept, step,
      consumerStep, Ring.readerStep, afterRead, ReaderPc.disables]
  have next : nextTail capacity i < capacity := by
    have same := nextTail_mod two addressable i
    rw [Nat.mod_eq_of_lt inside] at same
    rw [same]
    exact Nat.mod_lt _ (by omega)
  exact ⟨_, stored.trans (copied.trans (released.trans passed)),
    ⟨next, rfl, rfl, rfl, rfl, rfl⟩, rfl, rfl, rfl⟩

/-- A chunk goes through the buffer byte by byte. -/
theorem Calm.chunk {chunk data : List UInt8} (calm : Calm capacity s)
    (pc : s.producer = .writing chunk) (turn : s.ring.writer = .forLoop data) :
    ∃ s', Reaches capacity (smooth capacity) s s' ∧ Calm capacity s' ∧
      s'.producer = .writing chunk ∧ s'.ring.writer = .forLoop [] ∧ s'.calls = s.calls := by
  induction data generalizing s with
  | nil => exact ⟨s, .refl, calm, pc, turn, rfl⟩
  | cons item rest ih =>
    obtain ⟨t, first, calm', pc', turn', calls⟩ := calm.byte two addressable pc turn
    obtain ⟨u, others, calm'', pc'', turn'', calls'⟩ := ih calm' pc' turn'
    exact ⟨u, first.trans others, calm'', pc'', turn'', calls'.trans calls⟩

/-- A `Write` is called and returns. -/
theorem Calm.write {chunk : List UInt8} {later : List Call} (calm : Calm capacity s)
    (pc : s.producer = .next) (outside : s.ring.writer = .idle)
    (call : s.calls = .write chunk :: later) :
    ∃ s', Reaches capacity (smooth capacity) s s' ∧ Calm capacity s' ∧ s'.producer = .next ∧
      s'.ring.writer = .idle ∧ s'.calls = later := by
  obtain ⟨inside, empty, state, reader, running, consumer⟩ := calm
  obtain ⟨⟨⟨data, i, tail, flags⟩, writer, readerPc, accepted, returned⟩, _, calls, producer,
    consumerPc, written, atCall⟩ := s
  dsimp only at inside empty state reader running consumer pc outside call
  subst empty state reader running consumer pc outside call
  by_cases none : chunk = []
  · have skipped : Reaches capacity (smooth capacity)
        ⟨⟨⟨data, i, i, ⟨true, false⟩⟩, .idle, .idle, accepted, returned⟩, true,
          .write chunk :: later, .next, .readSpin, written, atCall⟩
        ⟨⟨⟨data, i, i, ⟨true, false⟩⟩, .idle, .idle, accepted, returned⟩, true, later, .next,
          .readSpin, written, accepted⟩ := by
      refine .of_checked_run (.replicate 4 .producer) ?_
      simp [List.replicate, Transition.run, smooth, notFull, drainedAtStop, flagKept, step,
        producerStep, writingEnabled, WriterPc.fullTest, none]
    exact ⟨_, skipped, ⟨inside, rfl, rfl, rfl, rfl, rfl⟩, rfl, rfl, rfl⟩
  · have entered : Reaches capacity (smooth capacity)
        ⟨⟨⟨data, i, i, ⟨true, false⟩⟩, .idle, .idle, accepted, returned⟩, true,
          .write chunk :: later, .next, .readSpin, written, atCall⟩
        ⟨⟨⟨data, i, i, ⟨true, false⟩⟩, .forLoop chunk, .idle, accepted, returned⟩, true, later,
          .writing chunk, .readSpin, written, accepted⟩ := by
      refine .of_checked_run (.replicate 3 .producer) ?_
      simp [List.replicate, Transition.run, smooth, notFull, drainedAtStop, flagKept, step,
        producerStep, writingEnabled, WriterPc.fullTest, Ring.callWrite, none]
    obtain ⟨t, bytes, calm, pc, turn, calls⟩ := Calm.chunk two addressable (s := ⟨⟨⟨data, i, i,
      ⟨true, false⟩⟩, .forLoop chunk, .idle, accepted, returned⟩, true, later, .writing chunk,
      .readSpin, written, accepted⟩) ⟨inside, rfl, rfl, rfl, rfl, rfl⟩ rfl rfl
    refine ⟨{ t with ring := { t.ring with writer := .idle }, producer := .next },
      entered.trans (bytes.trans (.of_checked_run (.replicate 3 .producer) ?_)),
      ⟨calm.inside, calm.empty, calm.state, calm.reader, calm.running, calm.consumer⟩, rfl, rfl,
      calls⟩
    simp [List.replicate, Transition.run, smooth, notFull, drainedAtStop, flagKept, step,
      producerStep, Ring.writerStep, WriterPc.fullTest, pc, turn]

/-- All chunks go through, and both threads return. -/
theorem Calm.finish {chunks : List (List UInt8)} (calm : Calm capacity s) (pc : s.producer = .next)
    (outside : s.ring.writer = .idle) (calls : s.calls = FileDataTransferTask.callsFor chunks) :
    ∃ s', Reaches capacity (smooth capacity) s s' ∧ s'.producer = .finished ∧
      s'.consumer = .finished := by
  induction chunks generalizing s with
  | nil => exact calm.stop pc outside calls
  | cons chunk chunks ih =>
    obtain ⟨t, first, calm', pc', outside', calls'⟩ := calm.write two addressable pc outside calls
    obtain ⟨u, others, finished⟩ := ih calm' pc' outside' calls'
    exact ⟨u, first.trans others, finished⟩

end Indices

/-- For every capacity and every source there is a schedule that loses nothing and ends. -/
theorem smooth_run {size : Nat} {content : List UInt8} {s₀ : State} (two : 2 ≤ size)
    (started : startCopy size content = some s₀) :
    ∃ s, Reaches size (smooth size) s₀ s ∧ s.producer = .finished ∧ s.consumer = .finished := by
  obtain ⟨chunks, begun, -⟩ := startCopy_eq started
  obtain ⟨buffer, created, rfl⟩ := start_eq begun
  obtain ⟨addressable, head, tail, state⟩ := CircularBuffer.create_spec created
  have first : Reaches size (smooth size)
      ⟨Ring.start buffer, true, FileDataTransferTask.callsFor chunks, .next, .loop, [], []⟩
      ⟨Ring.start buffer, true, FileDataTransferTask.callsFor chunks, .next, .readSpin, [], []⟩ := by
    refine .of_checked_run [.consumer] ?_
    simp [Transition.run, smooth, notFull, drainedAtStop, flagKept, step, consumerStep, Ring.start,
      ReaderPc.disables]
  have calm : Calm size
      ⟨Ring.start buffer, true, FileDataTransferTask.callsFor chunks, .next, .readSpin, [], []⟩ :=
    ⟨by simp only [Ring.start, head]; omega, by simp [Ring.start, head, tail],
      by simp [Ring.start, state], rfl, rfl, rfl⟩
  obtain ⟨s, rest, finished⟩ := calm.finish two addressable rfl rfl rfl
  exact ⟨s, first.trans rest, finished⟩

end MultiThread

end FileTransfer.Threads
