import FileTransfer.Threads.MultiThread

/-!
# What holds in every state of the two threads

Frames first: what a step of one thread leaves alone. Then the link between a thread's
position in its task and its position in the buffer, and the transfer of the ring's
invariant: seen from the ring, a run of the two threads is a run of two users.
-/

namespace FileTransfer.Threads

namespace Ring

variable {capacity : Nat} {r r' : Ring}

/-- What the writer leaves alone. -/
theorem writerStep_frame (next : r.writerStep capacity = some r') :
    r'.reader = r.reader ∧ r'.returned = r.returned ∧ r'.buffer.head = r.buffer.head := by
  cases writerStep_move next <;> exact ⟨rfl, rfl, rfl⟩

/-- What the reader leaves alone. -/
theorem readerStep_frame (next : r.readerStep capacity = some r') :
    r'.writer = r.writer ∧ r'.accepted = r.accepted ∧ r'.buffer.tail = r.buffer.tail := by
  cases readerStep_move next <;> exact ⟨rfl, rfl, rfl⟩

/-- A read is over only after its return. -/
theorem readerStep_ne_idle (next : r.readerStep capacity = some r')
    (notDone : ∀ chunk, r.reader ≠ .done chunk) :
    r'.reader ≠ .idle ∧ r'.returned = r.returned := by
  cases readerStep_move next with
  | leave pc => exact absurd pc (notDone _)
  | _ => simp

end Ring

namespace MultiThread

variable {capacity : Nat} {s s' : State}

/-- What the reading thread leaves alone. -/
theorem producerStep_frame (next : producerStep capacity s = some s') :
    s'.consumer = s.consumer ∧ s'.written = s.written ∧ s'.ring.reader = s.ring.reader ∧
      s'.ring.returned = s.ring.returned ∧ s'.ring.buffer.head = s.ring.buffer.head := by
  cases producerStep_move next with
  | enter _ _ call =>
    obtain ⟨-, rfl⟩ := Ring.callWrite_eq call
    exact ⟨rfl, rfl, rfl, rfl, rfl⟩
  | access access =>
    obtain ⟨reader, returned, head⟩ := Ring.writerStep_frame access
    exact ⟨rfl, rfl, reader, returned, head⟩
  | _ => exact ⟨rfl, rfl, rfl, rfl, rfl⟩

/-- What the writing thread leaves alone. -/
theorem consumerStep_frame (next : consumerStep capacity s = some s') :
    s'.producer = s.producer ∧ s'.calls = s.calls ∧ s'.atCall = s.atCall ∧
      s'.ring.writer = s.ring.writer ∧ s'.ring.accepted = s.ring.accepted := by
  cases consumerStep_move next with
  | enter _ call =>
    obtain ⟨-, rfl⟩ := Ring.callRead_eq call
    exact ⟨rfl, rfl, rfl, rfl, rfl⟩
  | access _ access =>
    obtain ⟨writer, accepted, -⟩ := Ring.readerStep_frame access
    exact ⟨rfl, rfl, rfl, writer, accepted⟩
  | leave _ access =>
    obtain ⟨writer, accepted, -⟩ := Ring.readerStep_frame access
    exact ⟨rfl, rfl, rfl, writer, accepted⟩
  | _ => exact ⟨rfl, rfl, rfl, rfl, rfl⟩

/-- A thread is inside the buffer only while its task is in the call. -/
structure Linked (s : State) : Prop where
  producer : (∀ chunk, s.producer ≠ .writing chunk) → s.ring.writer = .idle
  consumer : s.consumer ≠ .reading → s.ring.reader = .idle
  reading : s.consumer = .reading → s.ring.reader ≠ .idle

theorem Linked.producerStep (h : Linked s) (next : producerStep capacity s = some s') :
    Linked s' := by
  obtain ⟨consumer, -, reader, -⟩ := producerStep_frame next
  refine ⟨?_, fun outside => by rw [reader]; exact h.consumer (consumer ▸ outside),
    fun inside => by rw [reader]; exact h.reading (consumer ▸ inside)⟩
  have writer := h.producer
  cases producerStep_move next <;> rename_i pc <;> simp only [pc] at writer
  case enter => simp
  case access => simp [pc]
  case leave outside => exact fun _ => outside
  all_goals exact fun _ => by simpa using writer

theorem Linked.consumerStep (h : Linked s) (next : consumerStep capacity s = some s') :
    Linked s' := by
  obtain ⟨producer, -, -, writer, -⟩ := consumerStep_frame next
  suffices (s'.consumer ≠ .reading → s'.ring.reader = .idle) ∧
      (s'.consumer = .reading → s'.ring.reader ≠ .idle) from
    ⟨fun outside => by rw [writer]; exact h.producer (producer ▸ outside), this.1, this.2⟩
  have reader := h.consumer
  cases consumerStep_move next <;> rename_i pc <;> simp only [pc] at reader
  case enter call =>
    obtain ⟨-, rfl⟩ := Ring.callRead_eq call
    simp
  case access notDone access => simpa [pc] using (Ring.readerStep_ne_idle access notDone).1
  case leave done access =>
    simp only [Ring.readerStep, done, Option.some.injEq] at access
    subst access
    unfold afterRead
    split <;> simp
  all_goals simpa using reader

theorem Linked.step {a : Action} (h : Linked s) (next : step capacity s a = some s') :
    Linked s' := by
  cases a with
  | producer => exact h.producerStep next
  | consumer => exact h.consumerStep next
  | consumerThrows =>
    obtain ⟨⟨chunk, writing⟩, rfl⟩ := consumerThrows_eq next
    exact ⟨h.producer, fun _ => h.consumer (by simp [writing]), by simp⟩

/-- Seen from the ring, a step of the reading thread is a call, an access, or nothing. -/
theorem producerStep_ring (next : producerStep capacity s = some s') :
    s'.ring = s.ring ∨ (∃ chunk, s.ring.callWrite chunk = some s'.ring) ∨
      s.ring.writerStep capacity = some s'.ring := by
  cases producerStep_move next with
  | enter _ _ call => exact .inr (.inl ⟨_, call⟩)
  | access access => exact .inr (.inr access)
  | _ => exact .inl rfl

/-- Seen from the ring, a step of the writing thread is a call, an access, or nothing. -/
theorem consumerStep_ring (next : consumerStep capacity s = some s') :
    s'.ring = s.ring ∨ s.ring.callRead = some s'.ring ∨
      s.ring.readerStep capacity = some s'.ring := by
  cases consumerStep_move next with
  | enter _ call => exact .inr (.inl call)
  | access _ access => exact .inr (.inr access)
  | leave _ access => exact .inr (.inr access)
  | _ => exact .inl rfl

theorem step_ring {a : Action} (next : step capacity s a = some s') :
    Ring.Reaches capacity s.ring s'.ring := by
  cases a with
  | producer =>
    rcases producerStep_ring next with same | ⟨chunk, call⟩ | access
    · rw [same]; exact .refl
    · exact .single (a := .callWrite chunk) trivial call
    · exact .single (a := .writer) trivial access
  | consumer =>
    rcases consumerStep_ring next with same | call | access
    · rw [same]; exact .refl
    · exact .single (a := .callRead) trivial call
    · exact .single (a := .reader) trivial access
  | consumerThrows =>
    obtain ⟨-, rfl⟩ := consumerThrows_eq next
    exact .refl

/-- The reading thread changes `running_` only by the store of its `Stop`. -/
theorem producerStep_running (next : producerStep capacity s = some s') :
    s'.running = s.running ∨
      (s.producer = .stopStore ∧ s' = { s with running := false, producer := .next }) := by
  cases producerStep_move next with
  | stopStore pc => exact .inr ⟨pc, rfl⟩
  | _ => exact .inl rfl

/-- The writing thread only ever clears `running_`. -/
theorem consumerStep_running (next : consumerStep capacity s = some s')
    (running : s'.running = true) : s.running = true := by
  cases consumerStep_move next with
  | fail => cases running
  | _ => exact running

section Reached

variable {size : Nat} {calls : List Call} {ok : State → Action → Prop} {s₀ : State}

theorem start_eq (started : start size calls = some s₀) :
    ∃ buffer, CircularBuffer.create size = some buffer ∧
      s₀ = { ring := Ring.start buffer, running := true, calls := calls, producer := .next,
             consumer := .loop, written := [], atCall := [] } := by
  obtain ⟨buffer, created, rfl⟩ := Option.map_eq_some_iff.mp started
  exact ⟨buffer, created, rfl⟩

/-- The start of a copy: the reading thread will write non-empty chunks, then stop. -/
theorem startCopy_eq {content : List UInt8} (started : startCopy size content = some s₀) :
    ∃ chunks, start size (FileDataTransferTask.callsFor chunks) = some s₀ ∧
      chunks.flatten = content ∧ ∀ chunk ∈ chunks, chunk ≠ [] := by
  obtain ⟨chunks, last, reads, whole, filled⟩ := FileDataReader.loop_create content
    defaultChunkSize (by decide)
  simp only [startCopy, reads, Option.bind_some] at started
  exact ⟨chunks, started, whole, fun chunk member => (filled chunk member).1⟩

/-- A copy starts for every content, whenever the buffer can be built. -/
theorem startCopy_isSome (content : List UInt8) (fits : size ≤ CircularBuffer.maxSize) :
    (startCopy size content).isSome := by
  obtain ⟨chunks, last, reads, -⟩ := FileDataReader.loop_create content
    defaultChunkSize (by decide)
  simp [startCopy, reads, start, CircularBuffer.create, fits]

/-- A file shorter than a chunk makes one `Write`. -/
theorem startCopy_short {content : List UInt8} (filled : content ≠ [])
    (short : content.length < defaultChunkSize) :
    startCopy size content = start size (FileDataTransferTask.callsFor [content]) := by
  obtain ⟨last, reads⟩ := FileDataReader.loop_short filled short
  simp [startCopy, reads]

theorem Linked.start (started : start size calls = some s₀) : Linked s₀ := by
  obtain ⟨buffer, -, rfl⟩ := start_eq started
  exact ⟨fun _ => rfl, fun _ => rfl, by simp⟩

theorem Linked.of_reaches (started : MultiThread.start size calls = some s₀)
    (run : Reaches size ok s₀ s) : Linked s :=
  run.invariant (.start started) fun _ _ _ linked _ next => linked.step next

/-- The ring's invariant holds throughout. -/
theorem ring_inv (two : 2 ≤ size) (started : start size calls = some s₀)
    (run : Reaches size ok s₀ s) : s.ring.Inv size := by
  obtain ⟨buffer, created, rfl⟩ := start_eq started
  obtain ⟨addressable, head, tail, -⟩ := CircularBuffer.create_spec created
  have ringRun : Ring.Reaches size (Ring.start buffer) s.ring :=
    run.simulate State.ring fun _ _ _ _ next => step_ring next
  exact (Ring.Inv.start two head tail).of_reaches two addressable ringRun

end Reached

end MultiThread

end FileTransfer.Threads
