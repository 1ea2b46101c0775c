import FileTransfer.Threads.MultiThreadInvariant

/-!
# A full buffer and the chunk being written

`CircularBuffer::Write` finds out byte by byte whether there is room, and a byte that finds
none is passed over. So `SafeWriteDataAccess::Write` hands over its whole chunk exactly when
none of its bytes meets a full buffer.
-/

namespace FileTransfer.Threads

/-- The bytes of the chunk whose turn has not passed. -/
def WriterPc.pending : WriterPc → List UInt8
  | .idle => []
  | .forLoop data => data
  | .loadHead item rest _ _ => item :: rest
  | .disableWriting rest => rest
  | .storeData item rest _ _ => item :: rest
  | .storeTail item rest _ => item :: rest
  | .enableReading rest => rest

/-- The next tail index that is about to be compared with `head_`. -/
def WriterPc.fullTest : WriterPc → Option Nat
  | .loadHead _ _ _ nextTail => some nextTail
  | _ => none

namespace MultiThread

/-- When `Write(chunk)` has returned and `running_` is still set, all of the chunk has been
    accepted, in order. -/
def BackPressure (s : State) : Prop :=
  ∀ chunk, s.producer = .written chunk → s.running = true →
    s.ring.accepted = s.atCall ++ chunk

/-- The load of `head_` in `CircularBuffer::Write` does not find the buffer full. -/
def notFull (s : State) (a : Action) : Prop :=
  a = .producer → s.ring.writer.fullTest ≠ some s.ring.buffer.head

instance (s : State) (a : Action) : Decidable (notFull s a) :=
  inferInstanceAs (Decidable (_ → _))

/-- No restriction on the schedule. -/
def anyStep (_ : State) (_ : Action) : Prop := True

/-- Every byte of the current chunk is accepted or still to come. -/
def Accounted (s : State) : Prop :=
  match s.producer with
  | .writeSpin _ => s.ring.accepted = s.atCall
  | .writeSpinRunning _ => s.ring.accepted = s.atCall
  | .writeCheck _ => s.ring.accepted = s.atCall
  | .writing chunk =>
    s.ring.accepted ++ s.ring.writer.pending = s.atCall ++ chunk ∧
      ∀ rest, s.ring.writer ≠ .disableWriting rest
  | .written chunk => s.running = true → s.ring.accepted = s.atCall ++ chunk
  | _ => True

/-- No more than the bytes of the current chunk are accepted or still to come. -/
def Bounded (s : State) : Prop :=
  match s.producer with
  | .writeSpin _ => s.ring.accepted = s.atCall
  | .writeSpinRunning _ => s.ring.accepted = s.atCall
  | .writeCheck _ => s.ring.accepted = s.atCall
  | .writing chunk =>
    s.ring.accepted.length + s.ring.writer.pending.length ≤ s.atCall.length + chunk.length
  | _ => True

variable {capacity : Nat} {s s' : State}

/-- An access of the writer that does not find the buffer full passes over no byte. -/
theorem writerStep_pending {r r' : Ring} (next : r.writerStep capacity = some r')
    (room : ∀ item rest tail index, r.writer = .loadHead item rest tail index →
      index ≠ r.buffer.head)
    (kept : ∀ rest, r.writer ≠ .disableWriting rest) :
    r'.accepted ++ r'.writer.pending = r.accepted ++ r.writer.pending ∧
      ∀ rest, r'.writer ≠ .disableWriting rest := by
  cases Ring.writerStep_move next <;> rename_i pc
  case full full => exact absurd full (room _ _ _ _ pc)
  case disableWriting => exact absurd pc (kept _)
  all_goals simp [pc, WriterPc.pending]

/-- Any access of the writer passes over at most the byte whose turn it is. -/
theorem writerStep_pending_le {r r' : Ring} (next : r.writerStep capacity = some r') :
    r'.accepted.length + r'.writer.pending.length ≤
      r.accepted.length + r.writer.pending.length := by
  cases Ring.writerStep_move next <;> rename_i pc
  case storeTail => simp [pc, WriterPc.pending]; omega
  all_goals simp [pc, WriterPc.pending]

theorem Accounted.producerStep (h : Accounted s) (room : notFull s .producer)
    (next : producerStep capacity s = some s') : Accounted s' := by
  unfold Accounted at h
  cases producerStep_move next <;> rename_i pc <;> simp only [pc] at h
  case writeEnabled => exact h
  case writeDisabled => exact h
  case writeRunning => exact h
  case writeStopped => exact h
  case enter call =>
    obtain ⟨-, rfl⟩ := Ring.callWrite_eq call
    simp [Accounted, WriterPc.pending, h]
  case skip chunk refused =>
    -- `Write` returns early: there is nothing to write, or the copy has been stopped.
    intro running
    have empty : chunk = [] := by simpa [show s.running = true from running] using refused
    simpa [empty] using h
  case access access =>
    obtain ⟨whole, kept⟩ := h
    have noFull : ∀ item rest tail index, s.ring.writer = .loadHead item rest tail index →
        index ≠ s.ring.buffer.head := fun item rest tail index atLoad => by
      simpa [notFull, atLoad, WriterPc.fullTest] using room
    obtain ⟨same, kept'⟩ := writerStep_pending access noFull kept
    simpa [Accounted, pc] using ⟨same.trans whole, kept'⟩
  case leave outside =>
    intro _
    simpa [outside, WriterPc.pending] using h.1
  all_goals simp [Accounted, pc]

theorem Accounted.step {a : Action} (h : Accounted s) (room : notFull s a)
    (next : step capacity s a = some s') : Accounted s' := by
  cases a with
  | producer => exact h.producerStep room next
  | consumer =>
    obtain ⟨producer, -, atCall, writer, accepted⟩ := consumerStep_frame next
    have running := consumerStep_running next
    unfold Accounted at h ⊢
    rw [producer, atCall, writer, accepted]
    split at h <;> simp_all
  | consumerThrows =>
    obtain ⟨-, rfl⟩ := consumerThrows_eq next
    exact h

theorem Bounded.producerStep (h : Bounded s) (next : producerStep capacity s = some s') :
    Bounded s' := by
  unfold Bounded at h
  cases producerStep_move next <;> rename_i pc <;> simp only [pc] at h
  case writeEnabled => exact h
  case writeDisabled => exact h
  case writeRunning => exact h
  case writeStopped => exact h
  case enter call =>
    obtain ⟨-, rfl⟩ := Ring.callWrite_eq call
    simp [Bounded, WriterPc.pending, h]
  case access access =>
    have le := writerStep_pending_le access
    simp only [Bounded, pc]
    omega
  all_goals simp [Bounded, pc]

theorem Bounded.step {a : Action} (h : Bounded s) (next : step capacity s a = some s') :
    Bounded s' := by
  cases a with
  | producer => exact h.producerStep next
  | consumer =>
    obtain ⟨producer, -, atCall, writer, accepted⟩ := consumerStep_frame next
    unfold Bounded at h ⊢
    rw [producer, atCall, writer, accepted]
    exact h
  | consumerThrows =>
    obtain ⟨-, rfl⟩ := consumerThrows_eq next
    exact h

/-- The reading thread alone finishes a chunk it is writing. -/
theorem finish_chunk {ok : State → Action → Prop} (free : ∀ s, ok s .producer)
    (chunk : List UInt8) : ∀ (data : List UInt8) (s : State), s.producer = .writing chunk →
      s.ring.writer = .forLoop data → ∃ s', Reaches capacity ok s s' ∧
        s'.producer = .written chunk ∧ s'.running = s.running ∧ s'.atCall = s.atCall ∧
        s'.ring.accepted.length ≤ s.ring.accepted.length + data.length := by
  have producers : ∀ n, ∀ s, ∀ a ∈ List.replicate n Action.producer, ok s a := by
    intro n s a member
    rw [(List.mem_replicate.mp member).2]
    exact free s
  intro data
  induction data with
  | nil =>
    rintro ⟨⟨buffer, writer, reader, accepted, returned⟩, running, calls, producer, consumer,
      written, atCall⟩ rfl rfl
    exact ⟨_, .of_run (.replicate 2 .producer) rfl (producers 2), rfl, rfl, rfl, Nat.le_refl _⟩
  | cons item rest ih =>
    rintro ⟨⟨buffer, writer, reader, accepted, returned⟩, running, calls, producer, consumer,
      written, atCall⟩ rfl rfl
    by_cases full : CircularBuffer.nextTail capacity buffer.tail = buffer.head
    · obtain ⟨s', rest_run, done, sameRunning, sameCall, le⟩ := ih
        ⟨⟨buffer.disableWriting, .forLoop rest, reader, accepted, returned⟩, running, calls,
          .writing chunk, consumer, written, atCall⟩ rfl rfl
      refine ⟨s', .trans (.of_run (.replicate 3 .producer) ?_ (producers 3)) rest_run, done,
        sameRunning, sameCall, ?_⟩
      · simp [List.replicate, Transition.run, step, producerStep, Ring.writerStep, full]
      · simp only [List.length_cons] at le ⊢; omega
    · obtain ⟨s', rest_run, done, sameRunning, sameCall, le⟩ := ih
        ⟨⟨{ (buffer.storeData buffer.tail item) with
            tail := CircularBuffer.nextTail capacity buffer.tail }.enableReading,
          .forLoop rest, reader, accepted ++ [item], returned⟩, running, calls,
          .writing chunk, consumer, written, atCall⟩ rfl rfl
      refine ⟨s', .trans (.of_run (.replicate 5 .producer) ?_ (producers 5)) rest_run, done,
        sameRunning, sameCall, ?_⟩
      · simp [List.replicate, Transition.run, step, producerStep, Ring.writerStep, full]
      · simp only [List.length_append, List.length_cons, List.length_nil] at le ⊢; omega

theorem Accounted.backPressure (h : Accounted s) : BackPressure s := by
  intro chunk returned running
  simp only [Accounted, returned] at h
  exact h running

section Reached

variable {size : Nat} {calls : List Call} {ok : State → Action → Prop} {s₀ : State}

theorem Bounded.of_reaches (started : start size calls = some s₀) (run : Reaches size ok s₀ s) :
    Bounded s := by
  obtain ⟨buffer, -, rfl⟩ := start_eq started
  exact run.invariant trivial fun _ _ _ bounded _ next => bounded.step next

/-- A byte that meets a full buffer is missing when its chunk is done. -/
theorem skipped_byte (started : start size calls = some s₀) (run : Reaches size ok s₀ s)
    (running : s.running = true) {a : Action} (hit : ¬ notFull s a) :
    ∃ s', Reaches size noThrow s s' ∧ ¬ BackPressure s' := by
  have linked := Linked.of_reaches started run
  have bounded := Bounded.of_reaches started run
  obtain ⟨rfl, full⟩ : a = .producer ∧ s.ring.writer.fullTest = some s.ring.buffer.head := by
    simpa [notFull] using hit
  obtain ⟨item, rest, tail, index, atLoad⟩ : ∃ item rest tail index,
      s.ring.writer = .loadHead item rest tail index := by
    unfold WriterPc.fullTest at full
    split at full
    · exact ⟨_, _, _, _, ‹_›⟩
    · cases full
  simp only [atLoad, WriterPc.fullTest, Option.some.injEq] at full
  obtain ⟨chunk, inWrite⟩ : ∃ chunk, s.producer = .writing chunk := by
    by_contra outside
    simp [linked.producer (not_exists.mp outside)] at atLoad
  obtain ⟨s', finish, done, sameRunning, sameCall, le⟩ := @finish_chunk size noThrow
    (fun _ => by simp [noThrow]) chunk rest
    { s with ring := { s.ring with
        buffer := s.ring.buffer.disableWriting, writer := .forLoop rest } } inWrite rfl
  refine ⟨s', .trans (.of_run [.producer, .producer] ?_ ?_) finish, ?_⟩
  · simp [Transition.run, step, producerStep, Ring.writerStep, inWrite, atLoad, full]
  · simp [noThrow]
  · intro whole
    have short := whole chunk done (sameRunning.trans running)
    have lengths := congrArg List.length short
    simp only [Bounded, inWrite, atLoad, WriterPc.pending, List.length_cons] at bounded
    simp only [sameCall, List.length_append] at lengths le
    omega

/-- With the writer never meeting a full buffer, each returned `Write` has handed over its
    whole chunk, whatever the chunks are. Conversely the first byte that meets a full buffer
    while the copy is running makes its chunk come out short. -/
theorem backPressure_of_notFull (started : start size calls = some s₀) :
    (∀ s, Reaches size notFull s₀ s → BackPressure s) ∧
      ∀ s a, Reaches size anyStep s₀ s → s.running = true → ¬ notFull s a →
        ∃ s', Reaches size noThrow s s' ∧ ¬ BackPressure s' := by
  constructor
  · intro s run
    obtain ⟨buffer, -, rfl⟩ := start_eq started
    have accounted : Accounted s := by
      apply run.invariant trivial
      intro t a u accounted room next
      exact accounted.step room next
    exact accounted.backPressure
  · intro s a run running full
    exact skipped_byte started run running full

end Reached

/-- A chunk of one byte goes through a buffer of capacity two. -/
theorem backPressure_of_notFull_small : ∃ s₀ s, start 2 [.write [1], .stop] = some s₀ ∧
    Reaches 2 notFull s₀ s ∧ s.producer = .written [1] ∧ s.running = true ∧
    BackPressure s := by
  have run : Reaches 2 notFull ((start 2 [.write [1], .stop]).get rfl) _ :=
    .of_checked_run (.replicate 10 .producer) rfl
  exact ⟨_, _, rfl, run, rfl, rfl, (backPressure_of_notFull rfl).1 _ run⟩

/-- The second byte of a chunk is skipped when the writing thread has not run yet. -/
theorem full_buffer_skips_byte : ¬ ∀ size chunks s₀ s, 2 ≤ size →
    start size (FileDataTransferTask.callsFor chunks) = some s₀ → Reaches size noThrow s₀ s →
    BackPressure s := by
  intro always
  have run : Reaches 2 noThrow ((start 2 (FileDataTransferTask.callsFor [[1, 2]])).get rfl) _ :=
    .of_run (.replicate 13 .producer) rfl (by simp [noThrow])
  have whole := always 2 [[1, 2]] _ _ (by decide) rfl run [1, 2] rfl rfl
  exact absurd whole (by decide)

end MultiThread

end FileTransfer.Threads
