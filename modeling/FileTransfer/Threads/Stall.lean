import FileTransfer.Threads.Drain

/-!
# Both threads waiting for the other

Each thread stores a flag after a test that the other thread may have overtaken: the writer
clears `writingEnabled_` after finding the buffer full, the reader clears `readingEnabled_`
after finding it empty. The two clear flags become a stall when the later of the two stores
comes from a thread that will not make the other flag true again.
-/

namespace FileTransfer.Threads

/-- The read in progress has its `EnableWriting` still before it. -/
def ReaderPc.willEnable : ReaderPc → Bool
  | .sizeHead => true
  | .sizeTail _ => true
  | .loadHead _ => true
  | .copy _ _ _ => true
  | .storeHead _ _ => true
  | .enableWriting _ _ => true
  | _ => false

/-- The write in progress has not finished the last byte of its chunk. -/
def WriterPc.midChunk : WriterPc → Bool
  | .idle => false
  | .forLoop [] => false
  | _ => true

/-- The read is about to clear `readingEnabled_`. -/
def ReaderPc.disables : ReaderPc → Bool
  | .disableReading _ => true
  | _ => false

/-- In the wait loop of `SafeWriteDataAccess::Write` or `Stop`. -/
def ProducerPc.waits : ProducerPc → Bool
  | .writeSpin _ => true
  | .writeSpinRunning _ => true
  | .stopSpin => true
  | _ => false

/-- Past that loop, with `writingEnabled_` still to be relied on. -/
def ProducerPc.pastWait : ProducerPc → Bool
  | .writeCheck _ => true
  | .stopStore => true
  | _ => false

/-- In the wait loop of `SafeReadDataAccess::Read`. -/
def ConsumerPc.waits : ConsumerPc → Bool
  | .readSpin => true
  | .readSpinRunning => true
  | _ => false

namespace MultiThread

variable {capacity : Nat} {s s' : State}

/-- Each thread waits for a flag that only the other would set. -/
structure MutualStall (s : State) : Prop where
  writing : writingEnabled s = false
  reading : readingEnabled s = false
  running : s.running = true
  producer : s.producer.waits = true
  consumer : s.consumer.waits = true

/-- The file writer does not throw; the store that clears `writingEnabled_` for the last byte
    of a chunk finds `readingEnabled_` set or a read that will set `writingEnabled_` again;
    the store that clears `readingEnabled_` finds `writingEnabled_` set or a chunk still being
    written. -/
def flagKept (s : State) (a : Action) : Prop :=
  a ≠ .consumerThrows ∧
    (a = .producer → s.ring.writer = .disableWriting [] →
      readingEnabled s = true ∨ s.ring.reader.willEnable = true) ∧
    (a = .consumer → s.ring.reader.disables = true →
      writingEnabled s = true ∨ s.ring.writer.midChunk = true)

instance (s : State) (a : Action) : Decidable (flagKept s a) :=
  inferInstanceAs (Decidable (_ ∧ _ ∧ _))

/-- Between two chunks, a clear `writingEnabled_` is about to be set by a read, or a read is
    about to come. -/
def Awake (s : State) : Prop :=
  s.ring.writer.midChunk = false → writingEnabled s = false →
    readingEnabled s = true ∨ s.ring.reader.willEnable = true

theorem Awake.writerStep {r r' : Ring} (next : r.writerStep capacity = some r')
    (kept : r.writer = .disableWriting [] →
      r.buffer.state.readingEnabled = true ∨ r.reader.willEnable = true)
    (awake : r.writer.midChunk = false → r.buffer.state.writingEnabled = false →
      r.buffer.state.readingEnabled = true ∨ r.reader.willEnable = true)
    (between : r'.writer.midChunk = false) (clear : r'.buffer.state.writingEnabled = false) :
    r'.buffer.state.readingEnabled = true ∨ r'.reader.willEnable = true := by
  cases Ring.writerStep_move next with
  | leave pc => exact awake (by simp [pc, WriterPc.midChunk]) clear
  | @disableWriting rest pc =>
    cases rest with
    | nil => exact kept pc
    | cons item rest => simp [WriterPc.midChunk] at between
  | enableReading => exact .inl rfl
  | _ => simp [WriterPc.midChunk] at between

theorem Awake.readerStep {r r' : Ring} (next : r.readerStep capacity = some r')
    (kept : r.reader.disables = true →
      r.buffer.state.writingEnabled = true ∨ r.writer.midChunk = true)
    (awake : r.writer.midChunk = false → r.buffer.state.writingEnabled = false →
      r.buffer.state.readingEnabled = true ∨ r.reader.willEnable = true)
    (between : r'.writer.midChunk = false) (clear : r'.buffer.state.writingEnabled = false) :
    r'.buffer.state.readingEnabled = true ∨ r'.reader.willEnable = true := by
  cases Ring.readerStep_move next <;> rename_i pc <;>
    simp only [pc, ReaderPc.willEnable] at awake kept
  case enableWriting => simp [CircularBuffer.enableWriting] at clear
  case empty => exact awake between clear
  case filled => exact awake between clear
  case disableReading =>
    rcases kept rfl with set | inChunk
    · simp [CircularBuffer.disableReading, set] at clear
    · simp [inChunk] at between
  case leave => exact awake between clear
  all_goals exact .inr rfl

theorem Awake.step {a : Action} (h : Awake s) (kept : flagKept s a)
    (next : step capacity s a = some s') : Awake s' := by
  obtain ⟨normal, ofProducer, ofConsumer⟩ := kept
  unfold Awake at h ⊢
  unfold writingEnabled readingEnabled at *
  cases a with
  | producer =>
    rcases producerStep_ring next with same | ⟨chunk, call⟩ | access
    · rw [same]; exact h
    · obtain ⟨outside, call⟩ := Ring.callWrite_eq call
      rw [call]
      intro between clear
      exact h (by simp [outside, WriterPc.midChunk]) clear
    · exact Awake.writerStep access (ofProducer rfl) h
  | consumer =>
    rcases consumerStep_ring next with same | call | access
    · rw [same]; exact h
    · obtain ⟨outside, call⟩ := Ring.callRead_eq call
      rw [call]
      intro between clear
      exact .inr rfl
    · exact Awake.readerStep access (ofConsumer rfl) h
  | consumerThrows => exact absurd rfl normal

/-- A thread in its wait loop is outside the buffer. -/
theorem Awake.not_stalled (h : Awake s) (linked : Linked s) : ¬ MutualStall s := by
  rintro ⟨writing, reading, running, producer, consumer⟩
  have writer : s.ring.writer = .idle := linked.producer fun chunk inside => by
    simp [inside, ProducerPc.waits] at producer
  have reader : s.ring.reader = .idle := linked.consumer fun inside => by
    simp [inside, ConsumerPc.waits] at consumer
  have awake := h (by simp [writer, WriterPc.midChunk]) writing
  simp [reading, reader, ReaderPc.willEnable] at awake

/-- A thread that has got past its wait loop still finds its flag set: only itself would
    have cleared it. -/
structure PastWait (s : State) : Prop where
  write : s.producer.pastWait = true → s.running = true → writingEnabled s = true
  read : s.consumer = .readCheck → s.running = true → readingEnabled s = true

/-- The writing thread never clears `writingEnabled_`. -/
theorem consumerStep_writingEnabled (next : consumerStep capacity s = some s')
    (set : writingEnabled s = true) : writingEnabled s' = true := by
  unfold writingEnabled at *
  have accessed : ∀ {ring}, s.ring.readerStep capacity = some ring →
      ring.buffer.state.writingEnabled = true := by
    intro ring access
    cases Ring.readerStep_move access with
    | enableWriting => rfl
    | _ => exact set
  cases consumerStep_move next with
  | enter _ call => rw [(Ring.callRead_eq call).2]; exact set
  | access _ access => exact accessed access
  | leave _ access => exact accessed access
  | _ => exact set

/-- The reading thread never clears `readingEnabled_`. -/
theorem producerStep_readingEnabled (next : producerStep capacity s = some s')
    (set : readingEnabled s = true) : readingEnabled s' = true := by
  unfold readingEnabled at *
  cases producerStep_move next with
  | enter _ _ call => rw [(Ring.callWrite_eq call).2]; exact set
  | @access _ ring access =>
    cases Ring.writerStep_move access with
    | enableReading => rfl
    | _ => exact set
  | _ => exact set

theorem PastWait.producerStep (h : PastWait s) (next : producerStep capacity s = some s') :
    PastWait s' := by
  obtain ⟨consumer, -⟩ := producerStep_frame next
  have kept := producerStep_readingEnabled next
  refine ⟨?_, ?_⟩
  · cases producerStep_move next with
    | writeEnabled set => exact fun _ _ => set
    | writeStopped stopped => simp [stopped]
    | stopEnabled set => exact fun _ _ => set
    | access _ pc => simp [pc, ProducerPc.pastWait]
    | stopDisabled pc => simp [pc, ProducerPc.pastWait]
    | _ => simp [ProducerPc.pastWait]
  · intro atCheck running
    rw [consumer] at atCheck
    rcases producerStep_running next with same | ⟨-, rfl⟩
    · exact kept (h.read atCheck (same ▸ running))
    · cases running

theorem PastWait.consumerStep (h : PastWait s) (next : consumerStep capacity s = some s') :
    PastWait s' := by
  obtain ⟨producer, -⟩ := consumerStep_frame next
  have kept := consumerStep_writingEnabled next
  have running := consumerStep_running next
  refine ⟨?_, ?_⟩
  · intro past set
    exact kept (h.write (producer ▸ past) (running set))
  · cases consumerStep_move next with
    | readEnabled set => exact fun _ _ => set
    | readStopped stopped => simp [stopped]
    | access _ _ pc => simp [pc]
    | leave => unfold afterRead; split <;> simp
    | _ => simp

theorem PastWait.step {a : Action} (h : PastWait s) (next : step capacity s a = some s') :
    PastWait s' := by
  cases a with
  | producer => exact h.producerStep next
  | consumer => exact h.consumerStep next
  | consumerThrows =>
    obtain ⟨-, rfl⟩ := consumerThrows_eq next
    exact ⟨h.write, by simp⟩

/-- The reading thread, alone, goes on to its next wait loop. -/
theorem producer_reaches_wait (linked : Linked s) (past : PastWait s) (script : Script s)
    (running : s.running = true) (between : s.ring.writer.midChunk = false)
    (clear : writingEnabled s = false) :
    ∃ s', Reaches capacity noThrow s s' ∧ s'.producer.waits = true ∧ s'.running = true ∧
      s'.consumer = s.consumer ∧ s'.ring.reader = s.ring.reader ∧
      s'.ring.buffer = s.ring.buffer := by
  have write := past.write
  have writer := linked.producer
  rw [Script, if_pos running] at script
  obtain ⟨⟨buffer, writerPc, reader, accepted, returned⟩, _, calls, producer, consumer, written,
    atCall⟩ := s
  cases running
  -- From `next` the call to come is a `Write` or the `Stop`.
  have fromNext : ∀ chunks, calls = FileDataTransferTask.callsFor chunks →
      ∃ s', Reaches capacity noThrow ⟨⟨buffer, .idle, reader, accepted, returned⟩, true, calls,
          .next, consumer, written, atCall⟩ s' ∧ s'.producer.waits = true ∧ s'.running = true ∧
        s'.consumer = consumer ∧ s'.ring.reader = reader ∧ s'.ring.buffer = buffer := by
    rintro chunks rfl
    cases chunks with
    | nil => exact ⟨_, .of_run [.producer] rfl (by simp [noThrow]), rfl, rfl, rfl, rfl, rfl⟩
    | cons => exact ⟨_, .of_run [.producer] rfl (by simp [noThrow]), rfl, rfl, rfl, rfl, rfl⟩
  cases producer with
  | next =>
    obtain ⟨chunks, script⟩ := script
    cases writer (by simp)
    exact fromNext chunks script
  | written chunk =>
    obtain ⟨chunks, script⟩ := script
    cases writer (by simp)
    obtain ⟨s', rest, facts⟩ := fromNext chunks script
    exact ⟨s', .trans (.of_run [.producer] rfl (by simp [noThrow])) rest, facts⟩
  | writing chunk =>
    obtain ⟨chunks, script⟩ := script
    obtain ⟨s', rest, facts⟩ := fromNext chunks script
    cases writerPc with
    | idle =>
      exact ⟨s', .trans (.of_run [.producer, .producer] rfl (by simp [noThrow])) rest, facts⟩
    | forLoop data =>
      cases data with
      | nil =>
        exact ⟨s', .trans (.of_run [.producer, .producer, .producer] rfl (by simp [noThrow])) rest,
          facts⟩
      | cons item data => cases between
    | loadHead => cases between
    | disableWriting => cases between
    | storeData => cases between
    | storeTail => cases between
    | enableReading => cases between
  | writeSpin => exact ⟨_, .refl, rfl, rfl, rfl, rfl, rfl⟩
  | writeSpinRunning => exact ⟨_, .refl, rfl, rfl, rfl, rfl, rfl⟩
  | stopSpin => exact ⟨_, .refl, rfl, rfl, rfl, rfl, rfl⟩
  | writeCheck => cases clear.symm.trans (write rfl rfl)
  | stopStore => cases clear.symm.trans (write rfl rfl)
  | finished => cases script

/-- The writing thread, alone, goes on to its next wait loop. -/
theorem consumer_reaches_wait (linked : Linked s) (past : PastWait s) (passed : Passed s)
    (running : s.running = true) (late : s.ring.reader.willEnable = false)
    (clear : readingEnabled s = false) :
    ∃ s', Reaches capacity noThrow s s' ∧ s'.consumer.waits = true ∧ s'.running = true ∧
      s'.producer = s.producer ∧ writingEnabled s' = writingEnabled s ∧
      readingEnabled s' = false := by
  have read := past.read
  obtain ⟨-, finished, normal⟩ := passed
  have reading := linked.reading
  obtain ⟨⟨⟨data, head, tail, ⟨w, r⟩⟩, writer, readerPc, accepted, returned⟩, _, calls, producer,
    consumer, written, atCall⟩ := s
  cases running
  cases clear
  have fromWriting : ∀ readerPc returned chunk, ∃ s', Reaches capacity noThrow
      ⟨⟨⟨data, head, tail, ⟨w, false⟩⟩, writer, readerPc, accepted, returned⟩, true, calls,
        producer, .writing chunk, written, atCall⟩ s' ∧ s'.consumer.waits = true ∧
      s'.running = true ∧ s'.producer = producer ∧ writingEnabled s' = w ∧
      readingEnabled s' = false := fun _ _ _ =>
    ⟨_, .of_run [.consumer, .consumer] rfl (by simp [noThrow]), rfl, rfl, rfl, rfl, rfl⟩
  have fromDone : ∀ chunk, ∃ s', Reaches capacity noThrow
      ⟨⟨⟨data, head, tail, ⟨w, false⟩⟩, writer, .done chunk, accepted, returned⟩, true, calls,
        producer, .reading, written, atCall⟩ s' ∧ s'.consumer.waits = true ∧
      s'.running = true ∧ s'.producer = producer ∧ writingEnabled s' = w ∧
      readingEnabled s' = false := by
    intro chunk
    cases chunk with
    | nil =>
      exact ⟨_, .of_run [.consumer, .consumer] rfl (by simp [noThrow]), rfl, rfl, rfl, rfl, rfl⟩
    | cons item rest =>
      obtain ⟨s', run, facts⟩ := fromWriting .idle (returned ++ [item :: rest]) (item :: rest)
      exact ⟨s', .trans (.of_run [.consumer] rfl (by simp [noThrow])) run, facts⟩
  cases consumer with
  | loop => exact ⟨_, .of_run [.consumer] rfl (by simp [noThrow]), rfl, rfl, rfl, rfl, rfl⟩
  | readSpin => exact ⟨_, .refl, rfl, rfl, rfl, rfl, rfl⟩
  | readSpinRunning => exact ⟨_, .refl, rfl, rfl, rfl, rfl, rfl⟩
  | readCheck => cases read rfl rfl
  | writing chunk => exact fromWriting ..
  | stopping => exact absurd rfl normal.1
  | finished => cases finished rfl
  | failed => exact absurd rfl normal.2
  | reading =>
    cases readerPc with
    | idle => exact absurd rfl (reading rfl)
    | done chunk => exact fromDone chunk
    | disableReading chunk =>
      obtain ⟨s', run, facts⟩ := fromDone chunk
      exact ⟨s', .trans (.of_run [.consumer] rfl (by simp [noThrow])) run, facts⟩
    | loadTail chunk newHead =>
      obtain ⟨s', run, facts⟩ := fromDone chunk
      by_cases empty : newHead = tail
      · refine ⟨s', .trans (.of_run [.consumer, .consumer] ?_ (by simp [noThrow])) run, facts⟩
        simp [Transition.run, step, consumerStep, Ring.readerStep, empty,
          CircularBuffer.disableReading]
      · refine ⟨s', .trans (.of_run [.consumer] ?_ (by simp [noThrow])) run, facts⟩
        simp [Transition.run, step, consumerStep, Ring.readerStep, empty]
    | sizeHead => cases late
    | sizeTail => cases late
    | loadHead => cases late
    | copy => cases late
    | storeHead => cases late
    | enableWriting => cases late

section Reached

variable {size : Nat} {content : List UInt8} {ok : State → Action → Prop} {s₀ : State}

theorem PastWait.of_reaches {calls : List Call} (started : MultiThread.start size calls = some s₀)
    (run : Reaches size ok s₀ s) : PastWait s := by
  obtain ⟨buffer, -, rfl⟩ := start_eq started
  exact run.invariant ⟨by simp [ProducerPc.pastWait], by simp⟩ fun _ _ _ past _ next =>
    past.step next

/-- With both flags clear and neither of them about to be set, both threads go on to their
    wait loops. -/
theorem stall_follows (two : 2 ≤ size) (addressable : size ≤ 2 ^ 63) (copying : Copying size s)
    (past : PastWait s) (running : s.running = true) (between : s.ring.writer.midChunk = false)
    (writing : writingEnabled s = false) (late : s.ring.reader.willEnable = false)
    (reading : readingEnabled s = false) :
    ∃ t, Reaches size noThrow s t ∧ MutualStall t := by
  obtain ⟨m, first, producer, running', sameConsumer, sameReader, sameBuffer⟩ :=
    @producer_reaches_wait size _ copying.linked past copying.script running between writing
  have copying' := copying.of_reaches two addressable (fun _ _ guard => guard) first
  have past' : PastWait m := first.invariant past fun _ _ _ past _ next => past.step next
  have writing' : writingEnabled m = false := by simpa [writingEnabled, sameBuffer] using writing
  have reading' : readingEnabled m = false := by simpa [readingEnabled, sameBuffer] using reading
  obtain ⟨t, second, consumer, running'', sameProducer, sameWriting, clear⟩ :=
    @consumer_reaches_wait size _ copying'.linked past' copying'.passed running'
      (by rw [sameReader]; exact late) reading'
  exact ⟨t, first.trans second, sameWriting.trans writing', clear, running'',
    by rw [sameProducer]; exact producer, consumer⟩

/-- A step that breaks the condition leaves both flags clear for good. -/
theorem stall_of_step (two : 2 ≤ size) (addressable : size ≤ 2 ^ 63) (copying : Copying size s)
    (past : PastWait s) (running : s.running = true) {a : Action} (normal : noThrow s a)
    (lost : ¬ flagKept s a) (next : step size s a = some s') :
    ∃ t, Reaches size noThrow s' t ∧ MutualStall t := by
  have copying' := copying.step two addressable normal next
  have past' := past.step next
  have running' : s'.running = true := by
    cases a with
    | producer =>
      rcases producerStep_running next with same | ⟨store, -⟩
      · rw [same, running]
      · -- At its store `Stop` is outside the buffer.
        have outside := copying.linked.producer (by simp [store])
        simp [flagKept, outside] at lost
    | consumer => rw [consumerStep_sameRunning copying.passed.normal.1 next, running]
    | consumerThrows => exact absurd rfl normal
  cases a with
  | producer =>
    obtain ⟨last, reading, late⟩ : s.ring.writer = .disableWriting [] ∧
        readingEnabled s = false ∧ s.ring.reader.willEnable = false := by
      simpa [flagKept] using lost
    obtain ⟨chunk, inWrite⟩ : ∃ chunk, s.producer = .writing chunk := by
      by_contra outside
      simp [copying.linked.producer (not_exists.mp outside)] at last
    simp only [step, producerStep, inWrite, last, Ring.writerStep, reduceCtorEq, if_false,
      Option.map_some, Option.some.injEq] at next
    subst next
    exact stall_follows two addressable copying' past' running' rfl rfl late reading
  | consumer =>
    obtain ⟨disables, writing, between⟩ : s.ring.reader.disables = true ∧
        writingEnabled s = false ∧ s.ring.writer.midChunk = false := by
      simpa [flagKept] using lost
    obtain ⟨chunk, atStore⟩ : ∃ chunk, s.ring.reader = .disableReading chunk := by
      unfold ReaderPc.disables at disables
      split at disables
      · exact ⟨_, ‹_›⟩
      · cases disables
    have inRead : s.consumer = .reading := by
      by_contra outside
      simp [copying.linked.consumer outside] at atStore
    simp only [step, consumerStep, inRead, atStore, Ring.readerStep, Option.map_some,
      Option.some.injEq] at next
    subst next
    exact stall_follows two addressable copying' past' running' between writing rfl rfl
  | consumerThrows => exact absurd rfl normal

/-- While every store that clears a flag meets the condition there is no mutual stall; and
    after one that does not, with the copy still running, there is always a run to a mutual
    stall. -/
theorem noStall_of_flagKept (two : 2 ≤ size) (started : startCopy size content = some s₀) :
    (∀ s, Reaches size flagKept s₀ s → ¬ MutualStall s) ∧
      ∀ s a s', Reaches size noThrow s₀ s → s.running = true → noThrow s a → ¬ flagKept s a →
        step size s a = some s' → ∃ t, Reaches size noThrow s' t ∧ MutualStall t := by
  obtain ⟨chunks, begun, -⟩ := startCopy_eq started
  obtain ⟨buffer, created, initial⟩ := start_eq begun
  have addressable := (CircularBuffer.create_spec created).1
  constructor
  · intro s run
    have awake : Awake s := by
      refine run.invariant ?_ fun _ _ _ awake kept next => awake.step kept next
      obtain ⟨-, -, -, fresh⟩ := CircularBuffer.create_spec created
      intro _ clear
      simp [writingEnabled, initial, Ring.start, fresh] at clear
    exact awake.not_stalled (Linked.of_reaches begun run)
  · intro s a s' run running normal lost next
    have copying := (Copying.start two begun).of_reaches two addressable
      (fun _ _ guard => guard) run
    exact stall_of_step two addressable copying (PastWait.of_reaches begun run) running normal
      lost next

end Reached

/-- A two-byte file at capacity two, with each thread running to its next wait loop in turn. -/
theorem noStall_of_flagKept_small : ∃ s₀ s, startCopy 2 [1, 2] = some s₀ ∧
    Reaches 2 flagKept s₀ s ∧ s.written = [[1]] ∧ s.consumer = .finished ∧ ¬ MutualStall s := by
  have started := @startCopy_short 2 [1, 2] (by decide) (by decide)
  have run : Reaches 2 flagKept
      ((start 2 (FileDataTransferTask.callsFor [[1, 2]])).get rfl) _ :=
    .of_checked_run (.replicate 14 .producer ++ .replicate 14 .consumer ++
      .replicate 3 .producer ++ [.consumer]) rfl
  exact ⟨_, _, started.trans rfl, run, rfl, rfl,
    (noStall_of_flagKept (by decide) (started.trans rfl)).1 _ run⟩

/-- The writing thread empties the buffer between the reading thread's test for the second
    byte and its `DisableWriting`; then `Stop` and `Read` wait for each other. -/
theorem threads_stall : ¬ ∀ size content s₀ s, 2 ≤ size → startCopy size content = some s₀ →
    Reaches size noThrow s₀ s → ¬ MutualStall s := by
  intro always
  have started := @startCopy_short 2 [1, 2] (by decide) (by decide)
  have run : Reaches 2 noThrow
      ((start 2 (FileDataTransferTask.callsFor [[1, 2]])).get rfl) _ :=
    .of_run (.replicate 10 .producer ++ .replicate 15 .consumer ++ .replicate 5 .producer) rfl
      (by simp [noThrow])
  exact always 2 [1, 2] _ _ (by decide) (started.trans rfl) run ⟨rfl, rfl, rfl, rfl, rfl⟩

end MultiThread

end FileTransfer.Threads
