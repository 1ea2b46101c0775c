import FileTransfer.Threads.BackPressure

/-!
# A writing thread that fails

When the file writer throws, the writing thread clears `running_` and returns. The wait loop of
`SafeWriteDataAccess::Write` looks at `running_`, so that the rest of the file is skipped; the
loop of its `Stop` looks at `writingEnabled_` alone, which only the writing thread would set.
-/

namespace FileTransfer.Threads

/-- The write is about to clear `writingEnabled_`. -/
def WriterPc.disables : WriterPc → Bool
  | .disableWriting _ => true
  | _ => false

/-- The steps left to a write in the buffer. -/
def WriterPc.left : WriterPc → Nat
  | .idle => 0
  | .forLoop data => 5 * data.length + 1
  | .loadHead _ rest _ _ => 5 * rest.length + 5
  | .disableWriting rest => 5 * rest.length + 2
  | .storeData _ rest _ _ => 5 * rest.length + 4
  | .storeTail _ rest _ => 5 * rest.length + 3
  | .enableReading rest => 5 * rest.length + 2

theorem Ring.writerStep_left {capacity : Nat} {r r' : Ring}
    (next : r.writerStep capacity = some r') : r'.writer.left < r.writer.left := by
  cases writerStep_move next <;> rename_i pc <;>
    simp only [pc, WriterPc.left, List.length_cons, List.length_nil] <;> omega

theorem Ring.writerStep_isSome {capacity : Nat} {r : Ring} (inside : r.writer ≠ .idle) :
    ∃ r', r.writerStep capacity = some r' := by
  unfold writerStep
  split
  · exact absurd ‹_› inside
  · exact ⟨_, rfl⟩
  · exact ⟨_, rfl⟩
  · split <;> exact ⟨_, rfl⟩
  all_goals exact ⟨_, rfl⟩

namespace MultiThread

/-- The exit condition of the wait loop that the reading thread is in. -/
def exitCondition (s : State) : Prop :=
  match s.producer with
  | .writeSpin _ => writingEnabled s = true ∨ s.running = false
  | .writeSpinRunning _ => writingEnabled s = true ∨ s.running = false
  | .stopSpin => writingEnabled s = true
  | _ => True

/-- The writing thread is gone, and the reading thread waits for what it would have done. -/
structure Held (s : State) : Prop where
  gone : s.consumer = .finished ∨ s.consumer = .failed
  stopped : s.running = false
  waiting : ¬ exitCondition s

/-- The reading thread has left the loop of `Stop`. -/
def stopPassed (s : State) : Prop := s.calls = [] ∧ s.producer ≠ .stopSpin

/-- The failing `Stop` finds `writingEnabled_` set, or the other thread past its own `Stop`; and
    after it `DisableWriting` is stored no more, not even for a byte that found the buffer full
    before. -/
def leavesEnabled (s : State) (a : Action) : Prop :=
  (a = .consumer → s.consumer = .stopping → writingEnabled s = true ∨ stopPassed s) ∧
    (a = .producer → s.consumer = .failed → s.ring.writer.disables = false)

instance (s : State) : Decidable (stopPassed s) := inferInstanceAs (Decidable (_ ∧ _))

instance (s : State) (a : Action) : Decidable (leavesEnabled s a) :=
  inferInstanceAs (Decidable ((_ → _ → _) ∧ (_ → _ → _)))

/-- Nothing ends the wait. -/
theorem Held.step {capacity : Nat} {s s' : State} {a : Action} (h : Held s)
    (next : step capacity s a = some s') : s' = s := by
  obtain ⟨gone, clear, waiting⟩ := h
  have alone : a = .producer := by
    cases a with
    | producer => rfl
    | consumer => rcases gone with pc | pc <;> simp [MultiThread.step, consumerStep, pc] at next
    | consumerThrows =>
      rcases gone with pc | pc <;> simp [MultiThread.step, consumerThrows, pc] at next
  subst alone
  unfold exitCondition at waiting
  cases pc : s.producer <;> simp only [pc, clear, or_true, not_true_eq_false] at waiting
  case stopSpin =>
    simp only [MultiThread.step, producerStep, pc, if_neg waiting, Option.some.injEq] at next
    exact next.symm

/-- The calls of the reading thread are those of a copy, of which `Stop` is the last. -/
def Scripted (s : State) : Prop :=
  match s.producer with
  | .stopSpin => s.calls = []
  | .stopStore => s.calls = []
  | .finished => s.calls = []
  | .next => s.calls = [] ∨ ∃ chunks, s.calls = FileDataTransferTask.callsFor chunks
  | _ => ∃ chunks, s.calls = FileDataTransferTask.callsFor chunks

variable {capacity : Nat} {s s' : State}

theorem Scripted.producerStep (h : Scripted s) (next : producerStep capacity s = some s') :
    Scripted s' := by
  unfold Scripted at h
  cases producerStep_move next <;> rename_i pc <;> simp only [pc] at h
  case finish none => exact none
  case callWrite call =>
    rcases h with none | ⟨chunks, calls⟩
    · cases none.symm.trans call
    · cases chunks with
      | nil => cases call.symm.trans calls
      | cons chunk chunks =>
        cases call.symm.trans calls
        exact ⟨chunks, rfl⟩
  case callStop call =>
    rcases h with none | ⟨chunks, calls⟩
    · cases none.symm.trans call
    · cases chunks with
      | nil =>
        cases call.symm.trans calls
        rfl
      | cons chunk chunks => cases call.symm.trans calls
  case access =>
    simp only [Scripted, pc]
    exact h
  case returned => exact Or.inr h
  case stopDisabled =>
    simp only [Scripted, pc]
    exact h
  case stopStore => exact Or.inl h
  all_goals exact h

theorem Scripted.step {a : Action} (h : Scripted s) (next : step capacity s a = some s') :
    Scripted s' := by
  cases a with
  | producer => exact h.producerStep next
  | consumer =>
    obtain ⟨producer, calls, -⟩ := consumerStep_frame next
    unfold Scripted
    rw [producer, calls]
    exact h
  | consumerThrows =>
    obtain ⟨-, rfl⟩ := consumerThrows_eq next
    exact h

/-- Once left, the loop of `Stop` is not entered again. -/
theorem stopPassed_step {a : Action} (h : stopPassed s) (next : step capacity s a = some s') :
    stopPassed s' := by
  obtain ⟨calls, left⟩ := h
  cases a with
  | producer =>
    cases producerStep_move next <;> rename_i pc
    case callWrite call => cases calls.symm.trans call
    case callStop call => cases calls.symm.trans call
    case access => exact ⟨calls, by simp [pc]⟩
    case stopDisabled => exact absurd pc left
    all_goals exact ⟨calls, by simp⟩
  | consumer =>
    obtain ⟨producer, sameCalls, -⟩ := consumerStep_frame next
    unfold stopPassed
    rw [producer, sameCalls]
    exact ⟨calls, left⟩
  | consumerThrows =>
    obtain ⟨-, rfl⟩ := consumerThrows_eq next
    exact ⟨calls, left⟩

/-- Only the failing thread clears `running_` before the other has left its `Stop`. -/
structure Ending (s : State) : Prop where
  stopped : s.running = false → s.consumer = .failed ∨ stopPassed s
  finished : s.consumer = .finished → s.running = false ∧ stopPassed s
  failed : s.consumer = .failed → s.running = false

theorem Ending.step {a : Action} (h : Ending s) (scripted : Scripted s)
    (next : step capacity s a = some s') : Ending s' := by
  have passed : stopPassed s → stopPassed s' := fun before => stopPassed_step before next
  obtain ⟨stopped, finished, failed⟩ := h
  cases a with
  | producer =>
    have consumer := (producerStep_frame next).1
    rcases producerStep_running next with same | ⟨pc, rfl⟩
    · refine ⟨?_, ?_, fun gone => same.trans (failed (consumer.symm.trans gone))⟩
      · intro clear
        rw [consumer]
        exact (stopped (same.symm.trans clear)).imp_right passed
      · intro gone
        obtain ⟨clear, before⟩ := finished (consumer.symm.trans gone)
        exact ⟨same.trans clear, passed before⟩
    · have calls : s.calls = [] := by
        simpa only [Scripted, pc] using scripted
      exact ⟨fun _ => Or.inr ⟨calls, by simp⟩, fun _ => ⟨rfl, calls, by simp⟩, fun _ => rfl⟩
  | consumer =>
    cases consumerStep_move next <;> rename_i pc <;>
      simp only [pc, reduceCtorEq, false_or] at stopped
    case finish clear => exact ⟨fun _ => Or.inr (passed (stopped clear)),
      fun _ => ⟨clear, passed (stopped clear)⟩, by rintro ⟨⟩⟩
    case leave chunk ring done access =>
      refine ⟨fun clear => Or.inr (passed (stopped clear)), ?_, ?_⟩ <;>
      · intro gone
        simp only [afterRead] at gone
        split at gone <;> cases gone
    case access =>
      exact ⟨fun clear => Or.inr (passed (stopped clear)), fun gone => by simp [pc] at gone,
        fun gone => by simp [pc] at gone⟩
    case fail => exact ⟨fun _ => Or.inl rfl, by rintro ⟨⟩, fun _ => rfl⟩
    all_goals
      exact ⟨fun clear => Or.inr (passed (stopped clear)), by rintro ⟨⟩, by rintro ⟨⟩⟩
  | consumerThrows =>
    obtain ⟨⟨chunk, writing⟩, rfl⟩ := consumerThrows_eq next
    rw [writing] at stopped
    refine ⟨fun clear => Or.inr ?_, by rintro ⟨⟩, by rintro ⟨⟩⟩
    rcases stopped clear with ⟨⟨⟩⟩ | before
    exact before

/-- After a failure that left `writingEnabled_` set, it stays set until `Stop` is left. -/
def Released (s : State) : Prop :=
  s.consumer = .failed → writingEnabled s = true ∨ stopPassed s

/-- The reading thread clears `writingEnabled_` only when it finds the buffer full. -/
theorem producerStep_writingEnabled (next : producerStep capacity s = some s') :
    writingEnabled s' = writingEnabled s ∨ s.ring.writer.disables = true := by
  cases producerStep_move next with
  | enter _ _ call =>
    obtain ⟨-, rfl⟩ := Ring.callWrite_eq call
    exact Or.inl rfl
  | access access =>
    cases Ring.writerStep_move access with
    | disableWriting pc =>
      rw [pc]
      exact Or.inr rfl
    | _ => exact Or.inl rfl
  | _ => exact Or.inl rfl

theorem Released.step {a : Action} (h : Released s) (leaves : leavesEnabled s a)
    (next : step capacity s a = some s') : Released s' := by
  have passed : stopPassed s → stopPassed s' := fun before => stopPassed_step before next
  intro gone
  cases a with
  | producer =>
    have before : s.consumer = .failed := (producerStep_frame next).1.symm.trans gone
    rcases producerStep_writingEnabled next with same | full
    · rw [same]
      exact (h before).imp_right passed
    · cases full.symm.trans (leaves.2 rfl before)
  | consumer =>
    have fails := leaves.1 rfl
    cases consumerStep_move next <;> rename_i pc <;> simp only [pc, reduceCtorEq] at gone
    case leave =>
      simp only [afterRead] at gone
      split at gone <;> cases gone
    case fail => exact (fails pc).imp_right passed
  | consumerThrows =>
    obtain ⟨-, rfl⟩ := consumerThrows_eq next
    cases gone

theorem Released.not_held (h : Released s) (ending : Ending s) : ¬ Held s := by
  rintro ⟨gone, clear, waiting⟩
  have passed : writingEnabled s = true ∨ stopPassed s := by
    rcases gone with finished | failed
    · exact Or.inr (ending.finished finished).2
    · exact h failed
  apply waiting
  unfold exitCondition
  cases pc : s.producer <;> simp only [clear, or_true]
  case stopSpin => exact passed.resolve_right fun before => before.2 pc

/-- A bound on the steps of the reading thread up to the loop of `Stop`, with `running_` clear. -/
def stepsToStop (s : State) : Nat :=
  6 * s.calls.length +
    match s.producer with
    | .writeSpin _ => 4
    | .writeSpinRunning _ => 3
    | .writeCheck _ => 2
    | .writing _ => s.ring.writer.left + 2
    | .written _ => 1
    | _ => 0

/-- The failing thread has left `writingEnabled_` clear, and `Stop` is still to come. -/
structure Doomed (s : State) : Prop where
  failed : s.consumer = .failed
  stopped : s.running = false
  disabled : writingEnabled s = false
  toCome : s.producer = .stopSpin ∨ ((s.producer ≠ .stopStore ∧ s.producer ≠ .finished) ∧
    ∃ chunks, s.calls = FileDataTransferTask.callsFor chunks)

theorem Doomed.held (h : Doomed s) (there : s.producer = .stopSpin) : Held s := by
  refine ⟨Or.inr h.failed, h.stopped, ?_⟩
  unfold exitCondition
  rw [there]
  simp only [h.disabled, Bool.false_eq_true, not_false_eq_true]

/-- The reading thread goes on alone: no wait of `Write` holds it, and none of its accesses sets
    `writingEnabled_`. -/
theorem Doomed.advance (h : Doomed s) (before : s.producer ≠ .stopSpin) :
    ∃ s', producerStep capacity s = some s' ∧ Doomed s' ∧ stepsToStop s' < stepsToStop s := by
  obtain ⟨failed, stopped, disabled, toCome⟩ := h
  obtain ⟨⟨inStop, running⟩, chunks, calls⟩ := toCome.resolve_left before
  cases pc : s.producer with
  | next =>
    cases chunks with
    | nil =>
      refine ⟨{ s with calls := [], producer := .stopSpin }, ?_,
        ⟨failed, stopped, disabled, Or.inl rfl⟩, ?_⟩
      · simp [producerStep, pc, calls, FileDataTransferTask.callsFor]
      · simp [stepsToStop, calls, FileDataTransferTask.callsFor, pc]
    | cons chunk chunks =>
      refine ⟨{ s with
          calls := FileDataTransferTask.callsFor chunks
          producer := .writeSpin chunk
          atCall := s.ring.accepted }, ?_,
        ⟨failed, stopped, disabled, Or.inr ⟨by simp, chunks, rfl⟩⟩, ?_⟩
      · simp [producerStep, pc, calls, FileDataTransferTask.callsFor]
      · simp only [stepsToStop, calls, FileDataTransferTask.callsFor, pc, List.map_cons,
          List.cons_append, List.length_cons]
        omega
  | writeSpin chunk =>
    refine ⟨{ s with producer := .writeSpinRunning chunk }, ?_,
      ⟨failed, stopped, disabled, Or.inr ⟨by simp, chunks, calls⟩⟩, ?_⟩
    · simp [producerStep, pc, disabled]
    · simp [stepsToStop, pc]
  | writeSpinRunning chunk =>
    refine ⟨{ s with producer := .writeCheck chunk }, ?_,
      ⟨failed, stopped, disabled, Or.inr ⟨by simp, chunks, calls⟩⟩, ?_⟩
    · simp [producerStep, pc, stopped]
    · simp [stepsToStop, pc]
  | writeCheck chunk =>
    refine ⟨{ s with producer := .written chunk }, ?_,
      ⟨failed, stopped, disabled, Or.inr ⟨by simp, chunks, calls⟩⟩, ?_⟩
    · simp [producerStep, pc, stopped]
    · simp [stepsToStop, pc]
  | writing chunk =>
    by_cases outside : s.ring.writer = .idle
    · refine ⟨{ s with producer := .written chunk }, ?_,
        ⟨failed, stopped, disabled, Or.inr ⟨by simp, chunks, calls⟩⟩, ?_⟩
      · simp [producerStep, pc, outside]
      · simp [stepsToStop, pc, outside, WriterPc.left]
    · obtain ⟨ring, access⟩ := @Ring.writerStep_isSome capacity s.ring outside
      have less := Ring.writerStep_left access
      have next : producerStep capacity s = some { s with ring } := by
        simp [producerStep, pc, outside, access]
      have still : writingEnabled { s with ring } = false := by
        cases Ring.writerStep_move access with
        | disableWriting => rfl
        | _ => exact disabled
      refine ⟨{ s with ring }, next,
        ⟨failed, stopped, still, Or.inr ⟨by simp [pc], chunks, calls⟩⟩, ?_⟩
      simpa [stepsToStop, pc] using less
  | written chunk =>
    refine ⟨{ s with producer := .next }, ?_,
      ⟨failed, stopped, disabled, Or.inr ⟨by simp, chunks, calls⟩⟩, ?_⟩
    · simp [producerStep, pc]
    · simp [stepsToStop, pc]
  | stopSpin => exact absurd pc before
  | stopStore => exact absurd pc inStop
  | finished => exact absurd pc running

theorem Doomed.reaches_held (h : Doomed s) :
    ∃ t, Reaches capacity anyStep s t ∧ Held t := by
  obtain ⟨t, run, doomed, there⟩ := @Transition.Reaches.of_rank _ _ (step capacity) anyStep Doomed
    (fun t => t.producer = .stopSpin) stepsToStop
    (fun u doomed before =>
      let ⟨v, next, doomed', less⟩ := doomed.advance before
      ⟨.producer, v, trivial, next, doomed', less⟩) s h
  exact ⟨t, run, doomed.held there⟩

/-- Where `Stop` has not been left, it is to be called or in its loop. -/
theorem Scripted.toCome (h : Scripted s) (before : ¬ stopPassed s) :
    s.producer = .stopSpin ∨ ((s.producer ≠ .stopStore ∧ s.producer ≠ .finished) ∧
      ∃ chunks, s.calls = FileDataTransferTask.callsFor chunks) := by
  unfold Scripted at h
  unfold stopPassed at before
  cases pc : s.producer <;> simp only [pc] at h before
  case stopSpin => exact Or.inl rfl
  case next =>
    rcases h with none | calls
    · exact absurd ⟨none, by simp⟩ before
    · exact Or.inr ⟨by simp, calls⟩
  case stopStore => exact absurd ⟨h, by simp⟩ before
  case finished => exact absurd ⟨h, by simp⟩ before
  all_goals exact Or.inr ⟨by simp, h⟩

section Reached

variable {size : Nat} {content : List UInt8} {s₀ : State} {ok : State → Action → Prop}

theorem Scripted.of_reaches (started : startCopy size content = some s₀)
    (run : Reaches size ok s₀ s) : Scripted s := by
  obtain ⟨chunks, begun, -⟩ := startCopy_eq started
  obtain ⟨buffer, -, rfl⟩ := start_eq begun
  exact run.invariant (Or.inr ⟨chunks, rfl⟩) fun _ _ _ scripted _ next => scripted.step next

theorem Ending.of_reaches (started : startCopy size content = some s₀)
    (run : Reaches size ok s₀ s) : Ending s := by
  have scripted : ∀ t, Reaches size ok s₀ t → Scripted t :=
    fun _ reached => Scripted.of_reaches started reached
  obtain ⟨chunks, begun, -⟩ := startCopy_eq started
  obtain ⟨buffer, -, rfl⟩ := start_eq begun
  refine run.invariant_of scripted ⟨by rintro ⟨⟩, by rintro ⟨⟩, by rintro ⟨⟩⟩ ?_
  intro t a u scripted ending _ next
  exact ending.step scripted next

/-- While every failure of the file writer leaves `writingEnabled_` set for the `Stop` that is
    still to come, no failure holds the reading thread; and after a step that does not, there is
    always a run in which it is held. -/
theorem not_held_of_leavesEnabled (started : startCopy size content = some s₀) :
    (∀ s, Reaches size leavesEnabled s₀ s → ¬ Held s) ∧
      ∀ s a s', Reaches size anyStep s₀ s → ¬ leavesEnabled s a → step size s a = some s' →
        ∃ t, Reaches size anyStep s' t ∧ Held t := by
  constructor
  · intro s run
    have released : Released s := by
      refine run.invariant ?_ fun _ _ _ released leaves next => released.step leaves next
      obtain ⟨chunks, begun, -⟩ := startCopy_eq started
      obtain ⟨buffer, -, rfl⟩ := start_eq begun
      rintro ⟨⟩
    exact released.not_held (Ending.of_reaches started run)
  · intro s a s' run left next
    have scripted := Scripted.of_reaches started run
    obtain ⟨chunks, begun, -⟩ := startCopy_eq started
    apply Doomed.reaches_held
    rcases not_and_or.mp left with fails | fills
    · obtain ⟨rfl, fails, disabled, before⟩ : a = .consumer ∧ s.consumer = .stopping ∧
          writingEnabled s = false ∧ ¬ stopPassed s := by
        simpa using fails
      simp only [step, consumerStep, fails, Option.some.injEq] at next
      subst next
      exact ⟨rfl, rfl, disabled, scripted.toCome before⟩
    · obtain ⟨rfl, failed, disables⟩ : a = .producer ∧ s.consumer = .failed ∧
          s.ring.writer.disables = true := by
        simpa using fills
      obtain ⟨rest, full⟩ : ∃ rest, s.ring.writer = .disableWriting rest := by
        cases pc : s.ring.writer <;> simp only [pc, WriterPc.disables, reduceCtorEq] at disables
        exact ⟨_, rfl⟩
      -- The reading thread is in the buffer, so in a `Write`.
      have inside : ∃ chunk, s.producer = .writing chunk := by
        by_contra outside
        have idle := (Linked.of_reaches begun run).producer
          fun chunk writing => outside ⟨chunk, writing⟩
        cases full.symm.trans idle
      obtain ⟨chunk, writing⟩ := inside
      have calls : ∃ chunks, s.calls = FileDataTransferTask.callsFor chunks := by
        simpa only [Scripted, writing] using scripted
      simp only [step, producerStep, writing, full, Ring.writerStep, reduceCtorEq, if_false,
        Option.map_some, Option.some.injEq] at next
      subst next
      exact ⟨failed, (Ending.of_reaches started run).failed failed, rfl,
        Or.inr ⟨by simp, calls⟩⟩

end Reached

/-- The file writer fails while the buffer has room. -/
theorem not_held_of_leavesEnabled_small : ∃ s₀ s, startCopy 2 [1] = some s₀ ∧
    Reaches 2 leavesEnabled s₀ s ∧ s.consumer = .failed ∧ s.producer = .finished ∧ ¬ Held s := by
  have started := @startCopy_short 2 [1] (by decide) (by decide)
  have run : Reaches 2 leavesEnabled ((start 2 (FileDataTransferTask.callsFor [[1]])).get rfl) _ :=
    .of_checked_run (.replicate 9 .producer ++ .replicate 13 .consumer ++
      [.consumerThrows, .consumer] ++ .replicate 6 .producer) rfl
  exact ⟨_, _, started.trans rfl, run, rfl, rfl,
    (not_held_of_leavesEnabled (started.trans rfl)).1 _ run⟩

/-- The second byte has found the buffer full, and its `DisableWriting` comes after the writing
    thread has failed over the first. -/
theorem consumer_failure_holds : ¬ ∀ size content s₀ s, 2 ≤ size →
    startCopy size content = some s₀ → Reaches size anyStep s₀ s → ¬ Held s := by
  intro always
  have started := @startCopy_short 2 [1, 2] (by decide) (by decide)
  have run : Reaches 2 anyStep
      ((start 2 (FileDataTransferTask.callsFor [[1, 2]])).get rfl) _ :=
    .of_run (.replicate 10 .producer ++ .replicate 13 .consumer ++
      [.consumerThrows, .consumer] ++ .replicate 5 .producer) rfl fun _ _ _ => trivial
  exact always 2 [1, 2] _ _ (by decide) (started.trans rfl) run
    ⟨Or.inr rfl, rfl, fun exit => Bool.false_ne_true exit⟩

end MultiThread

end FileTransfer.Threads
