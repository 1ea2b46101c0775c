import FileTransfer.Lib.Fairness
import FileTransfer.Threads.ConsumerFailure
import FileTransfer.Threads.Stall
import Mathlib.Data.Prod.Lex

/-!
# A copy that keeps its flags ends

Under a schedule that gives both threads their turn again and again, and as long as no store of a
flag is lost, both threads get to the end of their tasks. The rank is lexicographic: what the reading
thread has left, and below it what the writing thread can still do on its own. A thread that waits
for a flag leaves the rank as it is, and then it is the other thread's turn that counts.
-/

namespace FileTransfer.Threads

namespace Ring

/-- The number of bytes in the buffer. -/
def size (r : Ring) : Nat := r.accepted.length - r.consumed.length

/-- What another read costs, if there is something for it. -/
def againCost (left : Nat) : Nat := if 0 < left then left + 40 else 0

/-- What the reader has to do once it is outside the buffer. -/
def idleCost (r : Ring) : Nat := if r.buffer.state.readingEnabled then r.size + 30 else 0

/-- What the reader has to do from where it is in `BufferReader::Read`, to the point where it waits
    for data. -/
def readCost (r : Ring) : Nat :=
  match r.reader with
  | .idle => 0
  | .sizeHead => r.size + 28
  | .sizeTail _ => r.size + 27
  | .loadHead dataSize => dataSize + 21 + againCost (r.size - dataSize)
  | .copy dataSize _ chunk => dataSize - chunk.length + 20 + againCost (r.size - dataSize)
  | .storeHead chunk _ => 19 + againCost (r.size - chunk.length)
  | .enableWriting _ _ => 18 + againCost r.size
  | .loadTail _ _ => 17 + againCost r.size
  | .disableReading _ => 7
  | .done _ => 5 + r.idleCost

variable {capacity : Nat} {r r' : Ring}

theorem idleCost_le (r : Ring) : r.idleCost ≤ r.size + 30 := by
  unfold idleCost
  split <;> omega

/-- Each access of a read lowers its cost. -/
theorem readCost_lt (two : 2 ≤ capacity) (addressable : capacity ≤ 2 ^ 63) (inv : Inv capacity r)
    (next : r.readerStep capacity = some r') (notDone : ∀ chunk, r.reader ≠ .done chunk) :
    r'.readCost < r.readCost := by
  have fresh := inv.shared.getDataSize two addressable
  have empty := inv.head_eq_tail_iff
  have ordered := inv.shared.ordered
  have reader := inv.reader
  cases readerStep_move next <;> rename_i pc <;>
    simp only [pc, ReaderOk, consumed, ReaderPc.released, List.append_nil] at reader fresh empty ordered
  case sizeHead => simp [readCost, size, consumed, pc, ReaderPc.released]
  case sizeTail head =>
    subst reader
    simp [readCost, size, consumed, pc, ReaderPc.released, fresh, againCost]
  case loadHead => simp [readCost, size, consumed, pc, ReaderPc.released]
  case copy more =>
    simp only [readCost, size, consumed, pc, ReaderPc.released, List.length_append,
      List.length_singleton]
    omega
  case copied dataSize head chunk all =>
    obtain ⟨-, -, below, -⟩ := reader
    have same : chunk.length = dataSize := by omega
    simp [readCost, size, consumed, pc, ReaderPc.released, same]
  case storeHead chunk head => simp [readCost, size, consumed, pc, ReaderPc.released, Nat.sub_sub]
  case enableWriting => simp [readCost, size, consumed, pc, ReaderPc.released]
  case empty => simp only [readCost, pc]; omega
  case filled chunk head filled =>
    rw [reader] at filled
    have some_left : 0 < r.size := by
      have more := mt empty.mpr filled
      simp only [size, consumed, pc, ReaderPc.released]
      omega
    have le := idleCost_le { r with reader := .done chunk }
    have same : Ring.size { r with reader := .done chunk } = r.size := by
      simp [size, consumed, pc, ReaderPc.released]
    simp only [readCost, pc, againCost, if_pos some_left]
    omega
  case disableReading => simp [readCost, idleCost, pc, CircularBuffer.disableReading]
  case leave => exact absurd pc (notDone _)

end Ring

namespace MultiThread

/-- The steps that a call leads to. -/
def callLeft : Call → Nat
  | .write data => 6 * data.length + 7
  | .stop => 3

/-- The steps left of the reading thread, but for those in which it waits. -/
def producerLeft (s : State) : Nat :=
  (s.calls.map callLeft).sum +
    match s.producer with
    | .next => 1
    | .writeSpin chunk => 6 * chunk.length + if s.ring.buffer.state.writingEnabled then 6 else 7
    | .writeSpinRunning chunk => 6 * chunk.length + 7
    | .writeCheck chunk => 6 * chunk.length + 5
    | .writing _ => s.ring.writer.left + 3
    | .written _ => 2
    | .stopSpin => 3
    | .stopStore => 2
    | .finished => 0

/-- What the writing thread has to do to the point where it waits for data, or to its end. -/
def consumerLeft (capacity : Nat) (s : State) : Nat :=
  if s.running then
    match s.consumer with
    | .loop => s.ring.idleCost + 1
    | .readSpin => s.ring.idleCost
    | .readSpinRunning => if s.ring.buffer.state.readingEnabled then s.ring.idleCost + 1 else 0
    | .readCheck => s.ring.size + 29
    | .reading => s.ring.readCost
    | .writing _ => s.ring.idleCost + 3
    | _ => 0
  else leaveLeft capacity s

/-- The writing thread waits for data, or has ended. -/
def Parked (s : State) : Prop :=
  s.consumer = .finished ∨ s.running = true ∧ readingEnabled s = false ∧ s.consumer.waits = true

instance (s : State) : Decidable (Parked s) := inferInstanceAs (Decidable (_ ∨ _ ∧ _ ∧ _))

/-- The thread whose step counts. -/
def helpful (s : State) : Action := if Parked s then .producer else .consumer

def rank (capacity : Nat) (s : State) : Nat ×ₗ Nat :=
  toLex (producerLeft s, consumerLeft capacity s)

variable {capacity : Nat} {s s' : State}

/-- The reading thread has less to do after a step, unless it waits for room. -/
theorem producerStep_left (next : producerStep capacity s = some s') :
    producerLeft s' < producerLeft s ∨
      s.producer.waits = true ∧ writingEnabled s = false ∧
        producerLeft s' = producerLeft s ∧ ∃ pc, s' = { s with producer := pc } := by
  cases producerStep_move next with
  | finish none pc => simp [producerLeft, pc]
  | callWrite call pc =>
    left
    simp only [producerLeft, pc, call, List.map_cons, List.sum_cons, callLeft]
    split <;> omega
  | callStop call pc =>
    left
    simp only [producerLeft, pc, call, List.map_cons, List.sum_cons, callLeft]
    omega
  | writeEnabled set pc =>
    have enabled : s.ring.buffer.state.writingEnabled = true := set
    simp [producerLeft, pc, enabled]
  | writeDisabled pc =>
    by_cases set : s.ring.buffer.state.writingEnabled = true
    · simp only [producerStep, pc, writingEnabled, set, if_true, Option.some.injEq] at next
      cases congrArg State.producer next
    · right
      refine ⟨by simp [pc, ProducerPc.waits], by simpa [writingEnabled] using set, ?_, _, rfl⟩
      simp [producerLeft, pc, set]
  | writeRunning pc =>
    by_cases set : s.ring.buffer.state.writingEnabled = true
    · left
      simp [producerLeft, pc, set]
    · right
      refine ⟨by simp [pc, ProducerPc.waits], by simpa [writingEnabled] using set, ?_, _, rfl⟩
      simp [producerLeft, pc, set]
  | writeStopped stopped pc => simp [producerLeft, pc]
  | enter running filled call pc =>
    obtain ⟨-, rfl⟩ := Ring.callWrite_eq call
    left
    simp only [producerLeft, pc, WriterPc.left]
    omega
  | skip refused pc =>
    left
    simp only [producerLeft, pc]
    omega
  | access access pc =>
    left
    have less := Ring.writerStep_left access
    simp only [producerLeft, pc]
    omega
  | leave outside pc => simp [producerLeft, pc, outside, WriterPc.left]
  | returned pc => simp [producerLeft, pc]
  | stopEnabled set pc => simp [producerLeft, pc]
  | stopDisabled pc =>
    right
    refine ⟨by simp [pc, ProducerPc.waits], ?_, rfl, s.producer, rfl⟩
    by_contra set
    have enabled : writingEnabled s = true := by simpa using set
    simp only [producerStep, pc, enabled, if_true, Option.some.injEq] at next
    have same := congrArg State.producer next
    simp [pc] at same
  | stopStore pc => simp [producerLeft, pc]

/-- A call is taken only between two calls. -/
theorem producerStep_calls (inside : s.producer ≠ .next) (next : producerStep capacity s = some s') :
    s'.calls = s.calls := by
  cases producerStep_move next <;> rename_i pc
  case finish none => exact absurd pc inside
  case callWrite call => exact absurd pc inside
  case callStop call => exact absurd pc inside
  all_goals rfl

/-- The writing thread leaves the reading thread no more to do. -/
theorem consumerStep_producerLeft (next : consumerStep capacity s = some s') :
    producerLeft s' ≤ producerLeft s := by
  obtain ⟨producer, calls, -, writer, -⟩ := consumerStep_frame next
  have kept := consumerStep_writingEnabled next
  unfold writingEnabled at kept
  unfold producerLeft
  rw [producer, calls, writer]
  split
  case h_2 =>
    by_cases set : s.ring.buffer.state.writingEnabled = true
    · rw [if_pos set, if_pos (kept set)]
    · rw [if_neg set]
      split <;> omega
  all_goals exact le_rfl

theorem consumerStep_isSome (linked : Linked s)
    (inside : s.consumer ≠ .finished ∧ s.consumer ≠ .failed) :
    ∃ s', consumerStep capacity s = some s' := by
  unfold consumerStep
  split <;> rename_i pc
  case h_4 =>
    split
    · have outside := linked.consumer (by simp [pc])
      exact ⟨_, by rw [Ring.callRead, outside, Option.map_some]⟩
    · exact ⟨_, rfl⟩
  case h_5 =>
    obtain ⟨ring, access⟩ := @Ring.readerStep_isSome capacity _ (linked.reading pc)
    rw [access]
    split <;> exact ⟨_, rfl⟩
  case h_8 => exact absurd pc inside.1
  case h_9 => exact absurd pc inside.2
  case h_6 => exact ⟨_, rfl⟩
  case h_7 => exact ⟨_, rfl⟩
  all_goals split <;> exact ⟨_, rfl⟩

/-- The writing thread has less to do after a step, unless it waits for data. -/
theorem consumerStep_left (two : 2 ≤ capacity) (addressable : capacity ≤ 2 ^ 63)
    (copying : Copying capacity s) (busy : ¬ Parked s)
    (next : consumerStep capacity s = some s') :
    consumerLeft capacity s' < consumerLeft capacity s := by
  have sameRunning := consumerStep_sameRunning copying.passed.normal.1 next
  have notFinished : s.consumer ≠ .finished := fun finished => busy (.inl finished)
  unfold consumerLeft
  rw [sameRunning]
  by_cases running : s.running = true
  · rw [if_pos running, if_pos running]
    have enabled : s.consumer.waits = true → s.ring.buffer.state.readingEnabled = true := by
      intro waits
      by_contra clear
      exact busy (.inr ⟨running, by simpa [readingEnabled] using clear, waits⟩)
    cases consumerStep_move next with
    | again _ pc => simp [pc]
    | finish stopped pc => simp [running] at stopped
    | readEnabled set pc =>
      have set' : s.ring.buffer.state.readingEnabled = true := set
      simp [pc, Ring.idleCost, set']
    | readDisabled pc =>
      have set := enabled (by simp [pc, ConsumerPc.waits])
      simp only [consumerStep, pc, readingEnabled, set, if_true, Option.some.injEq] at next
      cases congrArg State.consumer next
    | readRunning pc =>
      have set := enabled (by simp [pc, ConsumerPc.waits])
      simp [pc, set]
    | readStopped stopped pc => simp [running] at stopped
    | enter _ call pc =>
      obtain ⟨outside, rfl⟩ := Ring.callRead_eq call
      simp [pc, Ring.readCost, Ring.size, Ring.consumed, outside, ReaderPc.released]
    | skip pc =>
      simp only [consumerStep, pc, running, if_true] at next
      obtain ⟨ring, -, same⟩ := Option.map_eq_some_iff.mp next
      cases congrArg State.consumer same
    | access notDone access pc =>
      simp only [pc]
      exact Ring.readCost_lt two addressable copying.ring access notDone
    | @leave chunk ring done access pc =>
      simp only [Ring.readerStep, done, Option.some.injEq] at access
      subst access
      have same : Ring.idleCost
          { s.ring with reader := .idle, returned := s.ring.returned ++ [chunk] } =
            s.ring.idleCost := by
        simp [Ring.idleCost, Ring.size, Ring.consumed, done, ReaderPc.released]
      by_cases empty : chunk = []
      · simp [pc, Ring.readCost, done, afterRead, empty] at same ⊢
        omega
      · simp only [pc, Ring.readCost, done, afterRead, if_neg empty, same]
        omega
    | write pc => simp [pc]
    | fail pc => exact absurd pc copying.passed.normal.1
  · rw [if_neg running, if_neg running]
    obtain ⟨t, next', less⟩ := @leaveLeft_lt capacity s copying.linked (by simpa using running)
      ⟨notFinished, copying.passed.normal.2⟩
    rw [next] at next'
    cases next'
    exact less

/-- While the writing thread waits for data its steps change nothing else. -/
theorem Parked.consumerStep (parked : Parked s) (next : consumerStep capacity s = some s') :
    rank capacity s' = rank capacity s ∧ Parked s' := by
  rcases parked with finished | ⟨running, clear, waits⟩
  · simp [MultiThread.consumerStep, finished] at next
  · have clear' : s.ring.buffer.state.readingEnabled = false := clear
    unfold ConsumerPc.waits at waits
    split at waits <;> rename_i pc
    · simp only [MultiThread.consumerStep, pc, clear, Bool.false_eq_true, if_false,
        Option.some.injEq] at next
      subst next
      refine ⟨?_, .inr ⟨running, clear, rfl⟩⟩
      simp [rank, producerLeft, consumerLeft, running, pc, Ring.idleCost, clear']
    · simp only [MultiThread.consumerStep, pc, running, if_true, Option.some.injEq] at next
      subst next
      refine ⟨?_, .inr ⟨rfl, clear, rfl⟩⟩
      simp [rank, producerLeft, consumerLeft, running, pc, Ring.idleCost, clear']
    · cases waits

/-- What holds along an execution that keeps its flags. -/
structure Keeping (capacity : Nat) (s : State) : Prop where
  copying : Copying capacity s
  awake : Awake s

theorem Keeping.start {size : Nat} {content : List UInt8} (two : 2 ≤ size)
    (started : startCopy size content = some s) : Keeping size s := by
  obtain ⟨chunks, begun, -⟩ := startCopy_eq started
  obtain ⟨buffer, created, rfl⟩ := start_eq begun
  obtain ⟨-, -, -, fresh⟩ := CircularBuffer.create_spec created
  refine ⟨.start two begun, ?_⟩
  intro _ clear
  simp [writingEnabled, Ring.start, fresh] at clear

theorem Keeping.step (two : 2 ≤ capacity) (addressable : capacity ≤ 2 ^ 63)
    (h : Keeping capacity s) {a : Action} (guard : flagKept s a)
    (next : MultiThread.step capacity s a = some s') : Keeping capacity s' :=
  ⟨h.copying.step two addressable guard.1 next, h.awake.step guard next⟩

/-- Both threads have returned from their tasks. -/
def Finished (s : State) : Prop := s.producer = .finished ∧ s.consumer = .finished

/-- When the writing thread waits, the reading thread does not. -/
theorem Keeping.producer_advances (h : Keeping capacity s) (parked : Parked s)
    (short : ¬ Finished s) :
    ∃ s', producerStep capacity s = some s' ∧ producerLeft s' < producerLeft s := by
  have script := h.copying.script
  have notFinished : s.producer ≠ .finished := by
    intro finished
    rcases parked with left | ⟨running, -⟩
    · exact short ⟨finished, left⟩
    · simp [Script, running, finished] at script
  obtain ⟨s', next⟩ : ∃ s', producerStep capacity s = some s' := by
    have linked := h.copying.linked.producer
    unfold producerStep
    split <;> rename_i pc
    case h_1 => split <;> exact ⟨_, rfl⟩
    case h_4 =>
      split
      · have outside := linked (by simp [pc])
        exact ⟨_, by rw [Ring.callWrite, outside, Option.map_some]⟩
      · exact ⟨_, rfl⟩
    case h_5 =>
      split
      · exact ⟨_, rfl⟩
      · rename_i inside
        obtain ⟨ring, access⟩ := @Ring.writerStep_isSome capacity s.ring inside
        exact ⟨_, by rw [access, Option.map_some]⟩
    case h_6 => exact ⟨_, rfl⟩
    case h_8 => exact ⟨_, rfl⟩
    case h_9 => exact absurd pc notFinished
    all_goals split <;> exact ⟨_, rfl⟩
  refine ⟨s', next, ?_⟩
  rcases producerStep_left next with less | ⟨waits, clear, -⟩
  · exact less
  · -- Otherwise both threads would wait for each other.
    rcases parked with left | ⟨running, noData, waits'⟩
    · have stopped := h.copying.passed.finished left
      rw [Script, if_neg (by simp [stopped])] at script
      rcases script with ⟨-, pc | pc⟩ <;> simp [pc, ProducerPc.waits] at waits
    · exact absurd ⟨clear, noData, running, waits, waits'⟩ (h.awake.not_stalled h.copying.linked)

theorem Keeping.advance (two : 2 ≤ capacity) (addressable : capacity ≤ 2 ^ 63)
    (h : Keeping capacity s) (short : ¬ Finished s) :
    ∃ t, MultiThread.step capacity s (helpful s) = some t ∧ rank capacity t < rank capacity s := by
  unfold helpful
  by_cases parked : Parked s
  · rw [if_pos parked]
    obtain ⟨t, next, less⟩ := h.producer_advances parked short
    exact ⟨t, next, Prod.Lex.toLex_lt_toLex.mpr (.inl less)⟩
  · rw [if_neg parked]
    obtain ⟨t, next⟩ := @consumerStep_isSome capacity s h.copying.linked
      ⟨fun finished => parked (.inl finished), h.copying.passed.normal.2⟩
    refine ⟨t, next, Prod.Lex.toLex_lt_toLex.mpr ?_⟩
    have less := consumerStep_left two addressable h.copying parked next
    exact (consumerStep_producerLeft next).lt_or_eq.imp_right fun same => ⟨same, less⟩

theorem Keeping.other (two : 2 ≤ capacity) (addressable : capacity ≤ 2 ^ 63)
    (h : Keeping capacity s) {a : Action} (guard : flagKept s a)
    (next : MultiThread.step capacity s a = some s') :
    rank capacity s' < rank capacity s ∨
      rank capacity s' = rank capacity s ∧ helpful s' = helpful s := by
  cases a with
  | producer =>
    rcases producerStep_left next with less | ⟨-, -, same, pc, rfl⟩
    · exact .inl (Prod.Lex.toLex_lt_toLex.mpr (.inl less))
    · refine .inr ⟨?_, rfl⟩
      rw [rank, same]
      rfl
  | consumer =>
    by_cases parked : Parked s
    · obtain ⟨same, parked'⟩ := parked.consumerStep next
      exact .inr ⟨same, by rw [helpful, helpful, if_pos parked, if_pos parked']⟩
    · have less := consumerStep_left two addressable h.copying parked next
      exact .inl (Prod.Lex.toLex_lt_toLex.mpr
        ((consumerStep_producerLeft next).lt_or_eq.imp_right fun same => ⟨same, less⟩))
  | consumerThrows => exact absurd rfl guard.1

/-- A mutual stall is for good. -/
theorem MutualStall.step {a : Action} (h : MutualStall s) (normal : noThrow s a)
    (next : step capacity s a = some s') : MutualStall s' := by
  obtain ⟨writing, reading, running, producer, consumer⟩ := h
  cases a with
  | producer =>
    have next : producerStep capacity s = some s' := next
    cases pc : s.producer <;> simp only [pc, ProducerPc.waits, Bool.false_eq_true] at producer
    case writeSpin =>
      simp only [producerStep, pc, writing, Bool.false_eq_true, if_false, Option.some.injEq] at next
      subst next
      exact ⟨writing, reading, running, rfl, consumer⟩
    case writeSpinRunning =>
      simp only [producerStep, pc, running, if_true, Option.some.injEq] at next
      subst next
      exact ⟨writing, reading, rfl, rfl, consumer⟩
    case stopSpin =>
      simp only [producerStep, pc, writing, Bool.false_eq_true, if_false, Option.some.injEq] at next
      subst next
      exact ⟨writing, reading, running, by simp [pc, ProducerPc.waits], consumer⟩
  | consumer =>
    have next : consumerStep capacity s = some s' := next
    cases pc : s.consumer <;> simp only [pc, ConsumerPc.waits, Bool.false_eq_true] at consumer
    case readSpin =>
      simp only [consumerStep, pc, reading, Bool.false_eq_true, if_false, Option.some.injEq] at next
      subst next
      exact ⟨writing, reading, running, producer, rfl⟩
    case readSpinRunning =>
      simp only [consumerStep, pc, running, if_true, Option.some.injEq] at next
      subst next
      exact ⟨writing, reading, rfl, producer, rfl⟩
  | consumerThrows => exact absurd rfl normal

section Executed

open Fairness

variable {size : Nat} {content : List UInt8} {state : Nat → State} {schedule : Nat → Action}

/-- For every capacity and every source: in an execution in which both threads get their turn again
    and again, the file writer does not throw and no store of a flag is lost, both threads return
    from their tasks. From a mutual stall, on the other hand, no schedule leads them there. -/
theorem fair_copy_finishes (two : 2 ≤ size) (started : startCopy size content = some (state 0))
    (execution : Execution (step size) flagKept state schedule)
    (reading : Fair schedule .producer) (writing : Fair schedule .consumer) :
    (∃ n, Finished (state n)) ∧
      ∀ s t, MutualStall s → Reaches size noThrow s t → MutualStall t ∧ ¬ Finished t := by
  obtain ⟨chunks, begun, -⟩ := startCopy_eq started
  obtain ⟨buffer, created, -⟩ := start_eq begun
  have addressable := (CircularBuffer.create_spec created).1
  have fair : ∀ s, Keeping size s → ¬ Finished s → Fair schedule (helpful s) := by
    intro s _ _
    unfold helpful
    split
    · exact reading
    · exact writing
  constructor
  · obtain ⟨n, -, finished⟩ := execution.eventually (rank size) helpful
      (fun s a t h _ guard next => .inr (h.step two addressable guard next)) fair
      (fun s h short => h.advance two addressable short)
      (fun s a t h _ guard next => h.other two addressable guard next) 0 (.start two started)
    exact ⟨n, finished⟩
  · intro s t stall run
    have stalled : MutualStall t := run.invariant stall fun _ _ _ stall guard next =>
      stall.step guard next
    refine ⟨stalled, ?_⟩
    intro finished
    have waits := stalled.producer
    simp [finished.1, ProducerPc.waits] at waits

end Executed

/-- The two threads take turns. -/
def alternate (n : Nat) : Action := if n % 2 = 0 then .producer else .consumer

theorem alternate_fair : Fairness.Fair alternate .producer ∧ Fairness.Fair alternate .consumer := by
  constructor
  · intro n
    exact ⟨2 * n, by omega, if_pos (by omega)⟩
  · intro n
    exact ⟨2 * n + 1, by omega, if_neg (by omega)⟩

/-- A one-byte file at capacity two, with the threads taking turns. -/
theorem fair_copy_finishes_small : ∃ s₀, startCopy 2 [1] = some s₀ ∧
    ∃ n, Finished (Fairness.follow (step 2) alternate s₀ n) := by
  let s₀ := (start 2 (FileDataTransferTask.callsFor [[1]])).get rfl
  have started : startCopy 2 [1] = some s₀ :=
    (@startCopy_short 2 [1] (by decide) (by decide)).trans rfl
  have early : ∀ n < 60, flagKept (Fairness.follow (step 2) alternate s₀ n) (alternate n) := by
    decide +kernel
  have final : ∀ a, step 2 (Fairness.follow (step 2) alternate s₀ 60) a = none := by
    intro a
    apply Option.isNone_iff_eq_none.mp
    cases a <;> decide +kernel
  have execution : Fairness.Execution (step 2) flagKept
      (Fairness.follow (step 2) alternate s₀) alternate := by
    apply Fairness.execution_follow
    intro n t next
    rcases Nat.lt_or_ge n 60 with soon | late
    · exact early n soon
    · rw [Fairness.follow_of_final final n late, final] at next
      cases next
  exact ⟨s₀, started, (fair_copy_finishes (by decide) started execution alternate_fair.1
    alternate_fair.2).1⟩

end MultiThread

end FileTransfer.Threads
