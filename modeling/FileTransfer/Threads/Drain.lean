import FileTransfer.Threads.BackPressure

/-!
# Leaving with bytes in the buffer

`Stop` clears `running_`, and the writing thread leaves its loop at the next test of it, so
what it has not taken out of the buffer by then stays there. Everything is delivered exactly
when, at the moment `running_` is cleared, all bytes in the buffer belong to a read already
in progress.
-/

namespace FileTransfer.Threads

open CircularBuffer Cyclic

/-- Every byte in the buffer is in the window of the read in progress; outside the copying
    part of a read, the buffer is empty. -/
def Ring.Covered (capacity : Nat) (r : Ring) : Prop :=
  match r.reader with
  | .sizeHead => True
  | .sizeTail _ => True
  | .loadHead dataSize => dataSize = getDataSize capacity r.buffer.head r.buffer.tail
  | .copy dataSize _ _ => dataSize = getDataSize capacity r.buffer.head r.buffer.tail
  | .storeHead chunk _ => chunk.length = getDataSize capacity r.buffer.head r.buffer.tail
  | _ => r.buffer.head = r.buffer.tail

instance (capacity : Nat) : (r : Ring) → Decidable (r.Covered capacity)
  | ⟨_, _, .idle, _, _⟩ => inferInstanceAs (Decidable (_ = _))
  | ⟨_, _, .sizeHead, _, _⟩ => inferInstanceAs (Decidable True)
  | ⟨_, _, .sizeTail _, _, _⟩ => inferInstanceAs (Decidable True)
  | ⟨_, _, .loadHead _, _, _⟩ => inferInstanceAs (Decidable (_ = _))
  | ⟨_, _, .copy _ _ _, _, _⟩ => inferInstanceAs (Decidable (_ = _))
  | ⟨_, _, .storeHead _ _, _, _⟩ => inferInstanceAs (Decidable (_ = _))
  | ⟨_, _, .enableWriting _ _, _, _⟩ => inferInstanceAs (Decidable (_ = _))
  | ⟨_, _, .loadTail _ _, _, _⟩ => inferInstanceAs (Decidable (_ = _))
  | ⟨_, _, .disableReading _, _, _⟩ => inferInstanceAs (Decidable (_ = _))
  | ⟨_, _, .done _, _, _⟩ => inferInstanceAs (Decidable (_ = _))

/-- The steps left to the end of a read. -/
def Ring.readLeft (capacity : Nat) (r : Ring) : Nat :=
  match r.reader with
  | .idle => 0
  | .done _ => 0
  | .disableReading _ => 1
  | .loadTail _ _ => 2
  | .enableWriting _ _ => 3
  | .storeHead _ _ => 4
  | .copy dataSize _ chunk => 5 + (dataSize - chunk.length)
  | .loadHead dataSize => 6 + dataSize
  | .sizeTail head => 7 + getDataSize capacity head r.buffer.tail
  | .sizeHead => 8 + getDataSize capacity r.buffer.head r.buffer.tail

variable {capacity : Nat}

namespace Ring

variable {r r' : Ring}

/-- The two indices agree exactly when nothing is in the buffer. -/
theorem Inv.head_eq_tail_iff (h : Inv capacity r) :
    r.buffer.head = r.buffer.tail ↔ r.accepted.length = r.consumed.length := by
  obtain ⟨shared, -, -⟩ := h
  have ordered := shared.ordered
  have within := shared.within
  rw [shared.head, shared.tail]
  constructor
  · intro same
    by_contra differ
    exact mod_ne_mod (by omega) within same
  · intro same
    rw [same]

/-- A read neither adds to what it covers nor loses any of it. -/
theorem Covered.readerStep_iff (two : 2 ≤ capacity) (addressable : capacity ≤ 2 ^ 63)
    (h : Inv capacity r) (next : r.readerStep capacity = some r') :
    r'.Covered capacity ↔ r.Covered capacity := by
  have h' := h.readerStep two addressable next
  have size := h.shared.getDataSize two addressable
  have atEnd := h.head_eq_tail_iff
  have atEnd' := h'.head_eq_tail_iff
  have ordered' := h'.shared.ordered
  obtain ⟨-, -, reader⟩ := h
  cases readerStep_move next <;> rename_i pc <;> simp only [pc, ReaderOk] at reader
  case sizeTail => simp [Covered, pc, reader]
  case copied dataSize head chunk done =>
    obtain ⟨-, -, below, -⟩ := reader
    have all : chunk.length = dataSize := by omega
    simp [Covered, pc, all]
  case storeHead =>
    simp only [consumed, ReaderPc.released, List.length_append] at atEnd' ordered'
    simp only [consumed, pc, ReaderPc.released, List.append_nil] at size
    simp only [Covered, pc, size]
    rw [atEnd']
    omega
  all_goals simp [Covered, pc, enableWriting, disableReading]

/-- Each access of a read brings it nearer to its end. -/
theorem readLeft_lt (next : r.readerStep capacity = some r')
    (notDone : ∀ chunk, r.reader ≠ .done chunk) :
    r'.readLeft capacity < r.readLeft capacity := by
  cases readerStep_move next <;> rename_i pc
  case copy =>
    simp only [readLeft, pc, List.length_append, List.length_singleton]
    omega
  case copied =>
    simp only [readLeft, pc]
    omega
  case leave => exact absurd pc (notDone _)
  all_goals simp [readLeft, pc]

/-- Inside a read the next access is always possible. -/
theorem readerStep_isSome (inside : r.reader ≠ .idle) : ∃ r', r.readerStep capacity = some r' := by
  unfold Ring.readerStep
  split
  case h_1 pc => exact absurd pc inside
  case h_5 => split <;> exact ⟨_, rfl⟩
  case h_8 => split <;> exact ⟨_, rfl⟩
  all_goals exact ⟨_, rfl⟩

end Ring

namespace MultiThread

variable {s s' : State}

/-- When the writing thread has left its loop, every accepted byte has been passed to the
    file writer. -/
def Delivered (s : State) : Prop :=
  s.consumer = .finished → s.written.flatten = s.ring.accepted

/-- The file writer does not throw, and the store of `Stop` into `running_` finds all bytes
    in the buffer covered by a read in progress. -/
def drainedAtStop (capacity : Nat) (s : State) (a : Action) : Prop :=
  a ≠ .consumerThrows ∧
    (a = .producer → s.producer = .stopStore → s.ring.Covered capacity)

instance (capacity : Nat) (s : State) (a : Action) : Decidable (drainedAtStop capacity s a) :=
  inferInstanceAs (Decidable (_ ∧ _))

/-- The calls of the reading thread are those of a copy, and without an exception only its
    `Stop`, the last of them, clears `running_`. -/
def Script (s : State) : Prop :=
  if s.running then
    match s.producer with
    | .stopSpin => s.calls = []
    | .stopStore => s.calls = []
    | .finished => False
    | _ => ∃ chunks, s.calls = FileDataTransferTask.callsFor chunks
  else s.calls = [] ∧ (s.producer = .next ∨ s.producer = .finished)

/-- The chunk returned by the last read and not yet passed on. -/
def pending (s : State) : List UInt8 :=
  match s.consumer with
  | .writing chunk => chunk
  | _ => []

/-- The writing thread has passed on what its reads have returned, and has not left its loop
    while `running_` was set. -/
structure Passed (s : State) : Prop where
  whole : s.written.flatten ++ pending s = s.ring.returned.flatten
  finished : s.consumer = .finished → s.running = false
  normal : s.consumer ≠ .stopping ∧ s.consumer ≠ .failed

theorem Script.producerStep (h : Script s) (next : producerStep capacity s = some s') :
    Script s' := by
  unfold Script at h
  split at h
  · rename_i running
    cases producerStep_move next <;> rename_i pc <;> simp only [pc] at h
    case finish none =>
      obtain ⟨chunks, script⟩ := h
      exact absurd (script.symm.trans none) FileDataTransferTask.callsFor_ne_nil
    case callWrite call =>
      obtain ⟨chunks, script⟩ := h
      cases chunks with
      | nil => cases call.symm.trans script
      | cons chunk chunks =>
        cases call.symm.trans script
        simp only [Script, running, if_true]
        exact ⟨chunks, rfl⟩
    case callStop call =>
      obtain ⟨chunks, script⟩ := h
      cases chunks with
      | nil => cases call.symm.trans script; simp [Script, running]
      | cons chunk chunks => cases call.symm.trans script
    all_goals simpa [Script, pc, running] using h
  · rename_i stopped
    rcases h with ⟨noCalls, pc | pc⟩
    · simp only [MultiThread.producerStep, pc, noCalls, Option.some.injEq] at next
      subst next
      simp [Script, stopped]
    · simp [MultiThread.producerStep, pc] at next

/-- Without an exception the writing thread does not touch `running_`. -/
theorem consumerStep_sameRunning (normal : s.consumer ≠ .stopping)
    (next : consumerStep capacity s = some s') : s'.running = s.running := by
  cases consumerStep_move next with
  | fail pc => exact absurd pc normal
  | _ => rfl

theorem Script.consumerStep (h : Script s) (normal : s.consumer ≠ .stopping)
    (next : consumerStep capacity s = some s') : Script s' := by
  obtain ⟨producer, calls, -⟩ := consumerStep_frame next
  unfold Script at h ⊢
  rwa [consumerStep_sameRunning normal next, producer, calls]

theorem Passed.producerStep (h : Passed s) (next : producerStep capacity s = some s') :
    Passed s' := by
  obtain ⟨consumer, written, -, returned, -⟩ := producerStep_frame next
  refine ⟨?_, ?_, by rw [consumer]; exact h.normal⟩
  · unfold pending
    rw [consumer, written, returned]
    exact h.whole
  · intro left
    have stopped := h.finished (consumer ▸ left)
    rcases producerStep_running next with same | ⟨-, rfl⟩
    · rw [same, stopped]
    · rfl

theorem Passed.consumerStep (h : Passed s)
    (next : consumerStep capacity s = some s') : Passed s' := by
  obtain ⟨whole, finished, normal⟩ := h
  unfold pending at whole
  cases consumerStep_move next <;> rename_i pc <;> simp only [pc] at whole normal
  case finish stopped => exact ⟨by simpa [pending] using whole, fun _ => stopped, by simp⟩
  case enter call =>
    obtain ⟨-, rfl⟩ := Ring.callRead_eq call
    exact ⟨by simpa [pending] using whole, by simp, by simp⟩
  case access notDone access =>
    have returned := (Ring.readerStep_ne_idle access notDone).2
    exact ⟨by simpa [pending, pc, returned] using whole, by simp [pc], by simp [pc]⟩
  case leave chunk ring done access =>
    simp only [Ring.readerStep, done, Option.some.injEq] at access
    subst access
    unfold afterRead
    refine ⟨?_, ?_, ?_⟩
    · split
      · rename_i empty; simpa [pending, empty] using whole
      · simpa [pending] using whole
    · split <;> simp
    · split <;> simp
  case fail => exact absurd rfl normal.1
  all_goals exact ⟨by simpa [pending] using whole, by simp, by simp⟩

/-- A step of the writing thread after `running_` has been cleared does not start a read, so
    it neither adds to nor takes from what is covered. -/
theorem Covered.consumerStep_iff (two : 2 ≤ capacity) (addressable : capacity ≤ 2 ^ 63)
    (inv : s.ring.Inv capacity) (stopped : s.running = false)
    (next : consumerStep capacity s = some s') :
    s'.ring.Covered capacity ↔ s.ring.Covered capacity := by
  cases consumerStep_move next with
  | enter running => cases stopped.symm.trans running
  | access _ access => exact Ring.Covered.readerStep_iff two addressable inv access
  | leave _ access => exact Ring.Covered.readerStep_iff two addressable inv access
  | _ => exact Iff.rfl

/-- Everything that holds in the runs of a copy without an exception. -/
structure Copying (capacity : Nat) (s : State) : Prop where
  linked : Linked s
  ring : s.ring.Inv capacity
  script : Script s
  passed : Passed s

theorem Copying.step (two : 2 ≤ capacity) (addressable : capacity ≤ 2 ^ 63) {a : Action}
    (h : Copying capacity s) (normal : a ≠ .consumerThrows)
    (next : MultiThread.step capacity s a = some s') : Copying capacity s' := by
  refine ⟨h.linked.step next, h.ring.of_reaches two addressable (step_ring next), ?_, ?_⟩
  · cases a with
    | producer => exact h.script.producerStep next
    | consumer => exact h.script.consumerStep h.passed.normal.1 next
    | consumerThrows => exact absurd rfl normal
  · cases a with
    | producer => exact h.passed.producerStep next
    | consumer => exact h.passed.consumerStep next
    | consumerThrows => exact absurd rfl normal

theorem Copying.start (two : 2 ≤ capacity) {chunks : List (List UInt8)} {s₀ : State}
    (started : MultiThread.start capacity (FileDataTransferTask.callsFor chunks) = some s₀) :
    Copying capacity s₀ := by
  have linked := Linked.start started
  have ring : s₀.ring.Inv capacity := @ring_inv _ _ _ anyStep _ two started .refl
  obtain ⟨buffer, -, rfl⟩ := start_eq started
  refine ⟨linked, ring, ⟨chunks, rfl⟩, rfl, ?_, ?_⟩
  · intro finished; cases finished
  · simp

/-- Once a copy has stopped, the ring only changes by what is left of a read. -/
theorem Copying.producerStep_stopped (h : Copying capacity s) (stopped : s.running = false)
    (next : producerStep capacity s = some s') : s'.ring = s.ring := by
  have script := h.script
  rw [Script, if_neg (by simp [stopped])] at script
  rcases script with ⟨noCalls, pc | pc⟩
  · simp only [MultiThread.producerStep, pc, noCalls, Option.some.injEq] at next
    rw [← next]
  · simp [MultiThread.producerStep, pc] at next

theorem Copying.covered_step (two : 2 ≤ capacity) (addressable : capacity ≤ 2 ^ 63) {a : Action}
    (h : Copying capacity s) (guard : drainedAtStop capacity s a)
    (covered : s.running = false → s.ring.Covered capacity)
    (next : MultiThread.step capacity s a = some s') (stopped' : s'.running = false) :
    s'.ring.Covered capacity := by
  cases a with
  | producer =>
    rcases producerStep_running next with same | ⟨store, rfl⟩
    · have stopped : s.running = false := same ▸ stopped'
      rw [h.producerStep_stopped stopped next]
      exact covered stopped
    · exact guard.2 rfl store
  | consumer =>
    have stopped := consumerStep_sameRunning h.passed.normal.1 next ▸ stopped'
    exact (Covered.consumerStep_iff two addressable h.ring stopped next).mpr (covered stopped)
  | consumerThrows => exact absurd rfl guard.1

/-- At the end of a copy what is left in the buffer is what was not covered. -/
theorem Copying.delivered_iff (h : Copying capacity s) (finished : s.consumer = .finished) :
    s.written.flatten = s.ring.accepted ↔ s.ring.Covered capacity := by
  have outside := h.linked.consumer (by simp [finished])
  have whole := h.passed.whole
  simp only [pending, finished, List.append_nil] at whole
  have consumed : s.ring.consumed = s.written.flatten := by
    rw [Ring.consumed, outside, whole]; simp [ReaderPc.released]
  have kept := h.ring.shared.content
  simp only [Ring.Covered, outside]
  rw [h.ring.head_eq_tail_iff, ← consumed]
  constructor
  · intro same
    rw [same]
  · intro same
    rw [same, Nat.sub_self, window_zero, List.append_nil] at kept
    exact kept.symm

/-- The steps the writing thread has left to the end of its loop once `running_` is cleared. -/
def leaveLeft (capacity : Nat) (s : State) : Nat :=
  match s.consumer with
  | .finished => 0
  | .failed => 0
  | .loop => 1
  | .stopping => 1
  | .writing _ => 2
  | .readCheck => 2
  | .readSpinRunning => 3
  | .readSpin => 4
  | .reading => 3 + s.ring.readLeft capacity

/-- Once `running_` is cleared, each step of the writing thread brings it nearer to the end. -/
theorem leaveLeft_lt (linked : Linked s) (stopped : s.running = false)
    (running : s.consumer ≠ .finished ∧ s.consumer ≠ .failed) :
    ∃ s', consumerStep capacity s = some s' ∧ leaveLeft capacity s' < leaveLeft capacity s := by
  unfold consumerStep leaveLeft
  split <;> rename_i pc <;> simp only [pc]
  case h_1 => exact ⟨_, if_neg (by simp [stopped]), by simp⟩
  case h_2 => split <;> exact ⟨_, rfl, by simp⟩
  case h_3 => exact ⟨_, if_neg (by simp [stopped]), by simp⟩
  case h_4 => exact ⟨_, if_neg (by simp [stopped]), by simp⟩
  case h_5 =>
    obtain ⟨ring, access⟩ := @Ring.readerStep_isSome capacity _ (linked.reading pc)
    rw [access]
    split
    · rename_i chunk done
      refine ⟨_, rfl, ?_⟩
      by_cases empty : chunk = [] <;> simp [afterRead, empty, Ring.readLeft, done]
    · rename_i notDone
      refine ⟨_, rfl, ?_⟩
      have less := Ring.readLeft_lt access notDone
      simp only
      omega
  case h_6 => exact ⟨_, rfl, by simp⟩
  case h_7 => exact ⟨_, rfl, by simp⟩
  case h_8 => exact absurd pc running.1
  case h_9 => exact absurd pc running.2

/-- Once `running_` is cleared, the writing thread alone gets to the end of its loop, and
    passes on exactly what was covered. -/
theorem Copying.leaves (two : 2 ≤ capacity) (addressable : capacity ≤ 2 ^ 63) :
    ∀ (n : Nat) (s : State), leaveLeft capacity s = n → Copying capacity s →
      s.running = false → ∃ s', Reaches capacity noThrow s s' ∧ s'.consumer = .finished ∧
        Copying capacity s' ∧ (s'.ring.Covered capacity ↔ s.ring.Covered capacity) := by
  intro n
  induction n using Nat.strong_induction_on with
  | _ n ih =>
    intro s left copying stopped
    by_cases finished : s.consumer = .finished
    · exact ⟨s, .refl, finished, copying, Iff.rfl⟩
    · obtain ⟨m, next, less⟩ := @leaveLeft_lt capacity _ copying.linked stopped
        ⟨finished, copying.passed.normal.2⟩
      have consumerNext : MultiThread.step capacity s .consumer = some m := next
      have stopped' : m.running = false :=
        (consumerStep_sameRunning copying.passed.normal.1 next).trans stopped
      obtain ⟨s', run, done, copying', covered⟩ := ih _ (left ▸ less) m rfl
        (copying.step two addressable (by simp) consumerNext) stopped'
      exact ⟨s', .head (by simp [noThrow]) consumerNext run, done, copying', covered.trans
        (Covered.consumerStep_iff two addressable copying.ring stopped next)⟩

section Reached

variable {size : Nat} {content : List UInt8} {ok : State → Action → Prop} {s₀ : State}

theorem Copying.of_reaches (two : 2 ≤ size) (addressable : size ≤ 2 ^ 63)
    (copying : Copying size s₀) (normal : ∀ s a, ok s a → a ≠ .consumerThrows)
    (run : Reaches size ok s₀ s) : Copying size s :=
  run.invariant copying fun _ _ _ inv guard next =>
    inv.step two addressable (normal _ _ guard) next

/-- When `Stop` clears `running_` with all bytes of the buffer covered, the writing thread
    leaves with nothing undelivered; and when it clears it otherwise, there is always a run in
    which the writing thread leaves bytes behind. -/
theorem delivered_of_drainedAtStop (two : 2 ≤ size) (started : startCopy size content = some s₀) :
    (∀ s, Reaches size (drainedAtStop size) s₀ s → Delivered s) ∧
      ∀ s a s', Reaches size noThrow s₀ s → noThrow s a → ¬ drainedAtStop size s a →
        step size s a = some s' → ∃ t, Reaches size noThrow s' t ∧ ¬ Delivered t := by
  obtain ⟨chunks, begun, -⟩ := startCopy_eq started
  obtain ⟨buffer, created, -⟩ := start_eq begun
  have addressable := (CircularBuffer.create_spec created).1
  have copying := Copying.start two begun
  constructor
  · intro s run finished
    have copied : Copying size s :=
      copying.of_reaches two addressable (fun _ _ guard => guard.1) run
    have covered : s.running = false → s.ring.Covered size := by
      refine @Transition.Reaches.invariant_of _ _ _ _ _ _
        (fun s => s.running = false → s.ring.Covered size) (Copying size) run
        (fun t reached => copying.of_reaches two addressable (fun _ _ guard => guard.1) reached)
        ?_ ?_
      · obtain ⟨buffer, -, rfl⟩ := start_eq begun
        intro stopped
        cases stopped
      · intro t a u inv known guard next stopped
        exact inv.covered_step two addressable guard known next stopped
    exact (copied.delivered_iff finished).mpr (covered (copied.passed.finished finished))
  · intro s a s' run normal uncovered next
    obtain ⟨rfl, store, left⟩ : a = .producer ∧ s.producer = .stopStore ∧
        ¬ s.ring.Covered size := by
      simpa [drainedAtStop, show a ≠ .consumerThrows from normal] using uncovered
    have copied : Copying size s := copying.of_reaches two addressable (fun _ _ guard => guard) run
    have copied' := copied.step two addressable normal next
    simp only [step, producerStep, store, Option.some.injEq] at next
    subst next
    obtain ⟨t, rest, finished, copiedEnd, covered⟩ :=
      Copying.leaves two addressable _ _ rfl copied' rfl
    refine ⟨t, rest, fun delivered => left ?_⟩
    exact covered.mp ((copiedEnd.delivered_iff finished).mp (delivered finished))

end Reached

/-- A one-byte file is delivered when the writing thread has read it before `Stop`. -/
theorem delivered_of_drainedAtStop_small : ∃ s₀ s, startCopy 2 [1] = some s₀ ∧
    Reaches 2 (drainedAtStop 2) s₀ s ∧ s.consumer = .finished ∧ s.ring.accepted = [1] ∧
    Delivered s := by
  have started := @startCopy_short 2 [1] (by decide) (by decide)
  have run : Reaches 2 (drainedAtStop 2)
      ((start 2 (FileDataTransferTask.callsFor [[1]])).get rfl) _ :=
    .of_checked_run (.replicate 13 .producer ++ .replicate 8 .consumer ++
      .replicate 1 .producer ++ .replicate 7 .consumer) rfl
  exact ⟨_, _, started.trans rfl, run, rfl, rfl,
    (delivered_of_drainedAtStop (by decide) (started.trans rfl)).1 _ run⟩

/-- The reading thread has written a one-byte file and stopped before the writing thread's
    first test of `running_`. -/
theorem stop_leaves_byte : ¬ ∀ size content s₀ s, 2 ≤ size → startCopy size content = some s₀ →
    Reaches size noThrow s₀ s → Delivered s := by
  intro always
  have started := @startCopy_short 2 [1] (by decide) (by decide)
  have run : Reaches 2 noThrow ((start 2 (FileDataTransferTask.callsFor [[1]])).get rfl) _ :=
    .of_run (.replicate 14 .producer ++ [.consumer]) rfl (by simp [noThrow])
  have whole := always 2 [1] _ _ (by decide) (started.trans rfl) run rfl
  exact absurd whole (by decide)

end MultiThread

end FileTransfer.Threads
