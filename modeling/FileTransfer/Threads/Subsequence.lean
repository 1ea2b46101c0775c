import FileTransfer.Threads.Drain

/-!
# What comes out of the two threads

Whatever the schedule is and wherever the file writer throws, what has been passed to it is a part of
the source in the order of the source: bytes may be missing, none is changed, moved or repeated.
Nothing is missing when no byte meets a full buffer and `Stop` finds the buffer covered.
-/

namespace FileTransfer.Threads

/-- The bytes a call hands over. -/
def bytesOf : Call → List UInt8
  | .write data => data
  | .stop => []

namespace MultiThread

/-- The bytes of the chunk in hand that the buffer has not been asked to take. -/
def inHand (s : State) : List UInt8 :=
  match s.producer with
  | .writeSpin chunk => chunk
  | .writeSpinRunning chunk => chunk
  | .writeCheck chunk => chunk
  | .writing _ => s.ring.writer.pending
  | _ => []

/-- The bytes of the source that the buffer has not been asked to take. -/
def toCome (s : State) : List UInt8 := inHand s ++ s.calls.flatMap bytesOf

variable {capacity : Nat} {s s' : State}

/-- An access of the writer takes the byte whose turn it is over, or loses it. -/
theorem writerStep_sublist {r r' : Ring} (next : r.writerStep capacity = some r') :
    List.Sublist (r'.accepted ++ r'.writer.pending) (r.accepted ++ r.writer.pending) := by
  cases Ring.writerStep_move next <;> rename_i pc <;> simp only [pc, WriterPc.pending]
  case full item rest _ _ _ => exact (List.sublist_cons_self item rest).append_left _
  case storeTail => simp
  all_goals exact List.Sublist.refl _

theorem producerStep_sublist (next : producerStep capacity s = some s') :
    List.Sublist (s'.ring.accepted ++ toCome s') (s.ring.accepted ++ toCome s) := by
  unfold toCome inHand
  cases producerStep_move next <;> rename_i pc <;> simp only [pc]
  case callWrite call => simp [call, bytesOf]
  case callStop call => simp [call, bytesOf]
  case enter call =>
    obtain ⟨-, rfl⟩ := Ring.callWrite_eq call
    exact List.Sublist.refl _
  case skip chunk _ =>
    refine List.Sublist.append_left ?_ _
    exact List.sublist_append_right chunk _
  case access access =>
    rw [← List.append_assoc, ← List.append_assoc]
    exact (writerStep_sublist access).append_right _
  case leave outside => simp [outside, WriterPc.pending]
  all_goals exact List.Sublist.refl _

/-- What the buffer has taken and what it will still be asked to take only ever loses bytes. -/
theorem step_sublist {a : Action} (next : step capacity s a = some s') :
    List.Sublist (s'.ring.accepted ++ toCome s') (s.ring.accepted ++ toCome s) := by
  cases a with
  | producer => exact producerStep_sublist next
  | consumer =>
    obtain ⟨producer, calls, -, writer, accepted⟩ := consumerStep_frame next
    have same : toCome s' = toCome s := by simp only [toCome, inHand, producer, calls, writer]
    rw [same, accepted]
  | consumerThrows =>
    obtain ⟨-, rfl⟩ := consumerThrows_eq next
    exact List.Sublist.refl _

/-- Where there is room and the copy goes on, nothing is lost. -/
theorem producerStep_whole (script : Script s) (room : notFull s .producer)
    (next : producerStep capacity s = some s') :
    s'.ring.accepted ++ toCome s' = s.ring.accepted ++ toCome s := by
  unfold toCome inHand
  cases producerStep_move next <;> rename_i pc <;> simp only [pc]
  case callWrite call => simp [call, bytesOf]
  case callStop call => simp [call, bytesOf]
  case enter call =>
    obtain ⟨-, rfl⟩ := Ring.callWrite_eq call
    rfl
  case skip chunk refused =>
    -- A stopped copy is not in a `Write`.
    have running : s.running = true := by
      by_contra stopped
      simp [Script, stopped, pc] at script
    have empty : chunk = [] := by simpa [running] using refused
    rw [empty]
  case access access =>
    rw [← List.append_assoc, ← List.append_assoc]
    congr 1
    cases Ring.writerStep_move access with
    | full full atLoad => simp [notFull, atLoad, WriterPc.fullTest, full] at room
    | storeTail atStore => simp [atStore, WriterPc.pending]
    | room _ atLoad => simp [atLoad, WriterPc.pending]
    | _ atPc => simp [atPc, WriterPc.pending]
  case leave outside => simp [outside, WriterPc.pending]

theorem step_whole {a : Action} (script : Script s) (room : notFull s a)
    (next : step capacity s a = some s') :
    s'.ring.accepted ++ toCome s' = s.ring.accepted ++ toCome s := by
  cases a with
  | producer => exact producerStep_whole script room next
  | consumer =>
    obtain ⟨producer, calls, -, writer, accepted⟩ := consumerStep_frame next
    have same : toCome s' = toCome s := by simp only [toCome, inHand, producer, calls, writer]
    rw [same, accepted]
  | consumerThrows =>
    obtain ⟨-, rfl⟩ := consumerThrows_eq next
    rfl

/-- The writing thread is in its handler, or has left by it. -/
def Failing (s : State) : Prop := s.consumer = .stopping ∨ s.consumer = .failed

/-- What has been passed to the file writer is what the reads have returned; a chunk on which it
    threw is the last. -/
structure HandedOn (s : State) : Prop where
  whole : ¬ Failing s → s.written.flatten ++ pending s = s.ring.returned.flatten
  part : s.written.flatten <+: s.ring.returned.flatten

theorem HandedOn.of_whole
    (whole : s.written.flatten ++ pending s = s.ring.returned.flatten) : HandedOn s :=
  ⟨fun _ => whole, ⟨_, whole⟩⟩

theorem HandedOn.producerStep (h : HandedOn s) (next : producerStep capacity s = some s') :
    HandedOn s' := by
  obtain ⟨consumer, written, -, returned, -⟩ := producerStep_frame next
  refine ⟨?_, ?_⟩
  · unfold Failing pending
    rw [consumer, written, returned]
    exact h.whole
  · rw [written, returned]
    exact h.part

theorem HandedOn.consumerStep (h : HandedOn s) (next : consumerStep capacity s = some s') :
    HandedOn s' := by
  have part := h.part
  have whole := h.whole
  unfold Failing pending at whole
  cases consumerStep_move next <;> rename_i pc <;> simp only [pc] at whole
  case fail => exact ⟨fun outside => absurd (Or.inr rfl) outside, part⟩
  case enter call =>
    obtain ⟨-, rfl⟩ := Ring.callRead_eq call
    exact .of_whole (by simpa [pending] using whole)
  case access notDone access =>
    have returned := (Ring.readerStep_ne_idle access notDone).2
    exact .of_whole (by simpa [pending, pc, returned] using whole)
  case leave chunk ring done access =>
    simp only [Ring.readerStep, done, Option.some.injEq] at access
    subst access
    by_cases empty : chunk = []
    · exact .of_whole (by simpa [pending, afterRead, empty] using whole)
    · exact .of_whole (by simpa [pending, afterRead, empty] using whole)
  all_goals exact .of_whole (by simpa [pending] using whole)

theorem HandedOn.step {a : Action} (h : HandedOn s) (next : step capacity s a = some s') :
    HandedOn s' := by
  cases a with
  | producer => exact h.producerStep next
  | consumer => exact h.consumerStep next
  | consumerThrows =>
    obtain ⟨-, rfl⟩ := consumerThrows_eq next
    exact ⟨fun outside => absurd (Or.inl rfl) outside, h.part⟩

section Reached

variable {size : Nat} {content : List UInt8} {ok : State → Action → Prop} {s₀ : State}

theorem bytesOf_callsFor (chunks : List (List UInt8)) :
    (FileDataTransferTask.callsFor chunks).flatMap bytesOf = chunks.flatten := by
  induction chunks with
  | nil => rfl
  | cons chunk chunks ih =>
    rw [List.flatten_cons, ← ih]
    rfl

/-- All of the source is to come. -/
theorem toCome_start (started : startCopy size content = some s₀) :
    s₀.ring.accepted ++ toCome s₀ = content := by
  obtain ⟨chunks, begun, whole, -⟩ := startCopy_eq started
  obtain ⟨buffer, -, rfl⟩ := start_eq begun
  simp [toCome, inHand, Ring.start, bytesOf_callsFor, whole]

theorem HandedOn.of_reaches {calls : List Call} (started : start size calls = some s₀)
    (run : Reaches size ok s₀ s) : HandedOn s := by
  obtain ⟨buffer, -, rfl⟩ := start_eq started
  refine run.invariant ?_ fun _ _ _ handed _ next => handed.step next
  exact .of_whole rfl

/-- In every run of a copy, the bytes passed to the file writer are a subsequence of the source. -/
theorem written_sublist (two : 2 ≤ size) (started : startCopy size content = some s₀)
    (run : Reaches size ok s₀ s) : List.Sublist s.written.flatten content := by
  obtain ⟨chunks, begun, -⟩ := startCopy_eq started
  have kept : List.Sublist (s.ring.accepted ++ toCome s) content := by
    rw [← toCome_start started]
    refine @Transition.Reaches.invariant _ _ _ _ _ _
      (fun s => List.Sublist (s.ring.accepted ++ toCome s) (s₀.ring.accepted ++ toCome s₀)) run
      (List.Sublist.refl _) ?_
    intro t a u sublist _ next
    exact (step_sublist next).trans sublist
  have passed := (HandedOn.of_reaches begun run).part.trans
    (ring_inv two begun run).returned_accepted
  exact passed.sublist.trans ((List.sublist_append_left _ _).trans kept)

/-- Where no byte meets a full buffer and `Stop` finds the buffer covered, the writing thread
    leaves its loop with all of the source passed on. -/
theorem written_exact (two : 2 ≤ size) (started : startCopy size content = some s₀)
    (run : Reaches size (fun s a => notFull s a ∧ drainedAtStop size s a) s₀ s)
    (finished : s.consumer = .finished) : s.written.flatten = content := by
  obtain ⟨chunks, begun, -⟩ := startCopy_eq started
  obtain ⟨buffer, created, initial⟩ := start_eq begun
  have addressable := (CircularBuffer.create_spec created).1
  have copying : ∀ t, Reaches size (fun s a => notFull s a ∧ drainedAtStop size s a) s₀ t →
      Copying size t := fun t reached =>
    (Copying.start two begun).of_reaches two addressable (fun _ _ guard => guard.2.1) reached
  have whole : s.ring.accepted ++ toCome s = content := by
    refine @Transition.Reaches.invariant_of _ _ _ _ _ _
      (fun s => s.ring.accepted ++ toCome s = content) _ run copying (toCome_start started) ?_
    intro t a u inv same guard next
    exact (step_whole inv.script guard.1 next).trans same
  have stopped := (copying s run).passed.finished finished
  have none : toCome s = [] := by
    have script := (copying s run).script
    rw [Script, if_neg (by simp [stopped])] at script
    rcases script with ⟨noCalls, pc | pc⟩ <;> simp [toCome, inHand, noCalls, pc]
  have covered : s.running = false → s.ring.Covered size := by
    refine @Transition.Reaches.invariant_of _ _ _ _ _ _
      (fun s => s.running = false → s.ring.Covered size) _ run copying ?_ ?_
    · intro never
      rw [initial] at never
      cases never
    · intro t a u inv known guard next stopped'
      exact inv.covered_step two addressable guard.2 known next stopped'
  rw [none, List.append_nil] at whole
  exact (((copying s run).delivered_iff finished).mpr (covered stopped)).trans whole

end Reached

end MultiThread

end FileTransfer.Threads
