import FileTransfer.MultiProcess.Tokens

/-!
# A receiver that fails

When the file writer throws, `BufferTransferTask::Run` calls `SharedReadDataAccess::Stop`, which
posts the space semaphore once, and returns. From then on nobody posts space: each chunk still to
be written takes one, and so does the sender's `Stop`.
-/

namespace FileTransfer.MultiProcess

/-- Any interleaving with any failures. -/
def anyStep (_ : State) (_ : Action) : Prop := True

instance (s : State) (a : Action) : Decidable (anyStep s a) := inferInstanceAs (Decidable True)

/-- The successful waits on space that the sender still has before it: one for each call to come
    and one for the call it is in, unless that call has had its own. -/
def State.needs (s : State) : Nat :=
  s.calls.length +
    match s.sender with
    | .waitSpace _ => 1
    | .stopPost => 1
    | .stopTry => 1
    | _ => 0

/-- The sender waits for space, in `Write` or in the loop of `Stop`. -/
def SenderPc.waits : SenderPc → Prop
  | .waitSpace _ => True
  | .stopPost => True
  | .stopTry => True
  | _ => False

/-- The receiver is gone after its failure and the sender waits for space that nobody posts. -/
def Abandoned (s : State) : Prop := s.receiver = .failed ∧ s.space = 0 ∧ s.sender.waits

/-- The token that the failing receiver posts is enough for what the sender still needs. -/
def enoughSpace (s : State) (a : Action) : Prop :=
  a = .receiver → s.receiver = .stopping → s.needs ≤ s.space + 1

instance (s : State) (a : Action) : Decidable (enoughSpace s a) :=
  inferInstanceAs (Decidable (_ → _ → _))

variable {page : Nat} {s s' : State} {chunks : List (List UInt8)}

/-- The sender takes space only for its needs. -/
theorem senderStep_needs (next : senderStep s = some s') :
    s'.needs + s.space = s.needs + s'.space := by
  cases senderStep_move next <;> rename_i pc <;> simp only [State.needs, pc]
  case callWrite call => rw [call, List.length_cons]
  case callStop call => rw [call, List.length_cons]
  all_goals omega

theorem senderFault_frame (next : senderFault s = some s') :
    s'.needs = s.needs ∧ s'.space = s.space ∧ s'.receiver = s.receiver ∧ s'.calls = s.calls ∧
      s'.sender ≠ .finished := by
  unfold senderFault at next
  split at next
  case h_3 => cases next
  all_goals
    rename_i pc
    cases next
    simp [State.needs, pc]

/-- A receiver that has failed does nothing. -/
theorem receiver_gone (gone : s.receiver = .failed) {a : Action}
    (next : step page s a = some s') : a = .sender ∨ a = .senderFault := by
  cases a with
  | sender => exact Or.inl rfl
  | senderFault => exact Or.inr rfl
  | receiver => simp [step, receiverStep, gone] at next
  | receiverFault => simp [step, receiverFault, gone] at next
  | receiverThrows => simp [step, receiverThrows, gone] at next

/-- After the failure there is space for all that the sender still needs. -/
def Served (s : State) : Prop := s.receiver = .failed → s.needs ≤ s.space

theorem Served.step {a : Action} (h : Served s) (enough : enoughSpace s a)
    (next : MultiProcess.step page s a = some s') : Served s' := by
  intro gone
  cases a with
  | sender =>
    have served := h ((senderStep_frame next).1.symm.trans gone)
    have taken := senderStep_needs next
    omega
  | senderFault =>
    obtain ⟨needs, space, receiver, -⟩ := senderFault_frame next
    rw [needs, space]
    exact h (receiver.symm.trans gone)
  | receiver =>
    have fails := enough rfl
    cases receiverStep_move next <;> rename_i pc <;> simp only [reduceCtorEq] at gone
    case fail => exact fails pc
  | receiverFault =>
    simp only [MultiProcess.step, receiverFault] at next
    split at next <;> cases next
    cases gone
  | receiverThrows =>
    simp only [MultiProcess.step, receiverThrows] at next
    split at next <;> cases next
    cases gone

/-- A sender that waits needs space. -/
theorem Served.not_abandoned (h : Served s) : ¬ Abandoned s := by
  rintro ⟨gone, empty, waits⟩
  have enough := h gone
  cases pc : s.sender <;> simp only [pc, SenderPc.waits] at waits <;>
    simp only [State.needs, pc] at enough <;> omega

/-- The wait is for good: nobody posts space any more. -/
theorem Abandoned.step {a : Action} (h : Abandoned s)
    (next : MultiProcess.step page s a = some s') : Abandoned s' := by
  obtain ⟨gone, empty, waits⟩ := h
  rcases receiver_gone gone next with rfl | rfl
  · cases senderStep_move next <;> rename_i pc <;> simp only [pc, SenderPc.waits] at waits
    case takeSpace free => omega
    case stopPost => exact ⟨gone, empty, trivial⟩
    case stopTaken free => omega
    case stopAgain => exact ⟨gone, empty, trivial⟩
  · simp only [MultiProcess.step, senderFault] at next
    split at next <;> rename_i pc
    · simp only [pc, SenderPc.waits] at waits
    · simp only [pc, SenderPc.waits] at waits
    · cases next

/-- After the failure of the receiver the sender, short of space, runs into a wait. -/
theorem next_abandoned : ∀ (calls : List Call) (s : State), s.calls = calls → s.sender = .next →
    s.receiver = .failed → s.space < calls.length →
    ∃ t, Reaches page anyStep s t ∧ Abandoned t := by
  intro calls
  induction calls with
  | nil =>
    intro s _ _ _ short
    simp at short
  | cons call rest ih =>
    intro s calls atNext gone short
    rw [List.length_cons] at short
    cases call with
    | write chunk =>
      have begin : step page s .sender =
          some { s with calls := rest, sender := .waitSpace chunk } := by
        simp only [step, senderStep, atNext, calls]
      by_cases free : 0 < s.space
      · have take : step page { s with calls := rest, sender := .waitSpace chunk } .sender =
            some { s with
              space := s.space - 1, calls := rest, sender := .truncate chunk } := by
          simp only [step, senderStep, if_pos free]
        obtain ⟨memory, publish⟩ := @finish_publish page
          { s with space := s.space - 1, calls := rest, sender := .truncate chunk } anyStep
          (fun _ => trivial) chunk rfl rfl
        obtain ⟨t, run, abandoned⟩ := ih
          { s with
            space := s.space - 1
            calls := rest
            memory
            data := s.data + 1
            sender := .next
            published := s.published ++ [chunk] } rfl rfl gone
          (show s.space - 1 < rest.length by omega)
        exact ⟨t, .head trivial begin (.head trivial take (publish.trans run)), abandoned⟩
      · refine ⟨_, .single trivial begin, gone, ?_, trivial⟩
        exact Nat.eq_zero_of_not_pos free
    | stop =>
      have begin : step page s .sender = some { s with calls := rest, sender := .stopPost } := by
        simp only [step, senderStep, atNext, calls]
      by_cases free : 0 < s.space
      · have post : step page { s with calls := rest, sender := .stopPost } .sender =
            some { s with stop := s.stop + 1, calls := rest, sender := .stopTry } := rfl
        have take : step page { s with stop := s.stop + 1, calls := rest, sender := .stopTry }
            .sender = some { s with
              stop := s.stop + 1, space := s.space - 1, calls := rest, sender := .next } := by
          simp only [step, senderStep, if_pos free]
        obtain ⟨t, run, abandoned⟩ := ih
          { s with stop := s.stop + 1, space := s.space - 1, calls := rest, sender := .next } rfl
          rfl gone (show s.space - 1 < rest.length by omega)
        exact ⟨t, .head trivial begin (.head trivial post (.head trivial take run)), abandoned⟩
      · refine ⟨_, .single trivial begin, gone, ?_, trivial⟩
        exact Nat.eq_zero_of_not_pos free

/-- Wherever the sender is when the receiver fails. -/
theorem abandoned_follows (ended : s.sender = .finished → s.calls = [])
    (gone : s.receiver = .failed) (short : s.space < s.needs) :
    ∃ t, Reaches page anyStep s t ∧ Abandoned t := by
  -- In a wait the sender is abandoned already, or takes its space and goes on.
  have publishes : ∀ (u : State) (chunk : List UInt8), u.sender.chunk = some chunk →
      u.sender.token = 1 → u.receiver = .failed → u.space < u.calls.length →
      ∃ t, Reaches page anyStep u t ∧ Abandoned t := by
    intro u chunk inWrite held gone short
    obtain ⟨memory, publish⟩ := @finish_publish page u anyStep (fun _ => trivial) chunk inWrite held
    obtain ⟨t, run, abandoned⟩ := next_abandoned u.calls
      { u with
        memory
        data := u.data + 1
        sender := .next
        published := u.published ++ [chunk] } rfl rfl gone short
    exact ⟨t, publish.trans run, abandoned⟩
  have tries : ∀ u : State, u.sender = .stopTry → u.receiver = .failed →
      u.space < u.calls.length + 1 → ∃ t, Reaches page anyStep u t ∧ Abandoned t := by
    intro u atTry gone short
    by_cases free : 0 < u.space
    · have take : step page u .sender =
          some { u with space := u.space - 1, sender := .next } := by
        simp only [step, senderStep, atTry, if_pos free]
      obtain ⟨t, run, abandoned⟩ := next_abandoned u.calls
        { u with space := u.space - 1, sender := .next } rfl rfl gone
        (show u.space - 1 < u.calls.length by omega)
      exact ⟨t, .head trivial take run, abandoned⟩
    · exact ⟨u, .refl, gone, Nat.eq_zero_of_not_pos free, by rw [atTry]; trivial⟩
  cases pc : s.sender <;> simp only [State.needs, pc] at short
  case next => exact next_abandoned s.calls s rfl pc gone short
  case waitSpace chunk =>
    by_cases free : 0 < s.space
    · have take : step page s .sender =
          some { s with space := s.space - 1, sender := .truncate chunk } := by
        simp only [step, senderStep, pc, if_pos free]
      obtain ⟨t, run, abandoned⟩ := publishes
        { s with space := s.space - 1, sender := .truncate chunk } chunk rfl rfl gone
        (show s.space - 1 < s.calls.length by omega)
      exact ⟨t, .head trivial take run, abandoned⟩
    · exact ⟨s, .refl, gone, Nat.eq_zero_of_not_pos free, by rw [pc]; trivial⟩
  case truncate chunk => exact publishes s chunk (by rw [pc]; rfl) (by rw [pc]; rfl) gone short
  case map chunk => exact publishes s chunk (by rw [pc]; rfl) (by rw [pc]; rfl) gone short
  case copy chunk i => exact publishes s chunk (by rw [pc]; rfl) (by rw [pc]; rfl) gone short
  case postData chunk => exact publishes s chunk (by rw [pc]; rfl) (by rw [pc]; rfl) gone short
  case stopPost =>
    have post : step page s .sender = some { s with stop := s.stop + 1, sender := .stopTry } := by
      simp only [step, senderStep, pc]
    obtain ⟨t, run, abandoned⟩ := tries { s with stop := s.stop + 1, sender := .stopTry } rfl gone
      short
    exact ⟨t, .head trivial post run, abandoned⟩
  case stopTry => exact tries s pc gone short
  case finished => simp [ended pc] at short

/-- A sender that has ended has made all its calls. -/
theorem ended_of_reaches {ok : State → Action → Prop} {memory : List UInt8} {calls : List Call}
    (run : Reaches page ok (start memory calls) s) : s.sender = .finished → s.calls = [] := by
  refine run.invariant (I := fun t => t.sender = .finished → t.calls = []) ?_ ?_
  · rintro ⟨⟩
  · intro t a u known _ next ended
    cases a with
    | sender =>
      cases senderStep_move next <;> simp only [reduceCtorEq] at ended
      case finish none pc => exact none
    | senderFault => exact absurd ended (senderFault_frame next).2.2.2.2
    | receiver =>
      obtain ⟨calls, sender, -⟩ := receiverStep_frame next
      rw [calls]
      exact known (sender.symm.trans ended)
    | receiverFault =>
      simp only [MultiProcess.step, receiverFault] at next
      split at next <;> cases next
      exact known ended
    | receiverThrows =>
      simp only [MultiProcess.step, receiverThrows] at next
      split at next <;> cases next
      exact known ended

/-- While a failing receiver leaves enough space, no failure of it leaves the sender waiting for
    good; and after a failure that does not there is always a run in which it does. -/
theorem not_abandoned_of_enoughSpace (page : Nat) (memory : List UInt8)
    (chunks : List (List UInt8)) :
    (∀ s, Reaches page enoughSpace (start memory (FileDataTransferTask.callsFor chunks)) s →
        ¬ Abandoned s) ∧
      ∀ s a s', Reaches page anyStep (start memory (FileDataTransferTask.callsFor chunks)) s →
        ¬ enoughSpace s a → step page s a = some s' →
          ∃ t, Reaches page anyStep s' t ∧ Abandoned t := by
  constructor
  · intro s run
    have served : Served s := by
      refine run.invariant ?_ fun _ _ _ known enough next => known.step enough next
      rintro ⟨⟩
    exact served.not_abandoned
  · intro s a s' run short next
    obtain ⟨rfl, fails, short⟩ :
        a = .receiver ∧ s.receiver = .stopping ∧ ¬ s.needs ≤ s.space + 1 := by
      simpa [enoughSpace] using short
    have ended := ended_of_reaches run
    simp only [step, receiverStep, fails, Option.some.injEq] at next
    subst next
    exact abandoned_follows ended rfl (Nat.lt_of_not_le short)

/-- A failure over the only chunk, with the sender about to stop. -/
theorem not_abandoned_of_enoughSpace_small : ∃ s,
    Reaches 4096 enoughSpace (start [] (FileDataTransferTask.callsFor [[1]])) s ∧
      s.receiver = .failed ∧ s.sender = .finished ∧ ¬ Abandoned s := by
  have run : Reaches 4096 enoughSpace (start [] (FileDataTransferTask.callsFor [[1]])) _ :=
    .of_checked_run (.replicate 7 .sender ++ .replicate 4 .receiver ++
      [.receiverThrows, .receiver] ++ .replicate 4 .sender) rfl
  exact ⟨_, run, rfl, rfl, (not_abandoned_of_enoughSpace 4096 [] [[1]]).1 _ run⟩

/-- Three chunks, the second published and the receiver failing over the first. -/
theorem receiver_failure_abandons : ¬ ∀ page memory chunks s,
    Reaches page anyStep (start memory (FileDataTransferTask.callsFor chunks)) s →
      ¬ Abandoned s := by
  intro always
  have run : Reaches 4096 anyStep (start [] (FileDataTransferTask.callsFor [[1], [2], [3]])) _ :=
    .of_checked_run (.replicate 7 .sender ++ .replicate 4 .receiver ++
      [.receiverThrows, .receiver] ++ .replicate 16 .sender) rfl
  exact always 4096 [] [[1], [2], [3]] _ run ⟨rfl, rfl, trivial⟩

end FileTransfer.MultiProcess
