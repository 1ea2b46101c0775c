import FileTransfer.MultiProcess.Tokens

/-!
# Leaving before the last chunk

`Stop` posts the stop semaphore without knowing whether the last chunk has been taken, and the
receiver looks at that semaphore before it looks for data. Both parties agree on the end
exactly when no stop is posted over data that the receiver is not just about to take.
-/

namespace FileTransfer.MultiProcess

variable {page : Nat} {s s' : State} {chunks : List (List UInt8)}

/-- A receiver that has left its loop has taken every published chunk, and does not leave the
    sender in the loop of `Stop` without its token. -/
def Agreed (s : State) : Prop :=
  s.receiver = .finished → s.published.length ≤ s.taken ∧ ¬ (s.sender.stops ∧ s.space = 0)

/-- No failure, and each post of the stop semaphore finds no data posted, or the receiver
    between its `IsRunning` and its `try_wait` for that data. -/
def stopAfterTaken (s : State) (a : Action) : Prop :=
  noFault s a ∧ (a = .sender → s.sender = .stopPost → s.data = 0 ∨ s.receiver = .tryData)

instance (s : State) (a : Action) : Decidable (stopAfterTaken s a) :=
  inferInstanceAs (Decidable (_ ∧ _))

/-- A posted stop finds the published chunks taken, or one of them about to be. -/
structure Closing (s : State) : Prop where
  noCalls : 0 < s.stop ∨ s.receiver = .finished → s.calls = []
  posted : 0 < s.stop → s.data = 0 ∨ s.receiver = .tryData
  left : s.receiver = .finished → s.data = 0

theorem Closing.senderStep (h : Closing s) (script : Script chunks s)
    (taken : s.sender = .stopPost → s.data = 0 ∨ s.receiver = .tryData)
    (next : senderStep s = some s') : Closing s' := by
  obtain ⟨noCalls, posted, left⟩ := h
  -- While a call is to come, no stop has been posted yet.
  have before : s.calls ≠ [] → ¬ 0 < s.stop ∧ s.receiver ≠ .finished := by
    intro toCome
    apply not_or.mp
    intro closing
    exact toCome (noCalls closing)
  cases senderStep_move next with
  | callWrite call =>
    obtain ⟨unposted, running⟩ := before (by simp [call])
    exact ⟨fun closing => absurd closing (not_or.mpr ⟨unposted, running⟩), posted, left⟩
  | callStop call =>
    obtain ⟨unposted, running⟩ := before (by simp [call])
    exact ⟨fun closing => absurd closing (not_or.mpr ⟨unposted, running⟩), posted, left⟩
  | postData pc =>
    obtain ⟨unposted, running⟩ := before
      (script.calls_ne_nil (show s.sender.chunk = some _ by rw [pc]; rfl))
    exact ⟨noCalls, fun post => absurd post unposted, fun gone => absurd gone running⟩
  | stopPost pc => exact ⟨fun _ => script.calls_eq_nil (.inl pc), fun _ => taken pc, left⟩
  | _ => exact ⟨noCalls, posted, left⟩

theorem Closing.receiverStep (h : Closing s) (tokens : Tokens s)
    (next : receiverStep page s = some s') : Closing s' := by
  obtain ⟨noCalls, posted, left⟩ := h
  have conserved := tokens.conserved
  cases receiverStep_move next <;> rename_i pc <;>
    simp only [pc, reduceCtorEq, or_false] at posted noCalls
  case leave post =>
    exact ⟨fun _ => noCalls post, fun _ => .inl (posted post), fun _ => posted post⟩
  case poll => exact ⟨by simpa using noCalls, fun _ => .inr rfl, by simp⟩
  case takeData =>
    have last : s.data - 1 = 0 := by omega
    exact ⟨by simpa using noCalls, fun _ => .inl last, by simp⟩
  case noData empty =>
    exact ⟨by simpa using noCalls, fun _ => .inl (Nat.eq_zero_of_not_pos empty), by simp⟩
  all_goals exact ⟨by simpa using noCalls, fun post => .inl (posted post), by simp⟩

/-- A stop posted over untaken data can make the receiver leave without it. -/
theorem leaves_early (copying : Copying chunks s) (untaken : 0 < s.data) (post : 0 < s.stop)
    (elsewhere : s.receiver ≠ .tryData) :
    ∃ t, Reaches page noFault s t ∧ ¬ Agreed t := by
  obtain ⟨-, ⟨conserved, counted⟩, normal⟩ := copying
  cases atPc : s.receiver with
  | loop =>
    refine ⟨{ s with stop := s.stop - 1, receiver := .finished },
      .single (.inr rfl) (a := .receiver) ?_, ?_⟩
    · simp [MultiProcess.step, receiverStep, atPc, post]
    · intro agreed
      have all := (agreed rfl).1
      simp only at all
      omega
  | tryData => exact absurd atPc elsewhere
  | mapRead => simp only [atPc, ReceiverPc.token] at conserved; omega
  | postSpace => simp only [atPc, ReceiverPc.token] at conserved; omega
  | writing size done =>
    have finish : Reaches page noFault s _ :=
      finish_write (fun _ => .inr rfl) _ s size done atPc rfl
    refine ⟨_, finish.trans (.single (.inr rfl) (a := .receiver)
      (t := { s with
        stop := s.stop - 1
        receiver := .finished
        delivered := s.delivered ++ [done ++
          (List.range' done.length (size - done.length)).map (byteAt page s.memory)] }) ?_),
      ?_⟩
    · simp [MultiProcess.step, receiverStep, post]
    · intro agreed
      have all := (agreed rfl).1
      simp only at all
      omega
  | stopping => exact absurd atPc normal.1
  | finished => exact ⟨s, .refl, fun agreed => by have := (agreed atPc).1; omega⟩
  | failed => exact absurd atPc normal.2

/-- While each stop is posted with the data taken or about to be taken, the two parties agree
    on the end; and after a post that finds other data there is always a run in which the
    receiver leaves without it. -/
theorem agreed_of_stopAfterTaken (page : Nat) (memory : List UInt8)
    (chunks : List (List UInt8)) :
    (∀ s, Reaches page stopAfterTaken (start memory (FileDataTransferTask.callsFor chunks)) s →
        Agreed s) ∧
      ∀ s a s', Reaches page noFault (start memory (FileDataTransferTask.callsFor chunks)) s →
        noFault s a → ¬ stopAfterTaken s a → step page s a = some s' →
          ∃ t, Reaches page noFault s' t ∧ ¬ Agreed t := by
  have fresh : Copying chunks (start memory _) := .start memory
  constructor
  · intro s run gone
    have copying := fresh.of_reaches (fun _ _ guard => guard.1.noThrow) run
    have closing : Closing s := by
      refine run.invariant_of
        (fun t reached => fresh.of_reaches (fun _ _ guard => guard.1.noThrow) reached)
        ⟨?_, ?_, ?_⟩ ?_
      · simp [start]
      · simp [start]
      · simp [start]
      · rintro t a u inv known ⟨clean | clean, taken⟩ next
        · subst clean
          exact known.senderStep inv.script (taken rfl) next
        · subst clean
          exact known.receiverStep inv.tokens next
    obtain ⟨conserved, counted⟩ := copying.tokens
    have none := closing.left gone
    refine ⟨by omega, ?_⟩
    rintro ⟨stops, noSpace⟩
    have outside : s.sender.token = 0 ∧ s.final = 0 := by
      rcases stops with pc | pc <;> simp [pc, SenderPc.token, State.final]
    simp only [gone, ReceiverPc.token] at conserved
    omega
  · intro s a s' run clean early next
    have copying := fresh.of_reaches (fun _ _ guard => guard.noThrow) run
    obtain ⟨rfl, atPost, untaken, elsewhere⟩ : a = .sender ∧ s.sender = .stopPost ∧
        s.data ≠ 0 ∧ s.receiver ≠ .tryData := by
      simpa [stopAfterTaken, clean] using early
    have copying' := copying.step clean.noThrow next
    simp only [step, senderStep, atPost, Option.some.injEq] at next
    subst next
    exact leaves_early copying' (Nat.pos_of_ne_zero untaken) (Nat.succ_pos _) elsewhere

/-- One chunk, taken before the stop is posted. -/
theorem agreed_of_stopAfterTaken_small : ∃ s,
    Reaches 4096 stopAfterTaken (start [] (FileDataTransferTask.callsFor [[1]])) s ∧
      s.receiver = .finished ∧ s.sender = .finished ∧ s.published = [[1]] ∧ Agreed s := by
  have run : Reaches 4096 stopAfterTaken (start [] (FileDataTransferTask.callsFor [[1]])) _ :=
    .of_checked_run (.replicate 8 .sender ++ .replicate 6 .receiver ++ .replicate 3 .sender ++
      [.receiver]) rfl
  exact ⟨_, run, rfl, rfl, rfl, (agreed_of_stopAfterTaken 4096 [] [[1]]).1 _ run⟩

/-- The sender publishes its only chunk and posts the stop before the receiver has looked at
    either semaphore. -/
theorem receiver_leaves_chunk : ¬ ∀ page memory chunks s, chunks ≠ [] →
    Reaches page noFault (start memory (FileDataTransferTask.callsFor chunks)) s → Agreed s := by
  intro always
  have run : Reaches 4096 noFault (start [] (FileDataTransferTask.callsFor [[1]])) _ :=
    .of_checked_run (.replicate 9 .sender ++ [.receiver]) rfl
  have agreed := always 4096 [] [[1]] _ (by simp) run rfl
  exact absurd agreed.1 (by decide)

end FileTransfer.MultiProcess
