import FileTransfer.Lib.Fairness
import FileTransfer.MultiProcess.Delivery
import FileTransfer.MultiProcess.ReceiverFailure
import FileTransfer.MultiProcess.Shutdown
import Mathlib.Algebra.GroupWithZero.Nat
import Mathlib.Data.Prod.Lex

/-!
# A transfer whose stop is not posted early ends

The sender waits for space and the receiver polls for data, so that neither has a bound on its own
steps. But one token goes round, and whoever has it has less to do with each step. The rank is
lexicographic: what the sender has left, and below it what the receiver has to do with what has been
posted. Waiting and polling leave it as it is.
-/

namespace FileTransfer.MultiProcess

/-- The sender's steps for a call. -/
def callLeft : Call → Nat
  | .write chunk => chunk.length + 7
  | .stop => 5

/-- The steps left to the sender, those of a wait counted once. -/
def senderLeft (s : State) : Nat :=
  (s.calls.map callLeft).sum +
    match s.sender with
    | .next => 1
    | .waitSpace chunk => chunk.length + 6
    | .truncate chunk => chunk.length + 5
    | .map chunk => chunk.length + 4
    | .copy chunk i => (chunk.length - i) + 3
    | .postData _ => 2
    | .stopPost => if s.space = 0 then 4 else 3
    | .stopTry => if s.space = 0 then 4 else 2
    | .finished => 0

/-- The receiver's steps for what has been posted, those of polling counted once. -/
def receiverLeft (s : State) : Nat :=
  match s.receiver with
  | .loop => if 0 < s.data then s.memory.length + 7 else if 0 < s.stop then 1 else 2
  | .tryData => if 0 < s.data then s.memory.length + 6 else 2
  | .mapRead => s.memory.length + 5
  | .postSpace size => size + 4
  | .writing size done => (size - done.length) + if 0 < s.data then s.memory.length + 8 else 3
  | _ => 0

def rank (s : State) : Nat ×ₗ Nat := toLex (senderLeft s, receiverLeft s)

/-- The sender waits for space that is not there, or has finished. -/
def Blocked (s : State) : Prop := s.sender = .finished ∨ s.space = 0 ∧ s.sender.waits

instance (pc : SenderPc) : Decidable pc.waits :=
  match pc with
  | .waitSpace _ => isTrue trivial
  | .stopPost => isTrue trivial
  | .stopTry => isTrue trivial
  | .next => isFalse id
  | .truncate _ => isFalse id
  | .map _ => isFalse id
  | .copy _ _ => isFalse id
  | .postData _ => isFalse id
  | .finished => isFalse id

instance (s : State) : Decidable (Blocked s) := inferInstanceAs (Decidable (_ ∨ _ ∧ _))

/-- The party whose step counts. -/
def helpful (s : State) : Action := if Blocked s then .receiver else .sender

/-- Both parties have returned from their tasks. -/
def Finished (s : State) : Prop := s.sender = .finished ∧ s.receiver = .finished

/-- There is something for the receiver to do. -/
def Busy (s : State) : Prop :=
  0 < s.data ∨ 0 < s.stop ∨ (s.receiver ≠ .loop ∧ s.receiver ≠ .tryData)

/-- A sender that has left `Stop` has posted, and the receiver has seen it if the post is gone. -/
def Announced (s : State) : Prop :=
  s.sender = .stopTry ∨ s.calls = [] ∧ (s.sender = .next ∨ s.sender = .finished) →
    0 < s.stop ∨ s.receiver = .finished

/-- What holds along the runs in which no stop is posted early. -/
structure Keeping (chunks : List (List UInt8)) (s : State) : Prop where
  copying : Copying chunks s
  closing : Closing s
  announced : Announced s

variable {page : Nat} {s s' : State} {chunks : List (List UInt8)}

theorem Announced.senderStep (h : Announced s) (script : Script chunks s)
    (next : senderStep s = some s') : Announced s' := by
  unfold Announced at h ⊢
  cases senderStep_move next <;> rename_i pc
  case finish none => exact fun _ => h (.inr ⟨none, .inl pc⟩)
  case stopPost => exact fun _ => .inl (Nat.succ_pos _)
  case stopTaken => exact fun _ => h (.inl pc)
  case postData =>
    have toCome := script.calls_ne_nil (show s.sender.chunk = some _ by rw [pc]; rfl)
    simp [toCome]
  all_goals simp

theorem Announced.receiverStep (h : Announced s) (next : receiverStep page s = some s') :
    Announced s' := by
  unfold Announced at h ⊢
  cases receiverStep_move next <;> rename_i pc
  case leave post => exact fun _ => .inr rfl
  all_goals
    intro past
    exact .inl ((h past).resolve_right (by simp [pc]))

theorem Keeping.start (memory : List UInt8) :
    Keeping chunks (start memory (FileDataTransferTask.callsFor chunks)) := by
  refine ⟨.start memory, ⟨?_, ?_, ?_⟩, ?_⟩
  · simp [MultiProcess.start]
  · simp [MultiProcess.start]
  · simp [MultiProcess.start]
  · simp [Announced, MultiProcess.start, FileDataTransferTask.callsFor_ne_nil]

theorem Keeping.step {a : Action} (h : Keeping chunks s) (guard : stopAfterTaken s a)
    (next : step page s a = some s') : Keeping chunks s' := by
  obtain ⟨copying, closing, announced⟩ := h
  have copying' := copying.step guard.1.noThrow next
  obtain ⟨rfl | rfl, taken⟩ := guard
  · exact ⟨copying', closing.senderStep copying.script (taken rfl) next,
      announced.senderStep copying.script next⟩
  · exact ⟨copying', closing.receiverStep copying.tokens next, announced.receiverStep next⟩

/-- The sender has less to do after a step, unless it waits for space. -/
theorem senderStep_left (next : senderStep s = some s') :
    senderLeft s' < senderLeft s ∨
      (s.sender = .stopPost ∧ s.space = 0 ∧ s' = { s with stop := s.stop + 1, sender := .stopTry }) ∨
      (s.sender = .stopTry ∧ s.space = 0 ∧ s' = { s with sender := .stopPost }) := by
  cases senderStep_move next <;> rename_i pc
  case finish none => simp [senderLeft, pc]
  case callWrite call =>
    left
    simp only [senderLeft, pc, call, List.map_cons, List.sum_cons, callLeft]
    omega
  case callStop call =>
    left
    simp only [senderLeft, pc, call, List.map_cons, List.sum_cons, callLeft]
    split <;> omega
  case copy more =>
    left
    obtain ⟨within, -⟩ := List.getElem?_eq_some_iff.mp more
    simp only [senderLeft, pc]
    omega
  case stopPost =>
    by_cases empty : s.space = 0
    · exact .inr (.inl ⟨pc, empty, rfl⟩)
    · simp [senderLeft, pc, empty]
  case stopTaken free =>
    left
    simp only [senderLeft, pc]
    split <;> omega
  case stopAgain =>
    by_cases empty : s.space = 0
    · exact .inr (.inr ⟨pc, empty, rfl⟩)
    · simp only [senderStep, pc, if_pos (Nat.pos_of_ne_zero empty), Option.some.injEq] at next
      cases congrArg State.sender next
  all_goals
    left
    simp only [senderLeft, pc]
    omega

/-- The receiver leaves the sender no more to do. -/
theorem receiverStep_senderLeft (next : receiverStep page s = some s') :
    senderLeft s' ≤ senderLeft s := by
  obtain ⟨calls, sender, -, -⟩ := receiverStep_frame next
  have space : s.space ≤ s'.space := by cases receiverStep_move next <;> simp
  unfold senderLeft
  rw [calls, sender]
  split
  case h_7 => split <;> split <;> omega
  case h_8 => split <;> split <;> omega
  all_goals exact le_rfl

/-- The receiver has less to do after a step, unless it polls for nothing. -/
theorem receiverStep_left (copying : Copying chunks s) (next : receiverStep page s = some s') :
    receiverLeft s' < receiverLeft s ∨
      ¬ Busy s ∧ receiverLeft s' = receiverLeft s ∧ ∃ pc, s' = { s with receiver := pc } := by
  have conserved := copying.tokens.conserved
  cases receiverStep_move next <;> rename_i pc
  case leave post =>
    left
    simp only [receiverLeft, pc]
    split
    · omega
    · simp
  case poll unposted =>
    by_cases full : 0 < s.data
    · simp [receiverLeft, pc, full]
    · right
      refine ⟨by simp [Busy, pc, full, unposted], ?_, _, rfl⟩
      simp [receiverLeft, pc, full, unposted]
  case takeData full => simp [receiverLeft, pc, full]
  case noData empty =>
    by_cases post : 0 < s.stop
    · simp [receiverLeft, pc, empty, post]
    · right
      refine ⟨by simp [Busy, pc, empty, post], ?_, _, rfl⟩
      simp [receiverLeft, pc, empty, post]
  case map => simp [receiverLeft, pc]
  case returnEmpty size empty =>
    left
    simp only [pc, ReceiverPc.token] at conserved
    have none : ¬ 0 < s.data := by omega
    simp only [receiverLeft, pc, none, if_false]
    split <;> omega
  case returnView =>
    left
    simp only [pc, ReceiverPc.token] at conserved
    have none : ¬ 0 < s.data := by omega
    simp [receiverLeft, pc, none]
  case write more =>
    left
    simp only [receiverLeft, pc, List.length_append, List.length_singleton]
    omega
  case written all =>
    left
    simp only [receiverLeft, pc]
    split
    · omega
    · split <;> omega
  case fail => exact absurd pc copying.normal.1

theorem senderStep_isSome (free : ¬ Blocked s) : ∃ s', senderStep s = some s' := by
  unfold senderStep
  split <;> rename_i pc
  case h_1 => split <;> exact ⟨_, rfl⟩
  case h_2 =>
    by_cases empty : s.space = 0
    · exact absurd (.inr ⟨empty, by rw [pc]; trivial⟩) free
    · exact ⟨_, if_pos (Nat.pos_of_ne_zero empty)⟩
  case h_3 => exact ⟨_, rfl⟩
  case h_6 => exact ⟨_, rfl⟩
  case h_7 => exact ⟨_, rfl⟩
  case h_9 => exact absurd (.inl pc) free
  all_goals split <;> exact ⟨_, rfl⟩

theorem receiverStep_isSome (running : s.receiver ≠ .finished ∧ s.receiver ≠ .failed) :
    ∃ s', receiverStep page s = some s' := by
  unfold receiverStep
  split <;> rename_i pc
  case h_3 => exact ⟨_, rfl⟩
  case h_6 => exact ⟨_, rfl⟩
  case h_7 => exact absurd pc running.1
  case h_8 => exact absurd pc running.2
  all_goals split <;> exact ⟨_, rfl⟩

/-- A sender that is not blocked has less to do after its next step. -/
theorem sender_advances (free : ¬ Blocked s) :
    ∃ s', senderStep s = some s' ∧ rank s' < rank s := by
  obtain ⟨s', next⟩ := senderStep_isSome free
  refine ⟨s', next, Prod.Lex.toLex_lt_toLex.mpr (.inl ?_)⟩
  rcases senderStep_left next with less | ⟨pc, empty, -⟩ | ⟨pc, empty, -⟩
  · exact less
  · exact absurd (.inr ⟨empty, by rw [pc]; trivial⟩) free
  · exact absurd (.inr ⟨empty, by rw [pc]; trivial⟩) free

/-- A receiver that has something to do has less to do after its next step. -/
theorem Copying.receiver_advances (copying : Copying chunks s) (busy : Busy s)
    (running : s.receiver ≠ .finished) :
    ∃ s', receiverStep page s = some s' ∧ rank s' < rank s := by
  obtain ⟨s', next⟩ := @receiverStep_isSome page s ⟨running, copying.normal.2⟩
  refine ⟨s', next, Prod.Lex.toLex_lt_toLex.mpr ?_⟩
  rcases receiverStep_left copying next with less | ⟨idle, -⟩
  · exact (receiverStep_senderLeft next).lt_or_eq.imp_right fun same => ⟨same, less⟩
  · exact absurd busy idle

/-- When the sender is blocked, it is the receiver that has something to do. -/
theorem Keeping.busy (h : Keeping chunks s) (blocked : Blocked s) (short : ¬ Finished s) :
    Busy s ∧ s.receiver ≠ .finished := by
  obtain ⟨⟨script, ⟨conserved, -⟩, -⟩, closing, announced⟩ := h
  rcases blocked with finished | ⟨empty, waits⟩
  · have running : s.receiver ≠ .finished := fun left => short ⟨finished, left⟩
    have none : s.calls = [] := by
      rcases script with ⟨-, -, -, -, unfinished⟩ | ⟨none, -⟩
      · exact absurd finished unfinished
      · exact none
    have posted := (announced (.inr ⟨none, .inr finished⟩)).resolve_right running
    exact ⟨.inr (.inl posted), running⟩
  · have outside : s.sender.token = 0 ∧ s.final = 0 := by
      cases pc : s.sender <;> simp only [pc, SenderPc.waits] at waits <;>
        simp [State.final, SenderPc.token, pc]
    refine ⟨?_, ?_⟩
    · by_cases full : 0 < s.data
      · exact .inl full
      · refine .inr (.inr ⟨?_, ?_⟩)
        · intro pc
          simp only [pc, ReceiverPc.token] at conserved
          omega
        · intro pc
          simp only [pc, ReceiverPc.token] at conserved
          omega
    · intro left
      have none := closing.left left
      simp only [left, ReceiverPc.token] at conserved
      omega

theorem Keeping.advance (h : Keeping chunks s) (short : ¬ Finished s) :
    ∃ t, MultiProcess.step page s (helpful s) = some t ∧ rank t < rank s := by
  unfold helpful
  by_cases blocked : Blocked s
  · rw [if_pos blocked]
    obtain ⟨busy, running⟩ := h.busy blocked short
    exact h.copying.receiver_advances busy running
  · rw [if_neg blocked]
    exact sender_advances blocked

/-- The other party's step makes the rank lower, or changes nothing that counts. -/
theorem Keeping.other (h : Keeping chunks s) {a : Action} (guard : noFault s a)
    (next : MultiProcess.step page s a = some s') :
    rank s' < rank s ∨ rank s' = rank s ∧ helpful s' = helpful s := by
  rcases guard with rfl | rfl
  · rcases senderStep_left next with less | ⟨pc, empty, rfl⟩ | ⟨pc, empty, rfl⟩
    · exact .inl (Prod.Lex.toLex_lt_toLex.mpr (.inl less))
    · have same : senderLeft { s with stop := s.stop + 1, sender := .stopTry } = senderLeft s := by
        simp [senderLeft, pc, empty]
      have help : helpful { s with stop := s.stop + 1, sender := .stopTry } = helpful s := by
        simp [helpful, Blocked, SenderPc.waits, pc, empty]
      have le : receiverLeft { s with stop := s.stop + 1, sender := .stopTry } ≤
          receiverLeft s := by
        cases polls : s.receiver with
        | loop =>
          simp only [receiverLeft, polls, Nat.succ_pos, if_true]
          split
          · exact le_rfl
          · split <;> omega
        | _ => simp [receiverLeft, polls]
      rcases le.lt_or_eq with less | equal
      · exact .inl (Prod.Lex.toLex_lt_toLex.mpr (.inr ⟨same, less⟩))
      · exact .inr ⟨by rw [rank, rank, same, equal], help⟩
    · refine .inr ⟨?_, ?_⟩
      · simp [rank, senderLeft, receiverLeft, pc, empty]
      · simp [helpful, Blocked, SenderPc.waits, pc, empty]
  · rcases receiverStep_left h.copying next with less | ⟨-, equal, pc, rfl⟩
    · exact .inl (Prod.Lex.toLex_lt_toLex.mpr
        ((receiverStep_senderLeft next).lt_or_eq.imp_right fun same => ⟨same, less⟩))
    · exact .inr ⟨by rw [rank, rank, equal]; rfl, rfl⟩

/-- When both have returned there is nothing left. -/
theorem Keeping.rank_finished (h : Keeping chunks s) (finished : Finished s) :
    rank s = toLex (0, 0) := by
  have none : s.calls = [] := by
    rcases h.copying.script with ⟨-, -, -, -, unfinished⟩ | ⟨none, -⟩
    · exact absurd finished.1 unfinished
    · exact none
  simp [rank, senderLeft, receiverLeft, none, finished.1, finished.2]

/-- When the receiver has left, the chunks are in the destination, byte for byte. -/
theorem Stored.all_delivered (h : Stored page s) (keeping : Keeping chunks s)
    (left : s.receiver = .finished) : s.delivered = chunks.map (List.map some) := by
  obtain ⟨⟨script, ⟨-, counted⟩, -⟩, closing, -⟩ := keeping
  have whole : chunks = s.published := by
    rcases script with ⟨rest, calls, -, -, -⟩ | ⟨-, whole, -⟩
    · have none := closing.noCalls (.inr left)
      exact absurd (calls.symm.trans none) FileDataTransferTask.callsFor_ne_nil
    · exact whole
  have none := closing.left left
  have taken := h.counted
  rw [left] at taken
  have all : s.delivered.length = s.published.length := by
    simp only [ReceiverPc.inHand] at taken
    omega
  rw [h.delivered, all, List.take_length, whole]

section Executed

open Fairness

variable {memory : List UInt8} {state : Nat → State} {schedule : Nat → Action}

theorem Keeping.of_reaches {ok : State → Action → Prop} (h : Keeping chunks s)
    (kept : ∀ s a, ok s a → stopAfterTaken s a) (run : Reaches page ok s s') : Keeping chunks s' :=
  run.invariant h fun _ _ _ keeping guard next => keeping.step (kept _ _ guard) next

/-- For every sequence of chunks and every execution in which both processes get their turn again
    and again, nothing fails and no stop is posted over data that is not about to be taken: both
    return from their tasks. If the sender, besides, leaves alone what the receiver has still to look
    at and no chunk is empty, the destination then holds all chunks unaltered. -/
theorem fair_transfer_finishes
    (begun : state 0 = start memory (FileDataTransferTask.callsFor chunks))
    (execution : Execution (step page) stopAfterTaken state schedule)
    (sending : Fair schedule .sender) (receiving : Fair schedule .receiver) :
    ∃ n, Finished (state n) ∧
      ((∀ chunk ∈ chunks, chunk ≠ []) →
        (∀ n, (step page (state n) (schedule n)).isSome = true →
          viewKept page (state n) (schedule n)) →
        (state n).delivered = chunks.map (List.map some)) := by
  have keeping : ∀ n, Keeping chunks (state n) := by
    intro n
    exact (begun ▸ Keeping.start memory).of_reaches (fun _ _ guard => guard) (execution.reaches n)
  have fair : ∀ s, Keeping chunks s → ¬ Finished s → Fair schedule (helpful s) := by
    intro s _ _
    unfold helpful
    split
    · exact receiving
    · exact sending
  obtain ⟨n, -, finished⟩ := execution.eventually rank helpful
    (fun s a t h _ guard next => .inr (h.step guard next)) fair (fun s h short => h.advance short)
    (fun s a t h _ guard next => h.other guard.1 next) 0 (keeping 0)
  refine ⟨n, finished, ?_⟩
  intro filled viewed
  have stored : ∀ n, Stored page (state n) := by
    intro n
    induction n with
    | zero =>
      rw [begun]
      exact .start memory _
    | succ n ih =>
      cases next : step page (state n) (schedule n) with
      | none =>
        rw [execution.idle n next]
        exact ih
      | some t =>
        rw [(execution.taken n t next).2]
        exact ih.step (keeping n).copying filled (viewed n (by rw [next]; rfl)) next
  exact (stored n).all_delivered (keeping n) finished.2

end Executed

/-- The two processes take turns. -/
def alternate (n : Nat) : Action := if n % 2 = 0 then .sender else .receiver

theorem alternate_fair : Fairness.Fair alternate .sender ∧ Fairness.Fair alternate .receiver := by
  constructor
  · intro n
    exact ⟨2 * n, by omega, if_pos (by omega)⟩
  · intro n
    exact ⟨2 * n + 1, by omega, if_neg (by omega)⟩

/-- One chunk of a byte, with the processes taking turns. -/
theorem fair_transfer_finishes_small : ∃ n,
    Finished (Fairness.follow (step 4096) alternate
      (start [] (FileDataTransferTask.callsFor [[1]])) n) ∧
    (Fairness.follow (step 4096) alternate
      (start [] (FileDataTransferTask.callsFor [[1]])) n).delivered = [[some 1]] := by
  let state := Fairness.follow (step 4096) alternate (start [] (FileDataTransferTask.callsFor [[1]]))
  have early : ∀ n < 40, stopAfterTaken (state n) (alternate n) ∧
      viewKept 4096 (state n) (alternate n) := by
    decide +kernel
  have final : ∀ a, step 4096 (state 40) a = none := by
    intro a
    cases a <;> decide +kernel
  have late : ∀ n, 40 ≤ n → step 4096 (state n) (alternate n) = none := by
    intro n later
    rw [show state n = state 40 from Fairness.follow_of_final final n later, final]
  have execution : Fairness.Execution (step 4096) stopAfterTaken state alternate := by
    apply Fairness.execution_follow
    intro n t next
    rcases Nat.lt_or_ge n 40 with soon | later
    · exact (early n soon).1
    · cases (late n later).symm.trans next
  obtain ⟨n, finished, whole⟩ := fair_transfer_finishes rfl execution alternate_fair.1
    alternate_fair.2
  refine ⟨n, finished, whole (by decide) ?_⟩
  intro n enabled
  rcases Nat.lt_or_ge n 40 with soon | later
  · exact (early n soon).2
  · rw [late n later] at enabled
    cases enabled

/-- The receiver has nothing in hand and nothing to take. -/
def Quiet (s : State) : Prop :=
  s.data = 0 ∧ (s.receiver = .loop ∨ s.receiver = .tryData ∨ s.receiver = .finished)

instance (s : State) : Decidable (Quiet s) := inferInstanceAs (Decidable (_ ∧ _))

/-- The parties take turns: the sender goes on when the receiver is done with the last chunk. -/
theorem Keeping.turn (h : Keeping chunks s) (short : ¬ Finished s) :
    ∃ a t, (stopAfterTaken s a ∧ viewKept page s a) ∧ MultiProcess.step page s a = some t ∧
      Keeping chunks t ∧ rank t < rank s := by
  by_cases quiet : Quiet s ∧ s.sender ≠ .finished
  · obtain ⟨⟨none, outside⟩, unfinished⟩ := quiet
    have conserved := h.copying.tokens.conserved
    have noToken : s.receiver.token = 0 ∧ s.receiver.unread = [] := by
      rcases outside with pc | pc | pc <;> simp [pc, ReceiverPc.token, ReceiverPc.unread]
    have free : ¬ Blocked s := by
      rintro (finished | ⟨empty, waits⟩)
      · exact unfinished finished
      · have elsewhere : s.sender.token = 0 ∧ s.final = 0 := by
          cases pc : s.sender <;> simp only [pc, SenderPc.waits] at waits <;>
            simp [State.final, SenderPc.token, pc]
        omega
    obtain ⟨t, next, less⟩ : ∃ t, MultiProcess.step page s .sender = some t ∧ rank t < rank s :=
      sender_advances free
    have guard : stopAfterTaken s .sender := ⟨.inl rfl, fun _ _ => .inl none⟩
    refine ⟨.sender, t, ⟨guard, .inl rfl, ?_⟩, next, h.step guard next, less⟩
    intro _ i unread
    rw [noToken.2] at unread
    cases unread
  · have busy : Busy s ∧ s.receiver ≠ .finished := by
      by_cases finished : s.sender = .finished
      · exact h.busy (.inl finished) short
      · have loud : ¬ Quiet s := fun quiet' => quiet ⟨quiet', finished⟩
        refine ⟨?_, fun left => loud ⟨h.closing.left left, .inr (.inr left)⟩⟩
        by_cases none : s.data = 0
        · exact .inr (.inr ⟨fun pc => loud ⟨none, .inl pc⟩, fun pc => loud ⟨none, .inr (.inl pc)⟩⟩)
        · exact .inl (Nat.pos_of_ne_zero none)
    obtain ⟨t, next, less⟩ :
        ∃ t, MultiProcess.step page s .receiver = some t ∧ rank t < rank s :=
      h.copying.receiver_advances busy.1 busy.2
    have guard : stopAfterTaken s .receiver := ⟨.inr rfl, fun sender => by cases sender⟩
    exact ⟨.receiver, t, ⟨guard, .inr rfl, fun sender => by cases sender⟩, next,
      h.step guard next, less⟩

/-- Every transfer can succeed: for all chunks that are not empty, and whatever is in the shared
    memory before, the parties can take their turns so that no stop is posted early, no view is
    touched, both return from their tasks and the destination holds all chunks unaltered. -/
theorem transfer_can_succeed (page : Nat) (memory : List UInt8) (chunks : List (List UInt8))
    (filled : ∀ chunk ∈ chunks, chunk ≠ []) :
    ∃ s, Reaches page (fun s a => stopAfterTaken s a ∧ viewKept page s a)
        (start memory (FileDataTransferTask.callsFor chunks)) s ∧ Finished s ∧
      s.delivered = chunks.map (List.map some) := by
  obtain ⟨s, run, keeping, finished⟩ := Transition.Reaches.of_descent rank
    (fun s (h : Keeping chunks s) short => @Keeping.turn page s chunks h short) _
    (Keeping.start memory)
  refine ⟨s, run, finished, ?_⟩
  have stored : Stored page s := by
    refine run.invariant_of (fun t reached => (Keeping.start memory).of_reaches
      (fun _ _ guard => guard.1) reached) (.start memory _) ?_
    intro t a u known inv guard next
    exact inv.step known.copying filled guard.2 next
  exact stored.all_delivered keeping finished.2

/-- Two chunks of different lengths. -/
theorem transfer_can_succeed_small : ∃ s,
    Reaches 4096 (fun s a => stopAfterTaken s a ∧ viewKept 4096 s a)
      (start [] (FileDataTransferTask.callsFor [[1], [2, 3]])) s ∧ Finished s ∧
    s.delivered = [[some 1], [some 2, some 3]] :=
  transfer_can_succeed 4096 [] [[1], [2, 3]] (by decide)

end FileTransfer.MultiProcess
