import FileTransfer.MultiProcess.Delivery

/-!
# Failures of the shared memory

`SharedWriteDataHandler::Write` and `SharedReadDataHandler::Read` catch their own exceptions, and
the data accesses round them post their semaphores all the same. So a chunk that could not be
stored is announced, and one that could not be read is given back as taken.
-/

namespace FileTransfer.MultiProcess

/-- A write to the memory and a read of it, with what is read passed on, take turns. -/
def alternating (s : State) (a : Action) : Prop :=
  noThrow s a ∧ (a = .sender ∨ a = .senderFault → s.sender.token = 1 → s.receiver.unread = [])

/-- No failure in a read; a failure in a write finds the chunk in the memory already. -/
def harmless (s : State) (a : Action) : Prop :=
  a ≠ .receiverFault ∧ (a = .senderFault → s.sender.chunk = some s.memory)

instance (s : State) (a : Action) : Decidable (alternating s a) :=
  inferInstanceAs (Decidable (¬ (_ = _) ∧ (_ → _ → _)))

instance (s : State) (a : Action) : Decidable (harmless s a) :=
  inferInstanceAs (Decidable (¬ (_ = _) ∧ (_ → _)))

/-- Every chunk whose read has ended was delivered, once and in order. -/
def DeliveredOnce (chunks : List (List UInt8)) (s : State) : Prop :=
  s.delivered = (chunks.take (s.taken - s.receiver.inHand)).map (List.map some)

instance (chunks : List (List UInt8)) (s : State) : Decidable (DeliveredOnce chunks s) :=
  inferInstanceAs (Decidable (_ = _))

/-- No chunk lost, repeated or altered: data is about to be posted only over a stored chunk, and
    space only for a chunk that was read. -/
structure NothingLost (chunks : List (List UInt8)) (s : State) : Prop where
  delivered : DeliveredOnce chunks s
  stored : ∀ chunk, s.sender = .postData chunk → s.memory = chunk
  read : s.receiver ≠ .postSpace 0

/-- A task has ended with an error: `BufferTransferTask::Run` in its handler. What goes wrong in
    `SharedWriteDataHandler::Write` never reaches the handler of `FileDataTransferTask::Run`. -/
def endedWithError (s : State) : Prop := s.receiver = .failed

variable {page : Nat} {s s' : State} {chunks : List (List UInt8)}

/-- In turns, the sender changes no byte that is still to be looked at. -/
theorem alternating.viewKept (turns : alternating s .sender) (copying : Copying chunks s) :
    viewKept page s .sender := by
  refine ⟨Or.inl rfl, fun _ i unread => ?_⟩
  by_cases held : s.sender.token = 1
  · rw [turns.2 (Or.inl rfl) held] at unread
    cases unread
  · have conserved := copying.tokens.conserved
    rw [memoryAfter_eq (by omega)]

theorem Stored.senderFault (h : Stored page s) (already : s.sender.chunk = some s.memory)
    (next : MultiProcess.senderFault s = some s') : Stored page s' := by
  obtain ⟨chunk, pc, rfl⟩ := senderFault_eq next
  have inMemory : s.memory = chunk := by
    rcases pc with pc | pc <;>
      · rw [pc] at already
        exact (Option.some.inj already).symm
  exact ⟨inMemory, h.posted, h.receiver, h.counted, h.delivered⟩

/-- Where the chunks are, as long as the failures are harmless. -/
theorem Stored.step_of_harmless {a : Action} (h : Stored page s) (copying : Copying chunks s)
    (filled : ∀ chunk ∈ chunks, chunk ≠ []) (turns : alternating s a) (safe : harmless s a)
    (next : MultiProcess.step page s a = some s') : Stored page s' := by
  cases a with
  | sender => exact h.step copying filled (turns.viewKept copying) next
  | senderFault => exact h.senderFault (safe.2 rfl) next
  | receiver =>
    refine h.step copying filled ⟨Or.inr rfl, ?_⟩ next
    rintro ⟨⟩
  | receiverFault => exact absurd rfl safe.1
  | receiverThrows => exact absurd rfl turns.1

theorem Script.published_filled (h : Script chunks s) (filled : ∀ chunk ∈ chunks, chunk ≠ []) :
    ∀ chunk ∈ s.published, chunk ≠ [] := by
  intro chunk member
  obtain ⟨rest, whole⟩ := h.published_prefix
  apply filled
  rw [← whole]
  exact List.mem_append_left _ member

theorem Stored.nothingLost (h : Stored page s) (copying : Copying chunks s)
    (filled : ∀ chunk ∈ chunks, chunk ≠ []) : NothingLost chunks s := by
  refine ⟨?_, ?_, ?_⟩
  · obtain ⟨rest, whole⟩ := copying.script.published_prefix
    have counted := h.counted
    have published := copying.tokens.counted
    have there : s.delivered.length ≤ s.published.length := by omega
    rw [DeliveredOnce, show s.taken - s.receiver.inHand = s.delivered.length by omega, ← whole,
      List.take_append_of_le_length there, ← h.delivered]
  · intro chunk pc
    have sender := h.sender
    rw [pc] at sender
    exact sender
  · intro pc
    have holding := h.receiver
    rw [pc] at holding
    obtain ⟨chunk, is, sized, -⟩ := holding
    have empty : chunk = [] := List.length_eq_zero_iff.mp sized.symm
    exact copying.script.published_filled filled chunk (List.mem_of_getElem? is) empty

/-- The receiver is told to stop only when all chunks have been announced. -/
def StopsLast (s : State) : Prop := 0 < s.stop ∨ s.receiver = .finished → s.calls = []

theorem StopsLast.step {a : Action} (h : StopsLast s) (copying : Copying chunks s)
    (next : MultiProcess.step page s a = some s') : StopsLast s' := by
  cases a with
  | sender =>
    cases senderStep_move next with
    | callWrite call =>
      intro stopped
      cases (h stopped).symm.trans call
    | callStop call =>
      intro stopped
      cases (h stopped).symm.trans call
    | stopPost pc => exact fun _ => copying.script.calls_eq_nil (Or.inl pc)
    | _ => exact h
  | senderFault =>
    obtain ⟨chunk, -, rfl⟩ := senderFault_eq next
    exact h
  | receiver =>
    cases receiverStep_move next with
    | leave post => exact fun _ => h (Or.inl post)
    | _ =>
      intro stopped
      simp only [reduceCtorEq, or_false] at stopped
      exact h (Or.inl stopped)
  | receiverFault =>
    obtain ⟨-, rfl⟩ := receiverFault_eq next
    intro stopped
    simp only [reduceCtorEq, or_false] at stopped
    exact h (Or.inl stopped)
  | receiverThrows =>
    simp only [MultiProcess.step, receiverThrows] at next
    split at next <;> cases next
    intro stopped
    simp only [reduceCtorEq, or_false] at stopped
    exact h (Or.inl stopped)

theorem map_byteAt (memory : List UInt8) :
    (List.range' 0 memory.length).map (byteAt page memory) = memory.map some := by
  apply List.ext_getElem
  · simp
  · intro i within within'
    have here : i < memory.length := by simpa using within'
    rw [List.getElem_map, List.getElem_range', List.getElem_map, Nat.zero_add, Nat.one_mul,
      byteAt_of_lt here, List.getElem?_eq_getElem here]

/-- The receiver alone takes announced data and delivers what is in the memory, if anything. -/
theorem deliver_memory {ok : State → Action → Prop} (free : ∀ s, ok s .receiver)
    (atTry : s.receiver = .tryData) (full : 0 < s.data) :
    Reaches page ok s
      { s with
        data := s.data - 1
        taken := s.taken + 1
        space := s.space + 1
        receiver := .loop
        delivered := s.delivered ++ if s.memory = [] then [] else [s.memory.map some] } := by
  have take : step page s .receiver =
      some { s with data := s.data - 1, taken := s.taken + 1, receiver := .mapRead } := by
    simp only [step, receiverStep, atTry, if_pos full]
  refine .head (free _) take (.head (free _) (a := .receiver) rfl ?_)
  by_cases empty : s.memory = []
  · refine .single (free _) (a := .receiver) ?_
    simp [step, receiverStep, empty]
  · have filled : s.memory.length ≠ 0 := fun none => empty (List.length_eq_zero_iff.mp none)
    refine .head (free _) (a := .receiver) (t := { s with
      data := s.data - 1
      taken := s.taken + 1
      space := s.space + 1
      receiver := .writing s.memory.length [] }) ?_ ?_
    · simp [step, receiverStep, filled]
    · have finish := @finish_write page ok free s.memory.length { s with
        data := s.data - 1
        taken := s.taken + 1
        space := s.space + 1
        receiver := .writing s.memory.length [] } s.memory.length [] rfl rfl
      simpa only [List.nil_append, List.length_nil, map_byteAt, if_neg empty] using finish

/-- A chunk taken and not delivered is missed. -/
theorem not_deliveredOnce_of_length (within : s.taken ≤ chunks.length)
    (inLoop : s.receiver = .loop) (short : s.delivered.length < s.taken) :
    ¬ DeliveredOnce chunks s := by
  intro once
  have lengths := congrArg List.length once
  rw [List.length_map, List.length_take, inLoop] at lengths
  simp only [ReceiverPc.inHand] at lengths
  omega

/-- The last chunk taken is delivered, or missed. -/
theorem not_deliveredOnce_of_last {n : Nat} {before last : List (List (Option UInt8))}
    {chunk : List UInt8} (inLoop : s.receiver = .loop) (taken : s.taken = n + 1)
    (delivered : s.delivered = before ++ last) (counted : before.length = n)
    (is : chunks[n]? = some chunk) (wrong : last ≠ [chunk.map some]) :
    ¬ DeliveredOnce chunks s := by
  intro once
  have within : n < chunks.length := (List.getElem?_eq_some_iff.mp is).1
  have whole : before ++ last = (chunks.take n).map (List.map some) ++ [chunk.map some] := by
    rw [← delivered, once, inLoop, taken]
    simp only [ReceiverPc.inHand, Nat.sub_zero, List.take_add_one, is, Option.toList_some,
      List.map_append, List.map_cons, List.map_nil]
  have sized : before.length = ((chunks.take n).map (List.map some)).length := by
    rw [List.length_map, List.length_take, Nat.min_eq_left (Nat.le_of_lt within), counted]
  exact wrong (List.append_inj whole sized).2

section Failures

variable {memory : List UInt8} {ok : State → Action → Prop}

/-- What holds in every run in turns whose failures are harmless. -/
structure InTurns (page : Nat) (chunks : List (List UInt8)) (s : State) : Prop where
  copying : Copying chunks s
  stored : Stored page s
  stopsLast : StopsLast s

theorem InTurns.of_reaches (filled : ∀ chunk ∈ chunks, chunk ≠ [])
    (run : Reaches page (fun s a => alternating s a ∧ harmless s a)
      (start memory (FileDataTransferTask.callsFor chunks)) s) : InTurns page chunks s := by
  refine run.invariant (I := InTurns page chunks) ⟨.start memory, .start memory _, ?_⟩ ?_
  · rintro (⟨⟨⟩⟩ | ⟨⟨⟩⟩)
  · rintro t a u ⟨copying, stored, stopsLast⟩ ⟨turns, safe⟩ next
    exact ⟨copying.step turns.1 next, stored.step_of_harmless copying filled turns safe next,
      stopsLast.step copying next⟩

/-- A failed read skips its chunk. -/
theorem skipped_of_receiverFault (turns : InTurns page chunks s)
    (next : receiverFault s = some s') :
    ∃ t, Reaches page alternating s' t ∧ t.receiver = .loop ∧ ¬ DeliveredOnce chunks t := by
  obtain ⟨pc, rfl⟩ := receiverFault_eq next
  obtain ⟨rest, whole⟩ := turns.copying.script.published_prefix
  have published := turns.copying.tokens.counted
  have counted := turns.stored.counted
  rw [pc] at counted
  simp only [ReceiverPc.inHand] at counted
  refine ⟨{ s with space := s.space + 1, receiver := .loop },
    .single (a := .receiver) ⟨by simp [noThrow], by rintro (⟨⟨⟩⟩ | ⟨⟨⟩⟩)⟩ rfl, rfl, ?_⟩
  apply not_deliveredOnce_of_length
  · rw [← whole, List.length_append]
    show s.taken ≤ _
    omega
  · rfl
  · show s.delivered.length < s.taken
    omega

/-- The receiver alone ends what it is doing and comes to look for data. -/
theorem reaches_tryData (free : ∀ s, ok s .receiver) (normal : s.receiver.normal)
    (outside : s.receiver.token = 0) (seen : s.receiver.unread = [])
    (going : s.stop = 0 ∧ s.receiver ≠ .finished) :
    ∃ delivered, Reaches page ok s { s with receiver := .tryData, delivered } ∧
      delivered.length = s.delivered.length + s.receiver.inHand := by
  have poll : ∀ u : State, u.receiver = .loop → u.stop = 0 →
      Reaches page ok u { u with receiver := .tryData } := by
    intro u atLoop unposted
    refine .single (free u) (a := .receiver) ?_
    simp [step, receiverStep, atLoop, unposted]
  cases pc : s.receiver with
  | loop => exact ⟨s.delivered, poll s pc going.1, rfl⟩
  | tryData =>
    refine ⟨s.delivered, ?_, rfl⟩
    rw [← pc]
    exact .refl
  | mapRead => simp only [pc, ReceiverPc.token, Nat.one_ne_zero] at outside
  | postSpace size => simp only [pc, ReceiverPc.token, Nat.one_ne_zero] at outside
  | writing size done =>
    rw [pc] at seen
    have all : ¬ done.length < size := by
      intro more
      have lengths := congrArg List.length seen
      simp only [ReceiverPc.unread, List.length_range', List.length_nil] at lengths
      omega
    refine ⟨s.delivered ++ [done], .head (free s) (a := .receiver)
      (t := { s with receiver := .loop, delivered := s.delivered ++ [done] }) ?_
      (poll { s with receiver := .loop, delivered := s.delivered ++ [done] } rfl going.1), ?_⟩
    · simp only [step, receiverStep, pc, if_neg all]
    · rw [List.length_append]
      rfl
  | stopping => exact absurd pc normal.1
  | finished => exact absurd pc going.2
  | failed => exact absurd pc normal.2

/-- After a failed write the receiver delivers what was in the memory instead of the chunk. -/
theorem wrong_of_senderFault (turns : InTurns page chunks s) (inTurn : alternating s .senderFault)
    (missing : s.sender.chunk ≠ some s.memory) (next : senderFault s = some s') :
    ∃ t, Reaches page alternating s' t ∧ t.receiver = .loop ∧ ¬ DeliveredOnce chunks t := by
  obtain ⟨chunk, pc, rfl⟩ := senderFault_eq next
  have inWrite : s.sender.chunk = some chunk := by rcases pc with pc | pc <;> rw [pc] <;> rfl
  have held : s.sender.token = 1 := by rcases pc with pc | pc <;> rw [pc] <;> rfl
  have seen := inTurn.2 (Or.inr rfl) held
  have free : ∀ u, alternating u .receiver :=
    fun u => ⟨by simp [noThrow], by rintro (⟨⟨⟩⟩ | ⟨⟨⟩⟩)⟩
  obtain ⟨copying, stored, stopsLast⟩ := turns
  have conserved := copying.tokens.conserved
  have published := copying.tokens.counted
  have counted := stored.counted
  have toCome := copying.script.calls_ne_nil inWrite
  have going : s.stop = 0 ∧ s.receiver ≠ .finished := by
    refine ⟨Nat.eq_zero_of_not_pos fun posted => toCome (stopsLast (Or.inl posted)), ?_⟩
    exact fun gone => toCome (stopsLast (Or.inr gone))
  -- The chunk is announced, and becomes the next to be taken.
  have announce : step page { s with sender := .postData chunk } .sender = some { s with
      data := s.data + 1, sender := .next, published := s.published ++ [chunk] } := rfl
  have is : chunks[s.taken]? = some chunk := by
    rcases copying.script with ⟨rest, -, whole, -⟩ | ⟨noCalls, -⟩
    · rw [whole, inWrite, show s.taken = s.published.length by omega]
      simp
    · exact absurd noCalls toCome
  obtain ⟨delivered, look, lengths⟩ := @reaches_tryData page
    { s with data := s.data + 1, sender := .next, published := s.published ++ [chunk] }
    alternating free copying.normal (show s.receiver.token = 0 by omega) seen going
  have deliver := @deliver_memory page
    { s with
      data := s.data + 1
      sender := .next
      published := s.published ++ [chunk]
      receiver := .tryData
      delivered } alternating free rfl (Nat.succ_pos _)
  refine ⟨_, .head ⟨by simp [noThrow], fun _ _ => seen⟩ announce (look.trans deliver), rfl, ?_⟩
  refine not_deliveredOnce_of_last rfl rfl rfl (lengths.trans counted.symm) is ?_
  split
  · simp
  · intro same
    have same := List.map_injective_iff.mpr (fun _ _ => Option.some.inj)
      (List.cons.inj same).1
    exact missing (inWrite.trans (congrArg some same.symm))

/-- While the handlers take turns and every failure is harmless, each chunk is delivered once and
    in order; and after the first failure that is not there is always a run in which a chunk is
    lost, repeated or altered, and no task ends with an error. -/
theorem nothingLost_of_harmless (page : Nat) (memory : List UInt8)
    (filled : ∀ chunk ∈ chunks, chunk ≠ []) :
    (∀ s, Reaches page (fun s a => alternating s a ∧ harmless s a)
        (start memory (FileDataTransferTask.callsFor chunks)) s →
          NothingLost chunks s ∨ endedWithError s) ∧
      ∀ s a s', Reaches page (fun s a => alternating s a ∧ harmless s a)
          (start memory (FileDataTransferTask.callsFor chunks)) s →
        alternating s a → ¬ harmless s a → step page s a = some s' →
          ∃ t, Reaches page alternating s' t ∧ ¬ (NothingLost chunks t ∨ endedWithError t) := by
  constructor
  · intro s run
    have turns := InTurns.of_reaches filled run
    exact Or.inl (turns.stored.nothingLost turns.copying filled)
  · intro s a s' run inTurn harms next
    have turns := InTurns.of_reaches filled run
    have missed : ∃ t, Reaches page alternating s' t ∧ t.receiver = .loop ∧
        ¬ DeliveredOnce chunks t := by
      rcases not_and_or.mp harms with reads | writes
      · obtain rfl : a = .receiverFault := not_not.mp reads
        exact skipped_of_receiverFault turns next
      · obtain ⟨rfl, missing⟩ : a = .senderFault ∧ s.sender.chunk ≠ some s.memory := by
          simpa using writes
        exact wrong_of_senderFault turns inTurn missing next
    obtain ⟨t, rest, inLoop, missed⟩ := missed
    refine ⟨t, rest, ?_⟩
    rintro (kept | failed)
    · exact missed kept.delivered
    · cases inLoop.symm.trans failed

end Failures

/-- The same chunk twice: the second write may fail. -/
theorem nothingLost_of_harmless_small : ∃ s,
    Reaches 4096 (fun s a => alternating s a ∧ harmless s a)
      (start [] (FileDataTransferTask.callsFor [[1], [1]])) s ∧
      s.delivered = [[some 1], [some 1]] ∧ (NothingLost [[1], [1]] s ∨ endedWithError s) := by
  have run : Reaches 4096 (fun s a => alternating s a ∧ harmless s a)
      (start [] (FileDataTransferTask.callsFor [[1], [1]])) _ :=
    .of_checked_run (.replicate 7 .sender ++ .replicate 6 .receiver ++
      [.sender, .sender, .senderFault, .sender] ++ .replicate 7 .receiver) rfl
  exact ⟨_, run, rfl, (nothingLost_of_harmless 4096 [] (by decide)).1 _ run⟩

/-- The second write fails, and the first chunk is delivered again. -/
theorem failed_write_repeats_chunk : ¬ ∀ page memory chunks s,
    (∀ chunk ∈ chunks, chunk ≠ []) →
    Reaches page alternating (start memory (FileDataTransferTask.callsFor chunks)) s →
      NothingLost chunks s ∨ endedWithError s := by
  intro always
  have run : Reaches 4096 alternating (start [] (FileDataTransferTask.callsFor [[1], [2]])) _ :=
    .of_checked_run (.replicate 7 .sender ++ .replicate 6 .receiver ++
      [.sender, .sender, .senderFault, .sender] ++ .replicate 7 .receiver) rfl
  rcases always 4096 [] [[1], [2]] _ (by decide) run with kept | failed
  · exact absurd kept.delivered (by decide)
  · cases failed

end FileTransfer.MultiProcess
