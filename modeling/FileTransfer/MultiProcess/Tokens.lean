import FileTransfer.MultiProcess.Protocol

/-!
# The token of the two data semaphores

Without failures one token goes round: free in the space semaphore, with the sender, posted in
the data semaphore, with the receiver. The sender's `Stop` keeps it in the end. What a chunk
is doing follows from where the token is.
-/

namespace FileTransfer.MultiProcess

/-- The token held between the wait on space and the post of data. -/
def SenderPc.token : SenderPc → Nat
  | .truncate _ => 1
  | .map _ => 1
  | .copy _ _ => 1
  | .postData _ => 1
  | _ => 0

/-- The token held between the wait on data and the post of space. -/
def ReceiverPc.token : ReceiverPc → Nat
  | .mapRead => 1
  | .postSpace _ => 1
  | _ => 0

/-- The token taken by `Stop`. -/
def State.final (s : State) : Nat :=
  if s.calls = [] ∧ (s.sender = .next ∨ s.sender = .finished) then 1 else 0

/-- The chunk of the `Write` in progress. -/
def SenderPc.chunk : SenderPc → Option (List UInt8)
  | .waitSpace chunk => some chunk
  | .truncate chunk => some chunk
  | .map chunk => some chunk
  | .copy chunk _ => some chunk
  | .postData chunk => some chunk
  | _ => none

/-- In the loop of `Stop`. -/
def SenderPc.stops (pc : SenderPc) : Prop := pc = .stopPost ∨ pc = .stopTry

/-- The sender publishes the chunks of the copy one after the other, then stops. -/
def Script (chunks : List (List UInt8)) (s : State) : Prop :=
  (∃ rest, s.calls = FileDataTransferTask.callsFor rest ∧
      chunks = s.published ++ s.sender.chunk.toList ++ rest ∧
      ¬ s.sender.stops ∧ s.sender ≠ .finished) ∨
    (s.calls = [] ∧ chunks = s.published ∧ s.sender.chunk = none)

/-- Where the token is, and which chunks have been taken. -/
structure Tokens (s : State) : Prop where
  conserved : s.space + s.data + s.sender.token + s.receiver.token + s.final = 1
  counted : s.published.length = s.taken + s.data

variable {page : Nat} {s s' : State} {chunks : List (List UInt8)}

/-- What the sender leaves alone. -/
theorem senderStep_frame (next : senderStep s = some s') :
    s'.receiver = s.receiver ∧ s'.taken = s.taken ∧ s'.delivered = s.delivered := by
  cases senderStep_move next <;> exact ⟨rfl, rfl, rfl⟩

/-- What the receiver leaves alone. -/
theorem receiverStep_frame (next : receiverStep page s = some s') :
    s'.calls = s.calls ∧ s'.sender = s.sender ∧ s'.published = s.published ∧
      s'.memory = s.memory := by
  cases receiverStep_move next <;> exact ⟨rfl, rfl, rfl, rfl⟩

theorem Script.senderStep (h : Script chunks s) (next : senderStep s = some s') :
    Script chunks s' := by
  rcases h with ⟨rest, calls, whole, running, unfinished⟩ | ⟨noCalls, whole, outside⟩
  · cases senderStep_move next <;> rename_i pc <;> simp only [pc, SenderPc.chunk] at whole
    case finish none => exact absurd (calls.symm.trans none) FileDataTransferTask.callsFor_ne_nil
    case callWrite call =>
      cases rest with
      | nil => cases call.symm.trans calls
      | cons chunk rest =>
        cases call.symm.trans calls
        exact .inl ⟨rest, rfl, by simpa [SenderPc.chunk] using whole, by simp [SenderPc.stops],
          by simp⟩
    case callStop call =>
      cases rest with
      | nil => cases call.symm.trans calls; exact .inr ⟨rfl, by simpa using whole, rfl⟩
      | cons chunk rest => cases call.symm.trans calls
    case stopPost => simp [pc, SenderPc.stops] at running
    case stopTaken => simp [pc, SenderPc.stops] at running
    case stopAgain => simp [pc, SenderPc.stops] at running
    all_goals
      exact .inl ⟨rest, calls, by simpa [SenderPc.chunk] using whole, by simp [SenderPc.stops],
        by simp⟩
  · cases senderStep_move next <;> rename_i pc <;>
      simp only [pc, SenderPc.chunk, reduceCtorEq] at outside
    case finish => exact .inr ⟨noCalls, whole, rfl⟩
    case callWrite call => cases noCalls.symm.trans call
    case callStop call => cases noCalls.symm.trans call
    all_goals exact .inr ⟨noCalls, whole, rfl⟩

theorem Script.receiverStep (h : Script chunks s) (next : receiverStep page s = some s') :
    Script chunks s' := by
  obtain ⟨calls, sender, published, -⟩ := receiverStep_frame next
  unfold Script
  rwa [calls, sender, published]

/-- While the sender is inside a `Write`, calls are still to come. -/
theorem Script.calls_ne_nil (h : Script chunks s) {chunk : List UInt8}
    (inWrite : s.sender.chunk = some chunk) : s.calls ≠ [] := by
  rcases h with ⟨rest, calls, -⟩ | ⟨-, -, outside⟩
  · rw [calls]
    exact FileDataTransferTask.callsFor_ne_nil
  · cases outside.symm.trans inWrite

/-- In the loop of `Stop` no calls are to come. -/
theorem Script.calls_eq_nil (h : Script chunks s) (stops : s.sender.stops) : s.calls = [] := by
  rcases h with ⟨-, -, -, running, -⟩ | ⟨noCalls, -⟩
  · exact absurd stops running
  · exact noCalls

theorem Tokens.senderStep (h : Tokens s) (script : Script chunks s)
    (next : senderStep s = some s') : Tokens s' := by
  obtain ⟨conserved, counted⟩ := h
  unfold State.final at conserved
  cases senderStep_move next <;> rename_i pc <;> simp only [pc, SenderPc.token] at conserved
  case callWrite call =>
    exact ⟨by simpa [State.final, SenderPc.token, call] using conserved, counted⟩
  case callStop call =>
    exact ⟨by simpa [State.final, SenderPc.token, call] using conserved, counted⟩
  case takeSpace =>
    refine ⟨?_, counted⟩
    simp only [State.final, SenderPc.token, reduceCtorEq, or_self, and_false, if_false]
      at conserved ⊢
    omega
  case postData =>
    have toCome := script.calls_ne_nil (show s.sender.chunk = some _ by rw [pc]; rfl)
    refine ⟨?_, by simp only [List.length_append, List.length_singleton]; omega⟩
    simp only [State.final, SenderPc.token, toCome, false_and, if_false] at conserved ⊢
    omega
  case stopTaken =>
    have none := script.calls_eq_nil (.inr pc)
    refine ⟨?_, counted⟩
    simp only [State.final, SenderPc.token, none, true_and, true_or, reduceCtorEq, or_self,
      if_false, if_true] at conserved ⊢
    omega
  all_goals exact ⟨by simpa [State.final, SenderPc.token] using conserved, counted⟩

theorem Tokens.receiverStep (h : Tokens s) (normal : s.receiver ≠ .stopping)
    (next : receiverStep page s = some s') : Tokens s' := by
  obtain ⟨conserved, counted⟩ := h
  unfold State.final at conserved
  cases receiverStep_move next <;> rename_i pc <;> simp only [pc, ReceiverPc.token] at conserved
  case fail => exact absurd pc normal
  all_goals
    refine ⟨?_, ?_⟩ <;> simp only [State.final, ReceiverPc.token] at * <;> omega

/-- The receiver is not in its handler. -/
def ReceiverPc.normal (pc : ReceiverPc) : Prop := pc ≠ .stopping ∧ pc ≠ .failed

/-- What holds in the runs without failures. -/
structure Copying (chunks : List (List UInt8)) (s : State) : Prop where
  script : Script chunks s
  tokens : Tokens s
  normal : s.receiver.normal

/-- The file writer does not fail; the handlers of the shared memory may. -/
def noThrow (_ : State) (a : Action) : Prop := a ≠ .receiverThrows

theorem noFault.noThrow {a : Action} (clean : noFault s a) : noThrow s a := by
  rcases clean with rfl | rfl
  · exact Action.noConfusion
  · exact Action.noConfusion

/-- A failure in the sender's handler ends the handler. -/
theorem senderFault_eq (next : senderFault s = some s') :
    ∃ chunk, (s.sender = .truncate chunk ∨ s.sender = .map chunk) ∧
      s' = { s with sender := .postData chunk } := by
  unfold senderFault at next
  split at next <;> cases next
  · exact ⟨_, Or.inl ‹_›, rfl⟩
  · exact ⟨_, Or.inr ‹_›, rfl⟩

/-- So does a failure in the receiver's. -/
theorem receiverFault_eq (next : receiverFault s = some s') :
    s.receiver = .mapRead ∧ s' = { s with receiver := .postSpace 0 } := by
  unfold receiverFault at next
  split at next <;> cases next
  exact ⟨‹_›, rfl⟩

theorem Copying.senderFault (h : Copying chunks s)
    (next : MultiProcess.senderFault s = some s') : Copying chunks s' := by
  obtain ⟨script, ⟨conserved, counted⟩, normal⟩ := h
  obtain ⟨chunk, pc, rfl⟩ := senderFault_eq next
  have inWrite : s.sender.chunk = some chunk := by rcases pc with pc | pc <;> rw [pc] <;> rfl
  have held : s.sender.token = 1 := by rcases pc with pc | pc <;> rw [pc] <;> rfl
  have toCome := script.calls_ne_nil inWrite
  refine ⟨?_, ⟨?_, counted⟩, normal⟩
  · rcases script with ⟨rest, calls, whole, -⟩ | ⟨noCalls, -⟩
    · rw [inWrite] at whole
      exact Or.inl ⟨rest, calls, whole, by simp [SenderPc.stops], by simp⟩
    · exact absurd noCalls toCome
  · rw [held] at conserved
    simpa [State.final, SenderPc.token, toCome] using conserved

theorem Copying.receiverFault (h : Copying chunks s)
    (next : MultiProcess.receiverFault s = some s') : Copying chunks s' := by
  obtain ⟨script, ⟨conserved, counted⟩, normal⟩ := h
  obtain ⟨pc, rfl⟩ := receiverFault_eq next
  rw [pc] at conserved
  exact ⟨script, ⟨conserved, counted⟩, by simp [ReceiverPc.normal]⟩

theorem Copying.step {a : Action} (h : Copying chunks s) (clean : noThrow s a)
    (next : MultiProcess.step page s a = some s') : Copying chunks s' := by
  cases a with
  | sender =>
    obtain ⟨script, tokens, normal⟩ := h
    refine ⟨script.senderStep next, tokens.senderStep script next, ?_⟩
    rw [(senderStep_frame next).1]
    exact normal
  | receiver =>
    obtain ⟨script, tokens, normal⟩ := h
    refine ⟨script.receiverStep next, tokens.receiverStep normal.1 next, ?_⟩
    cases receiverStep_move next with
    | fail pc => exact absurd pc normal.1
    | _ => simp [ReceiverPc.normal]
  | senderFault => exact h.senderFault next
  | receiverFault => exact h.receiverFault next
  | receiverThrows => exact absurd rfl clean

theorem Copying.start (memory : List UInt8) :
    Copying chunks (MultiProcess.start memory (FileDataTransferTask.callsFor chunks)) where
  script := .inl ⟨chunks, rfl, rfl, by simp [SenderPc.stops, MultiProcess.start],
    by simp [MultiProcess.start]⟩
  tokens := ⟨by simp [MultiProcess.start, SenderPc.token, ReceiverPc.token, State.final,
    FileDataTransferTask.callsFor_ne_nil], rfl⟩
  normal := by simp [ReceiverPc.normal, MultiProcess.start]

theorem Copying.of_reaches {ok : State → Action → Prop} (h : Copying chunks s)
    (clean : ∀ s a, ok s a → noThrow s a) (run : Reaches page ok s s') : Copying chunks s' :=
  run.invariant h fun _ _ _ copying guard next => copying.step (clean _ _ guard) next

/-- The receiver alone finishes a write it has begun. -/
theorem finish_write {ok : State → Action → Prop} (free : ∀ s, ok s .receiver) :
    ∀ (left : Nat) (s : State) (size : Nat) (done : List (Option UInt8)),
    s.receiver = .writing size done → size - done.length = left →
      Reaches page ok s
        { s with
          receiver := .loop
          delivered := s.delivered ++
            [done ++ (List.range' done.length left).map (byteAt page s.memory)] } := by
  intro left
  induction left with
  | zero =>
    intro s size done writing none
    refine .single (free s) ?_
    simp [MultiProcess.step, receiverStep, writing, show ¬ done.length < size by omega]
  | succ left ih =>
    intro s size done writing more
    have rest := ih { s with
      receiver := .writing size (done ++ [byteAt page s.memory done.length]) } size
      (done ++ [byteAt page s.memory done.length]) rfl
      (by simp only [List.length_append, List.length_singleton]; omega)
    refine .trans (.single (free s) ?_) (by simpa [List.range'_succ] using rest)
    simp [MultiProcess.step, receiverStep, writing, show done.length < size by omega]

/-- The sender alone finishes a copy it has begun. -/
theorem finish_copy {ok : State → Action → Prop} (free : ∀ s, ok s .sender) :
    ∀ (left : Nat) (s : State) (chunk : List UInt8) (i : Nat), s.sender = .copy chunk i →
      chunk.length - i = left →
      ∃ memory, Reaches page ok s { s with memory, sender := .postData chunk } := by
  intro left
  induction left with
  | zero =>
    intro s chunk i copying none
    have all : chunk[i]? = Option.none := List.getElem?_eq_none (by omega)
    refine ⟨s.memory, .single (free s) ?_⟩
    simp only [MultiProcess.step, senderStep, copying, all]
  | succ left ih =>
    intro s chunk i copying more
    have within : i < chunk.length := by omega
    have byte : chunk[i]? = some chunk[i] := List.getElem?_eq_getElem within
    obtain ⟨memory, rest⟩ := ih
      { s with memory := s.memory.set i chunk[i], sender := .copy chunk (i + 1) } chunk (i + 1)
      rfl (by omega)
    refine ⟨memory, .head (free s) ?_ rest⟩
    simp only [MultiProcess.step, senderStep, copying, byte]

/-- The sender alone publishes the chunk it has the token for. -/
theorem finish_publish {ok : State → Action → Prop} (free : ∀ s, ok s .sender)
    {chunk : List UInt8} (inWrite : s.sender.chunk = some chunk) (held : s.sender.token = 1) :
    ∃ memory, Reaches page ok s
      { s with
        memory
        data := s.data + 1
        sender := .next
        published := s.published ++ [chunk] } := by
  have publish : ∀ t : State, t.sender = .postData chunk → Reaches page ok t
      { t with data := t.data + 1, sender := .next, published := t.published ++ [chunk] } := by
    intro t atPost
    refine .single (free t) ?_
    simp only [MultiProcess.step, senderStep, atPost]
  have fromMap : ∀ t : State, t.sender = .map chunk → ∃ memory, Reaches page ok t
      { t with memory, sender := .postData chunk } := by
    intro t atMap
    by_cases empty : t.memory = []
    · refine ⟨t.memory, .single (free t) ?_⟩
      simp only [MultiProcess.step, senderStep, atMap, if_pos empty]
    · obtain ⟨memory, rest⟩ := finish_copy free _ { t with sender := .copy chunk 0 } chunk 0 rfl
        rfl
      refine ⟨memory, .head (free t) ?_ rest⟩
      simp only [MultiProcess.step, senderStep, atMap, if_neg empty]
  cases pc : s.sender <;> simp only [pc, SenderPc.token, SenderPc.chunk, Option.some.injEq,
    reduceCtorEq] at held inWrite <;> subst inWrite
  case truncate written =>
    obtain ⟨memory, rest⟩ := fromMap
      { s with memory := MultiProcess.truncate s.memory written.length, sender := .map written }
      rfl
    refine ⟨memory, .head (free s) ?_ (rest.trans (publish _ rfl))⟩
    simp only [MultiProcess.step, MultiProcess.senderStep, pc]
  case map =>
    obtain ⟨memory, rest⟩ := fromMap s pc
    exact ⟨memory, rest.trans (publish _ rfl)⟩
  case copy written i =>
    obtain ⟨memory, rest⟩ := finish_copy free _ s written i pc rfl
    exact ⟨memory, rest.trans (publish _ rfl)⟩
  case postData => exact ⟨s.memory, publish s pc⟩

end FileTransfer.MultiProcess
