import FileTransfer.MultiProcess.Tokens

/-!
# A view of memory that changes

`SharedReadDataAccess::Read` gives the space token back before its caller has looked at the
view it returns, so the sender may truncate and overwrite the memory under it. The chunks
arrive unaltered exactly when the sender leaves alone what the receiver has still to look at.
-/

namespace FileTransfer.MultiProcess

/-- The shared memory after the next step of the sender. -/
def memoryAfter (s : State) : List UInt8 :=
  match s.sender with
  | .truncate chunk => truncate s.memory chunk.length
  | .copy chunk i =>
    match chunk[i]? with
    | some byte => s.memory.set i byte
    | none => s.memory
  | _ => s.memory

/-- The offsets of the view that are still to be looked at. -/
def ReceiverPc.unread : ReceiverPc → List Nat
  | .postSpace size => List.range' 0 size
  | .writing size done => List.range' done.length (size - done.length)
  | _ => []

/-- What the receiver has appended to the destination is the first chunks, byte for byte. -/
def Unaltered (chunks : List (List UInt8)) (s : State) : Prop :=
  s.delivered <+: chunks.map (List.map some)

instance (chunks : List (List UInt8)) (s : State) : Decidable (Unaltered chunks s) :=
  inferInstanceAs (Decidable (_ <+: _))

/-- No failure, and the sender's step leaves the bytes that the receiver has still to look at
    as they are. -/
def viewKept (page : Nat) (s : State) (a : Action) : Prop :=
  noFault s a ∧ (a = .sender →
    ∀ i ∈ s.receiver.unread, byteAt page (memoryAfter s) i = byteAt page s.memory i)

instance (page : Nat) (s : State) (a : Action) : Decidable (viewKept page s a) :=
  inferInstanceAs (Decidable (_ ∧ _))

/-- How far the chunk has got into the memory. -/
def SenderPc.stored (memory : List UInt8) : SenderPc → Prop
  | .map chunk => memory.length = chunk.length
  | .copy chunk i => memory.length = chunk.length ∧ memory.take i = chunk.take i
  | .postData chunk => memory = chunk
  | _ => True

/-- The view and what has been taken from it belong to this chunk. -/
def ReceiverPc.holds (page : Nat) (memory : List UInt8) (current : Option (List UInt8)) :
    ReceiverPc → Prop
  | .postSpace size => ∃ chunk, current = some chunk ∧ size = chunk.length ∧
      ∀ i ∈ List.range' 0 size, byteAt page memory i = chunk[i]?
  | .writing size done => ∃ chunk, current = some chunk ∧ size = chunk.length ∧
      done.length ≤ size ∧ done = (chunk.take done.length).map some ∧
      ∀ i ∈ List.range' done.length (size - done.length), byteAt page memory i = chunk[i]?
  | _ => True

/-- A chunk taken and not yet delivered. -/
def ReceiverPc.inHand : ReceiverPc → Nat
  | .mapRead => 1
  | .postSpace _ => 1
  | .writing _ _ => 1
  | _ => 0

/-- Where the chunks are: in the memory, in the view, and in the destination. -/
structure Stored (page : Nat) (s : State) : Prop where
  sender : s.sender.stored s.memory
  posted : s.data = 1 ∨ s.receiver = .mapRead → s.published.getLast? = some s.memory
  receiver : s.receiver.holds page s.memory s.published[s.delivered.length]?
  counted : s.taken = s.delivered.length + s.receiver.inHand
  delivered : s.delivered = (s.published.take s.delivered.length).map (List.map some)

variable {page : Nat} {s s' : State} {chunks : List (List UInt8)}

@[simp] theorem length_truncate (memory : List UInt8) (size : Nat) :
    (truncate memory size).length = size := by
  simp only [truncate, List.length_append, List.length_take, List.length_replicate]
  omega

theorem take_set_succ {memory : List UInt8} {i : Nat} {byte : UInt8} (within : i < memory.length) :
    (memory.set i byte).take (i + 1) = memory.take i ++ [byte] := by
  rw [List.set_eq_take_append_cons_drop, if_pos within, List.take_append]
  simp [List.take_take, Nat.min_eq_left (Nat.le_of_lt within)]

theorem byteAt_of_lt {memory : List UInt8} {i : Nat} (within : i < memory.length) :
    byteAt page memory i = memory[i]? := if_pos within

theorem senderStep_memory (next : senderStep s = some s') : s'.memory = memoryAfter s := by
  unfold memoryAfter
  cases senderStep_move next <;> rename_i pc <;> simp only [pc]
  case copy more => simp only [more]
  case copied all => simp only [all]

/-- Only a sender that holds the token changes the memory. -/
theorem memoryAfter_eq (outside : s.sender.token = 0) : memoryAfter s = s.memory := by
  unfold memoryAfter
  split <;> simp_all [SenderPc.token]

/-- The published chunks only grow, and by the chunk that is in the memory. -/
theorem senderStep_published (next : senderStep s = some s') :
    (s'.published = s.published ∧ s'.data = s.data) ∨
      ∃ chunk, s.sender = .postData chunk ∧ s'.published = s.published ++ [chunk] ∧
        s'.memory = s.memory := by
  cases senderStep_move next with
  | postData pc => exact .inr ⟨_, pc, rfl, rfl⟩
  | _ => exact .inl ⟨rfl, rfl⟩

theorem SenderPc.stored_step (h : s.sender.stored s.memory)
    (filled : ∀ chunk, s.sender.chunk = some chunk → chunk ≠ [])
    (next : senderStep s = some s') : s'.sender.stored s'.memory := by
  cases senderStep_move next <;> rename_i pc <;>
    simp only [pc, stored, SenderPc.chunk] at h filled
  case truncate => simp [stored]
  case mapEmpty chunk empty =>
    have none : chunk = [] := List.length_eq_zero_iff.mp (by rw [← h, empty]; rfl)
    exact absurd none (filled chunk rfl)
  case map => exact ⟨h, by simp⟩
  case copy chunk i byte more =>
    obtain ⟨sized, same⟩ := h
    obtain ⟨within, -⟩ := List.getElem?_eq_some_iff.mp more
    refine ⟨by simpa using sized, ?_⟩
    rw [take_set_succ (sized ▸ within), List.take_add_one, more, same]
    rfl
  case copied all =>
    obtain ⟨sized, same⟩ := h
    have all := List.getElem?_eq_none_iff.mp all
    rwa [List.take_of_length_le all, List.take_of_length_le (by omega)] at same
  all_goals trivial

/-- A view is not touched by what happens to the memory outside its unread part, nor by
    chunks published later. -/
theorem ReceiverPc.holds_mono {pc : ReceiverPc} {memory memory' : List UInt8}
    {current current' : Option (List UInt8)} (h : pc.holds page memory current)
    (kept : ∀ i ∈ pc.unread, byteAt page memory' i = byteAt page memory i)
    (later : ∀ chunk, current = some chunk → current' = some chunk) :
    pc.holds page memory' current' := by
  cases pc with
  | postSpace size =>
    obtain ⟨chunk, is, sized, unread⟩ := h
    exact ⟨chunk, later chunk is, sized, fun i within => (kept i within).trans (unread i within)⟩
  | writing size done =>
    obtain ⟨chunk, is, sized, le, taken, unread⟩ := h
    exact ⟨chunk, later chunk is, sized, le, taken,
      fun i within => (kept i within).trans (unread i within)⟩
  | _ => trivial

theorem Stored.senderStep (h : Stored page s) (copying : Copying chunks s)
    (filled : ∀ chunk ∈ chunks, chunk ≠ [])
    (kept : ∀ i ∈ s.receiver.unread, byteAt page (memoryAfter s) i = byteAt page s.memory i)
    (next : senderStep s = some s') : Stored page s' := by
  obtain ⟨sender, posted, receiver, counted, delivered⟩ := h
  obtain ⟨script, ⟨conserved, total⟩, -⟩ := copying
  obtain ⟨sameReceiver, sameTaken, sameDelivered⟩ := senderStep_frame next
  have sender' : s'.sender.stored s'.memory := by
    apply SenderPc.stored_step sender _ next
    intro chunk is
    rcases script with ⟨rest, -, whole, -⟩ | ⟨-, -, none⟩
    · exact filled chunk (by simp [whole, is])
    · simp [is] at none
  rcases senderStep_published next with ⟨samePublished, sameData⟩ | ⟨chunk, pc, grown, sameMemory⟩
  · refine ⟨sender', ?_, ?_, by rw [sameTaken, sameDelivered, sameReceiver, counted],
      by rw [sameDelivered, samePublished, ← delivered]⟩
    · -- The token is in the data semaphore or with the receiver, so not with the sender.
      intro full
      rw [sameData, sameReceiver] at full
      have outside : s.sender.token = 0 := by
        rcases full with full | full
        · omega
        · simp only [full, ReceiverPc.token] at conserved; omega
      rw [samePublished, senderStep_memory next, memoryAfter_eq outside]
      exact posted full
    · rw [sameReceiver, sameDelivered, samePublished, senderStep_memory next]
      apply ReceiverPc.holds_mono receiver kept
      intro chunk is
      exact is
  · have within : s.delivered.length ≤ s.published.length := by omega
    refine ⟨sender', ?_, ?_, by rw [sameTaken, sameDelivered, sameReceiver, counted], ?_⟩
    · intro _
      rw [pc] at sender
      rw [grown, sameMemory, List.getLast?_append_of_ne_nil _ (by simp),
        show s.memory = chunk from sender]
      rfl
    · rw [sameReceiver, sameDelivered, grown, sameMemory]
      apply ReceiverPc.holds_mono receiver (fun _ _ => rfl)
      intro chunk' is
      rw [List.getElem?_append_left (List.getElem?_eq_some_iff.mp is).1]
      exact is
    · rw [sameDelivered, grown, List.take_append_of_le_length within, ← delivered]

theorem Stored.receiverStep (h : Stored page s) (copying : Copying chunks s)
    (filled : ∀ chunk ∈ chunks, chunk ≠ []) (next : receiverStep page s = some s') :
    Stored page s' := by
  obtain ⟨sender, posted, receiver, counted, delivered⟩ := h
  obtain ⟨script, ⟨conserved, total⟩, normal⟩ := copying
  have members : ∀ chunk ∈ s.published, chunk ≠ [] := by
    intro chunk member
    rcases script with ⟨rest, -, whole, -⟩ | ⟨-, whole, -⟩ <;>
      exact filled chunk (by simp [whole, member])
  cases receiverStep_move next <;> rename_i pc <;>
    simp only [pc, reduceCtorEq, or_false, ReceiverPc.holds, ReceiverPc.inHand,
      ReceiverPc.token] at posted receiver counted conserved
  case takeData full =>
    exact ⟨sender, fun _ => posted (by omega), trivial, by simp [ReceiverPc.inHand, counted],
      delivered⟩
  case map =>
    have last := posted (.inr trivial)
    rw [List.getLast?_eq_getElem?, show s.published.length - 1 = s.delivered.length by omega]
      at last
    refine ⟨sender, ?_, ⟨s.memory, last, rfl, ?_⟩, counted, delivered⟩
    · intro _
      exact posted (.inr trivial)
    · intro i within
      apply byteAt_of_lt
      simpa using List.mem_range'_1.mp within
  case returnEmpty size empty =>
    obtain ⟨chunk, is, sized, unread⟩ := receiver
    have none : chunk = [] := List.length_eq_zero_iff.mp (sized.symm.trans empty)
    exact absurd none (members chunk (List.mem_of_getElem? is))
  case returnView =>
    obtain ⟨chunk, is, sized, unread⟩ := receiver
    exact ⟨sender, by simpa using posted, ⟨chunk, is, sized, by simp, by simp, unread⟩, counted,
      delivered⟩
  case write size done more =>
    obtain ⟨chunk, is, sized, le, taken, unread⟩ := receiver
    have byte : byteAt page s.memory done.length = some chunk[done.length] := by
      have here : done.length ∈ List.range' done.length (size - done.length) :=
        List.mem_range'_1.mpr ⟨Nat.le_refl _, by omega⟩
      rw [unread _ here, List.getElem?_eq_getElem]
    refine ⟨sender, by simpa using posted, ⟨chunk, is, sized, by simp; omega, ?_, ?_⟩, counted,
      delivered⟩
    · rw [byte, List.length_append, List.length_singleton, List.take_add_one,
        List.getElem?_eq_getElem (by omega), Option.toList_some, List.map_append, ← taken]
      rfl
    · intro i within
      have bounds := List.mem_range'_1.mp within
      simp only [List.length_append, List.length_singleton] at bounds
      exact unread i (List.mem_range'_1.mpr (by omega))
  case written size done all =>
    obtain ⟨chunk, is, sized, le, taken, unread⟩ := receiver
    have full : done.length = chunk.length := by omega
    rw [full, List.take_length] at taken
    refine ⟨sender, by simpa using posted, trivial, by simp [ReceiverPc.inHand, counted], ?_⟩
    simp only [List.length_append, List.length_singleton]
    rw [List.take_add_one, is, Option.toList_some, List.map_append, ← delivered, taken]
    rfl
  case fail => exact absurd pc normal.1
  all_goals exact ⟨sender, by simpa using posted, trivial, counted, delivered⟩

theorem Stored.step {a : Action} (h : Stored page s) (copying : Copying chunks s)
    (filled : ∀ chunk ∈ chunks, chunk ≠ []) (kept : viewKept page s a)
    (next : MultiProcess.step page s a = some s') : Stored page s' := by
  rcases kept with ⟨rfl | rfl, kept⟩
  · exact h.senderStep copying filled (kept rfl) next
  · exact h.receiverStep copying filled next

theorem Stored.start (memory : List UInt8) (calls : List Call) :
    Stored page (MultiProcess.start memory calls) :=
  ⟨trivial, by simp [MultiProcess.start], trivial, rfl, rfl⟩

/-- The published chunks are the first chunks of the copy. -/
theorem Script.published_prefix (h : Script chunks s) : s.published <+: chunks := by
  rcases h with ⟨rest, -, whole, -⟩ | ⟨-, whole, -⟩
  · exact ⟨s.sender.chunk.toList ++ rest, by rw [whole, List.append_assoc]⟩
  · exact ⟨[], by rw [whole, List.append_nil]⟩

theorem Stored.unaltered (h : Stored page s) (script : Script chunks s) : Unaltered chunks s := by
  rw [Unaltered, h.delivered]
  exact ((List.take_prefix _ _).trans script.published_prefix).map _

/-- A byte of the view changed before it was looked at goes into the destination. -/
theorem alters (h : Stored page s) (copying : Copying chunks s) {i : Nat}
    (unread : i ∈ s.receiver.unread)
    (changed : byteAt page (memoryAfter s) i ≠ byteAt page s.memory i)
    (next : senderStep s = some s') : ∃ t, Reaches page noFault s' t ∧ ¬ Unaltered chunks t := by
  -- The sender holds the token, so the receiver has posted it and is in its write.
  have inside : s.sender.token ≠ 0 := by
    intro outside
    apply changed
    rw [memoryAfter_eq outside]
  have conserved := copying.tokens.conserved
  have holding := h.receiver
  obtain ⟨sameReceiver, -, sameDelivered⟩ := senderStep_frame next
  cases pc : s.receiver with
  | postSpace size => simp only [pc, ReceiverPc.token] at conserved; omega
  | writing size done =>
    simp only [pc, ReceiverPc.holds] at holding
    obtain ⟨chunk, is, sized, le, taken, same⟩ := holding
    rw [pc] at unread
    have bounds := List.mem_range'_1.mp unread
    refine ⟨_, finish_write (fun _ => .inr rfl) _ s' size done
      (sameReceiver.trans pc) rfl, ?_⟩
    intro whole
    apply changed
    rw [same i unread]
    -- Compare the byte at `i` of the new piece of the destination with the chunk.
    have atChunk : chunks[s.delivered.length]? = some chunk := by
      obtain ⟨rest, rfl⟩ := copying.script.published_prefix
      rw [List.getElem?_append_left (List.getElem?_eq_some_iff.mp is).1, is]
    have piece := List.prefix_iff_getElem?.mp whole s.delivered.length (by simp [sameDelivered])
    simp only [List.getElem?_map, atChunk, Option.map_some, sameDelivered,
      List.getElem_append_right (Nat.le_refl _), Nat.sub_self, List.getElem_singleton] at piece
    have bytes := congrArg (fun bytes => bytes[i]?) (Option.some.inj piece)
    simp only [List.getElem?_map] at bytes
    rw [List.getElem?_append_right bounds.1, List.getElem?_map, List.getElem?_range' (by omega),
      senderStep_memory next] at bytes
    rw [List.getElem?_eq_getElem (show i < chunk.length by omega)] at bytes ⊢
    have index : done.length + 1 * (i - done.length) = i := by omega
    rw [index] at bytes
    exact (Option.some.inj bytes).symm
  | _ => simp [pc, ReceiverPc.unread] at unread

/-- While the sender leaves alone what the receiver has still to look at, every chunk is
    appended unaltered and in order; and after the first step that does not, there is always a
    run in which an altered chunk is appended. -/
theorem unaltered_of_viewKept (page : Nat) (memory : List UInt8)
    (valid : ∀ chunk ∈ chunks, chunk ≠ [] ∧ chunk.length ≤ bufferSize) :
    (∀ s, Reaches page (viewKept page) (start memory (FileDataTransferTask.callsFor chunks)) s →
        Unaltered chunks s) ∧
      ∀ s a s', Reaches page (viewKept page)
          (start memory (FileDataTransferTask.callsFor chunks)) s →
        noFault s a → ¬ viewKept page s a → step page s a = some s' →
          ∃ t, Reaches page noFault s' t ∧ ¬ Unaltered chunks t := by
  have filled : ∀ chunk ∈ chunks, chunk ≠ [] := fun chunk member => (valid chunk member).1
  have copied : ∀ s, Reaches page (viewKept page)
      (start memory (FileDataTransferTask.callsFor chunks)) s → Copying chunks s := by
    intro s run
    exact (Copying.start memory).of_reaches (fun _ _ guard => guard.1.noThrow) run
  have stored : ∀ s, Reaches page (viewKept page)
      (start memory (FileDataTransferTask.callsFor chunks)) s → Stored page s := by
    intro s run
    apply run.invariant_of copied (.start memory _)
    intro t a u copying known kept next
    exact known.step copying filled kept next
  constructor
  · intro s run
    exact (stored s run).unaltered (copied s run).script
  · intro s a s' run clean altered next
    obtain ⟨rfl, i, unread, changed⟩ : a = .sender ∧ ∃ i ∈ s.receiver.unread,
        byteAt page (memoryAfter s) i ≠ byteAt page s.memory i := by
      simpa [viewKept, clean] using altered
    exact alters (stored s run) (copied s run) unread changed next

/-- Two chunks, with the receiver done with the first before the sender goes on. -/
theorem unaltered_of_viewKept_small : ∃ s, Reaches 4096 (viewKept 4096)
    (start [] (FileDataTransferTask.callsFor [[1], [2, 3]])) s ∧
      s.delivered = [[some 1], [some 2, some 3]] ∧ Unaltered [[1], [2, 3]] s := by
  have run : Reaches 4096 (viewKept 4096)
      (start [] (FileDataTransferTask.callsFor [[1], [2, 3]])) _ :=
    .of_checked_run (.replicate 7 .sender ++ .replicate 6 .receiver ++ .replicate 8 .sender ++
      .replicate 7 .receiver) rfl
  exact ⟨_, run, rfl, (unaltered_of_viewKept 4096 [] (by decide)).1 _ run⟩

/-- The sender copies its second chunk over the first while the receiver, which has posted the
    space, has yet to write it. -/
theorem second_chunk_overwrites_view : ¬ ∀ page memory chunks s,
    (∀ chunk ∈ chunks, chunk ≠ [] ∧ chunk.length ≤ bufferSize) →
    Reaches page noFault (start memory (FileDataTransferTask.callsFor chunks)) s →
    Unaltered chunks s := by
  intro always
  have run : Reaches 4096 noFault (start [] (FileDataTransferTask.callsFor [[1], [2]])) _ :=
    .of_checked_run (.replicate 7 .sender ++ .replicate 4 .receiver ++ .replicate 5 .sender ++
      .replicate 2 .receiver) rfl
  exact absurd (always 4096 [] [[1], [2]] _ (by decide) run) (by decide)

end FileTransfer.MultiProcess
