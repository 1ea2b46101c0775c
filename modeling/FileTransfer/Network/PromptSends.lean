import FileTransfer.Network.ClientCalls

/-!
# Sends that keep up

A client whose sends take all their bytes before it reads its next chunk never reuses a buffer under
a send. On such a run the connection carries the frames in the order in which they were written,
though each send stays outstanding.
-/

namespace FileTransfer

namespace TCPClient

/-- Every send has taken all its bytes. -/
def idle (s : State) : Prop := ∀ send ∈ s.sends, send.taken = send.size

instance (s : State) : Decidable (idle s) :=
  inferInstanceAs (Decidable (∀ send ∈ s.sends, send.taken = send.size))

/-- The next chunk is only read when nothing is left to take. -/
def prompt (s : State) : Action → Prop
  | .client => s.pc = .readData → idle s
  | .take _ => True

instance (s : State) : ∀ action, Decidable (prompt s action)
  | .client => inferInstanceAs (Decidable (s.pc = .readData → idle s))
  | .take _ => isTrue trivial

/-- The last send is under way: what it has still to take is in its buffer. -/
structure Sending (s : State) (done : List Send) (send : Send) (frames : List (List UInt8)) :
    Prop where
  sends : s.sends = done ++ [send]
  earlier : ∀ other ∈ done, other.taken = other.size
  stored : send.size ≤ (s.memory send.buffer).length
  within : send.taken ≤ send.size
  written : s.written = frames ++ [(s.memory send.buffer).take send.size]
  wire : s.wire = frames.flatten ++ (s.memory send.buffer).take send.taken

/-- The connection carries what was written, but for what the last send has still to take. -/
structure InOrder (s : State) : Prop where
  calm : s.pc ≠ .readData → idle s
  packed : ∀ size, (s.pc = .writeName size → size ≤ (s.memory .name).length) ∧
    (s.pc = .writeData size → size ≤ (s.memory .data).length)
  sent : idle s ∧ s.wire = s.written.flatten ∨ ∃ done send frames, Sending s done send frames

variable {keystream : Keystream} {s s' : State} {done : List Send} {send : Send}
  {frames : List (List UInt8)}

theorem Sending.wire_idle (h : Sending s done send frames) (quiet : idle s) :
    s.wire = s.written.flatten := by
  have all : send.taken = send.size := by
    apply quiet
    rw [h.sends]
    exact List.mem_append_right _ (List.mem_singleton_self send)
  rw [h.wire, h.written, all, List.flatten_concat]

/-- What is on a connection stays there. -/
theorem wire_step {action : Action} (next : step keystream s action = some s') :
    s.wire <+: s'.wire := by
  cases action with
  | client =>
    have next : clientStep keystream s = some s' := next
    have write : ∀ buffer size, (write s buffer size).wire = s.wire := by
      intro buffer size
      unfold TCPClient.write
      split <;> rfl
    have same : s'.wire = s.wire := by
      unfold clientStep at next
      split at next
      · dsimp only at next
        split at next <;> cases next <;> rfl
      · cases next
        exact write ..
      · dsimp only at next
        split at next <;> cases next <;> rfl
      · cases next
        exact write ..
      · cases next
        rfl
      · cases next
    exact same ▸ List.prefix_rfl
  | take i =>
    have next : takeStep s i = some s' := next
    unfold takeStep at next
    split at next
    · split at next
      · obtain ⟨byte, -, rfl⟩ := Option.map_eq_some_iff.mp next
        exact List.prefix_append ..
      · cases next
    · cases next

/-- When nothing is left to take, everything written is on the connection. -/
theorem InOrder.wire_idle (h : InOrder s) (quiet : idle s) : s.wire = s.written.flatten := by
  rcases h.sent with ⟨-, whole⟩ | ⟨done, send, frames, sending⟩
  · exact whole
  · exact sending.wire_idle quiet

theorem InOrder.wire_prefix (h : InOrder s) : s.wire <+: s.written.flatten := by
  rcases h.sent with ⟨-, whole⟩ | ⟨done, send, frames, sending⟩
  · exact whole ▸ List.prefix_rfl
  · rw [sending.wire, sending.written, List.flatten_concat]
    apply (List.prefix_append_right_inj _).mpr
    exact List.take_prefix_take_left sending.within

/-- A client on which nothing has been written. -/
theorem InOrder.fresh (pc : s.pc = .readName) (written : s.written = []) (sends : s.sends = [])
    (wire : s.wire = []) : InOrder s := by
  have quiet : idle s := by simp [idle, sends]
  exact ⟨fun _ => quiet, by simp [pc], Or.inl ⟨quiet, by simp [wire, written]⟩⟩

theorem le_length_store (memory : Buffer → List UInt8) (buffer : Buffer) (frame : List UInt8) :
    frame.length ≤ (store memory buffer frame buffer).length := by
  rw [store, Function.update_self, List.length_append]
  exact Nat.le_add_right _ _

/-- A step that only reads or stops. -/
theorem InOrder.still (h : InOrder s) (quiet : idle s) (sends : s'.sends = s.sends)
    (written : s'.written = s.written) (wire : s'.wire = s.wire)
    (packed : ∀ size, (s'.pc = .writeName size → size ≤ (s'.memory .name).length) ∧
      (s'.pc = .writeData size → size ≤ (s'.memory .data).length)) : InOrder s' := by
  have quiet' : idle s' := by
    rw [idle, sends]
    exact quiet
  refine ⟨fun _ => quiet', packed, Or.inl ⟨quiet', ?_⟩⟩
  rw [wire, written]
  exact h.wire_idle quiet

theorem InOrder.write (h : InOrder s) (quiet : idle s) {buffer : Buffer} {size : Nat}
    (packed : size ≤ (s.memory buffer).length) :
    InOrder { TCPClient.write s buffer size with pc := .readData } := by
  unfold TCPClient.write
  split
  · refine ⟨fun other => absurd rfl other, by simp,
      Or.inr ⟨s.sends, ⟨buffer, size, 0⟩, s.written, ?_⟩⟩
    refine ⟨rfl, quiet, packed, Nat.zero_le _, rfl, ?_⟩
    rw [List.take_zero, List.append_nil]
    exact h.wire_idle quiet
  · exact h.still quiet rfl rfl rfl (by simp)

theorem InOrder.clientStep (h : InOrder s) (guard : s.pc = .readData → idle s)
    (next : clientStep keystream s = some s') : InOrder s' := by
  unfold TCPClient.clientStep at next
  cases pc : s.pc with
  | readName =>
    have quiet := h.calm (by simp [pc])
    simp only [pc] at next
    split at next
    · cases next
      exact h.still quiet rfl rfl rfl (by simp)
    · cases next
      refine h.still quiet rfl rfl rfl ?_
      intro size
      refine ⟨?_, by simp⟩
      intro writing
      cases writing
      exact le_length_store s.memory .name _
  | writeName size =>
    simp only [pc] at next
    cases next
    exact h.write (h.calm (by simp [pc])) ((h.packed size).1 pc)
  | readData =>
    have quiet := guard pc
    simp only [pc] at next
    split at next
    · cases next
      exact h.still quiet rfl rfl rfl (by simp)
    · cases next
      refine h.still quiet rfl rfl rfl ?_
      intro size
      refine ⟨by simp, ?_⟩
      intro writing
      cases writing
      exact le_length_store s.memory .data _
  | writeData size =>
    simp only [pc] at next
    cases next
    exact h.write (h.calm (by simp [pc])) ((h.packed size).2 pc)
  | stop =>
    simp only [pc] at next
    cases next
    exact h.still (h.calm (by simp [pc])) rfl rfl rfl (by simp)
  | finished =>
    simp only [pc] at next
    cases next

/-- A send that takes a byte is the last one, and the byte is the next of its frame. -/
theorem Sending.takeStep {i : Nat} (h : Sending s done send frames)
    (next : takeStep s i = some s') :
    i = done.length ∧ send.taken < send.size ∧
      Sending s' done { send with taken := send.taken + 1 } frames := by
  unfold TCPClient.takeStep at next
  split at next
  · rename_i chosen found
    split at next
    · rename_i more
      obtain ⟨byte, atByte, rfl⟩ := Option.map_eq_some_iff.mp next
      rw [h.sends] at found
      have last : i = done.length ∧ chosen = send := by
        rcases Nat.lt_or_ge i done.length with before | after
        · rw [List.getElem?_append_left before] at found
          have all := h.earlier chosen (List.mem_of_getElem? found)
          omega
        · rw [List.getElem?_append_right after, List.getElem?_singleton] at found
          split at found
          · exact ⟨by omega, (Option.some.inj found).symm⟩
          · cases found
      obtain ⟨rfl, rfl⟩ := last
      refine ⟨rfl, more, ?_, h.earlier, h.stored, more, h.written, ?_⟩
      · rw [h.sends, List.set_append_right _ _ le_rfl, Nat.sub_self]
        rfl
      · rw [h.wire, List.append_assoc, List.take_add_one, atByte]
        rfl
    · cases next
  · cases next

theorem InOrder.takeStep {i : Nat} (h : InOrder s) (next : takeStep s i = some s') :
    InOrder s' := by
  have blocked : ¬ idle s := by
    intro quiet
    unfold TCPClient.takeStep at next
    split at next
    · rename_i chosen found
      split at next
      · rename_i more
        have all := quiet chosen (List.mem_of_getElem? found)
        omega
      · cases next
    · cases next
  obtain ⟨sends, wire, rfl, -⟩ := takeStep_frame next
  rcases h.sent with ⟨quiet, -⟩ | ⟨done, send, frames, sending⟩
  · exact absurd quiet blocked
  · obtain ⟨-, -, sending'⟩ := sending.takeStep next
    refine ⟨fun other => absurd (h.calm other) blocked, h.packed, Or.inr ⟨_, _, _, sending'⟩⟩

theorem InOrder.step {action : Action} (h : InOrder s) (guard : prompt s action)
    (next : step keystream s action = some s') : InOrder s' := by
  cases action with
  | client => exact h.clientStep guard next
  | take i => exact h.takeStep next

/-- A send can take what it has still to take. -/
theorem Sending.finish {send : Send} (h : Sending s done send frames) :
    ∃ sends wire, Transition.Reaches (step keystream) prompt s { s with sends, wire } ∧
      idle { s with sends, wire } ∧
      wire = frames.flatten ++ (s.memory send.buffer).take send.size := by
  induction left : send.size - send.taken generalizing s send with
  | zero =>
    have within := h.within
    have all : send.taken = send.size := by omega
    refine ⟨s.sends, s.wire, .refl, ?_, all ▸ h.wire⟩
    intro other member
    rw [h.sends] at member
    rcases List.mem_append.mp member with before | last
    · exact h.earlier other before
    · rw [List.mem_singleton.mp last]
      exact all
  | succ n ih =>
    have more : send.taken < send.size := by omega
    obtain ⟨byte, atByte⟩ : ∃ byte, (s.memory send.buffer)[send.taken]? = some byte :=
      ⟨_, List.getElem?_eq_getElem (Nat.lt_of_lt_of_le more h.stored)⟩
    obtain ⟨s', next⟩ : ∃ s', TCPClient.takeStep s done.length = some s' := by
      have last : s.sends[done.length]? = some send := by
        rw [h.sends, List.getElem?_concat_length]
      simp [TCPClient.takeStep, last, more, atByte]
    obtain ⟨-, -, sending⟩ := h.takeStep next
    obtain ⟨sends, wire, rfl, -⟩ := takeStep_frame next
    obtain ⟨sends', wire', run, quiet, whole⟩ := ih sending (by simp only; omega)
    have next : step keystream s (.take done.length) = some { s with sends, wire } := next
    exact ⟨sends', wire', .head (a := .take done.length) trivial next run, quiet, whole⟩

def Pc.reads : Pc → Nat
  | .readName => 2
  | .readData => 1
  | _ => 0

/-- How much a client has still to do for these calls. -/
def left (calls : List Call) (s : State) : Nat :=
  3 * (calls.length - s.made.length) + s.pc.reads

/-- A read leads to a later place. -/
theorem clientStep_read (reading : s.pc = .readName ∨ s.pc = .readData) :
    ∃ s', clientStep keystream s = some s' ∧ s'.sends = s.sends ∧ s'.wire = s.wire ∧
      s'.made = s.made ∧ s'.pc.reads < s.pc.reads := by
  rcases reading with pc | pc
  · by_cases empty : (s.task.nameReader.read keystream s.task.encryption).1 = []
    · simp [clientStep, pc, empty, State.made, Pc.reads]
    · simp [clientStep, pc, empty, State.made, Pc.reads]
  · by_cases empty : (FileDataSegmentReader.read keystream
        (s.task.dataReader, s.task.encryption)).1 = []
    · simp [clientStep, pc, empty, State.made, Pc.reads]
    · simp [clientStep, pc, empty, State.made, Pc.reads]

/-- A write puts its frame on the connection and is one call less to come. -/
theorem Makes.sent {calls : List Call} (h : Makes keystream calls s) (inOrder : InOrder s)
    {buffer : Buffer} {size : Nat}
    (pc : s.pc = .writeName size ∧ buffer = .name ∨ s.pc = .writeData size ∧ buffer = .data) :
    ∃ s', Transition.Reaches (TCPClient.step keystream) prompt s s' ∧ idle s' ∧
      left calls s' < left calls s ∧ ∃ frame ∈ s'.written, s'.wire = s.wire ++ frame := by
  have writing : s.pc ≠ .readData ∧ s.pc ≠ .finished := by
    rcases pc with ⟨pc, -⟩ | ⟨pc, -⟩ <;> simp [pc]
  have quiet := inOrder.calm writing.1
  have packed : size ≤ (s.memory buffer).length := by
    rcases pc with ⟨pc, rfl⟩ | ⟨pc, rfl⟩
    · exact (inOrder.packed size).1 pc
    · exact (inOrder.packed size).2 pc
  have next : TCPClient.step keystream s .client =
      some { write s buffer size with pc := .readData } := by
    rcases pc with ⟨pc, rfl⟩ | ⟨pc, rfl⟩ <;> simp [TCPClient.step, TCPClient.clientStep, pc]
  simp only [write, h.connected writing.2, if_true] at next
  have sending : Sending { s with
      pc := .readData
      connected := true
      sends := s.sends ++ [⟨buffer, size, 0⟩]
      written := s.written ++ [(s.memory buffer).take size] } s.sends ⟨buffer, size, 0⟩
      s.written := by
    refine ⟨rfl, quiet, packed, Nat.zero_le _, rfl, ?_⟩
    rw [List.take_zero, List.append_nil]
    exact inOrder.wire_idle quiet
  obtain ⟨sends, wire, run, quiet', whole⟩ := @Sending.finish keystream _ _ _ _ sending
  have run : Transition.Reaches (TCPClient.step keystream) prompt s _ :=
    .head (a := .client) (fun reading => absurd reading writing.1) next run
  refine ⟨_, run, quiet', ?_, (s.memory buffer).take size, ?_, ?_⟩
  · have makes : Makes keystream calls _ :=
      run.invariant h fun _ _ _ makes _ next => makes.step next
    have more := makes.made.1.length_le
    simp only [State.made, List.map_append, List.length_append, List.length_map,
      List.length_singleton, List.map_cons, List.map_nil, if_false, List.append_nil,
      reduceCtorEq] at more
    simp only [left, Pc.reads, State.made, List.map_append, List.length_append, List.length_map,
      List.length_singleton, List.map_cons, List.map_nil, writing.2, if_false, List.append_nil,
      reduceCtorEq]
    omega
  · exact List.mem_append_right _ (List.mem_singleton_self _)
  · rw [inOrder.wire_idle quiet]
    exact whole

/-- A client that is not through can go on, to where nothing is left to take. -/
theorem Makes.advance {calls : List Call} (h : Makes keystream calls s) (inOrder : InOrder s)
    (quiet : idle s) (short : s.pc ≠ .finished) :
    ∃ s', Transition.Reaches (TCPClient.step keystream) prompt s s' ∧ idle s' ∧
      left calls s' < left calls s ∧
      (s'.wire = s.wire ∨ ∃ frame ∈ s'.written, s'.wire = s.wire ++ frame) := by
  have read : s.pc = .readName ∨ s.pc = .readData → ∃ s',
      Transition.Reaches (TCPClient.step keystream) prompt s s' ∧ idle s' ∧
        left calls s' < left calls s ∧ s'.wire = s.wire := by
    intro reading
    obtain ⟨s', next, sends, wire, made, less⟩ := @clientStep_read keystream s reading
    refine ⟨s', .single (a := .client) (fun _ => quiet) next, ?_, ?_, wire⟩
    · rw [idle, sends]
      exact quiet
    · rw [left, left, made]
      exact Nat.add_lt_add_left less _
  cases pc : s.pc with
  | readName =>
    obtain ⟨s', run, quiet', less, same⟩ := read (Or.inl pc)
    exact ⟨s', run, quiet', less, Or.inl same⟩
  | writeName size =>
    obtain ⟨s', run, quiet', less, more⟩ := h.sent inOrder (Or.inl ⟨pc, rfl⟩)
    exact ⟨s', run, quiet', less, Or.inr more⟩
  | readData =>
    obtain ⟨s', run, quiet', less, same⟩ := read (Or.inr pc)
    exact ⟨s', run, quiet', less, Or.inl same⟩
  | writeData size =>
    obtain ⟨s', run, quiet', less, more⟩ := h.sent inOrder (Or.inr ⟨pc, rfl⟩)
    exact ⟨s', run, quiet', less, Or.inr more⟩
  | stop =>
    have next : TCPClient.step keystream s .client =
        some { s with connected := false, pc := .finished } := by
      simp only [TCPClient.step, TCPClient.clientStep, pc]
    refine ⟨_, .single (a := .client) (fun _ => quiet) next, quiet, ?_, Or.inl rfl⟩
    have more := (h.step next).made.1.length_le
    simp only [State.made, List.length_append, List.length_map, if_true, List.length_singleton]
      at more
    simp only [left, Pc.reads, State.made, pc, List.length_append, List.length_map, if_true,
      List.length_singleton, reduceCtorEq, if_false, List.append_nil]
    omega
  | finished => exact absurd pc short

end TCPClient

end FileTransfer
