import FileTransfer.Network.TCPClient

/-!
# The calls of a client

`FileTransferTask::Run` on a client, step by step while its sends go on: the calls that it has made
are the first of those that the task makes when it runs on its own. A client that is not connected
makes them too, but passes nothing on.
-/

namespace FileTransfer

theorem Call.written_append (calls rest : List Call) :
    Call.written (calls ++ rest) = Call.written calls ++ Call.written rest := by
  induction calls with
  | nil => rfl
  | cons call calls ih => cases call <;> simp [Call.written, ih]

namespace TCPClient

/-- The calls that `FileTransferTask::Run` has made on a client that is connected. -/
def State.made (s : State) : List Call :=
  s.written.map .write ++ if s.pc = .finished then [.stop] else []

/-- The calls of the data task that are still to come. -/
def State.DataToCome (keystream : Keystream) (s : State) (calls : List Call) : Prop :=
  ∃ fuel last, FileDataTransferTask.loop (FileDataSegmentReader.read keystream) fuel
    (s.task.dataReader, s.task.encryption) = some (calls, last)

/-- The calls that are still to come. -/
def State.ToCome (keystream : Keystream) (s : State) (rest : List Call) : Prop :=
  match s.pc with
  | .readName => ∃ fuel, s.task.run keystream fuel = some rest
  | .writeName size =>
    ∃ calls, rest = .write ((s.memory .name).take size) :: calls ∧ s.DataToCome keystream calls
  | .readData => s.DataToCome keystream rest
  | .writeData size =>
    ∃ calls, rest = .write ((s.memory .data).take size) :: calls ∧ s.DataToCome keystream calls
  | .stop => rest = [.stop]
  | .finished => rest = []

/-- The client is connected and makes these calls. -/
structure Makes (keystream : Keystream) (calls : List Call) (s : State) : Prop where
  connected : s.pc ≠ .finished → s.connected = true
  whole : ∃ rest, s.made ++ rest = calls ∧ s.ToCome keystream rest

/-- The client has never been connected. -/
structure Offline (s : State) : Prop where
  connected : s.connected = false
  written : s.written = []
  sends : s.sends = []
  wire : s.wire = []

variable {keystream : Keystream} {task : FileTransferTask} {calls : List Call} {fuel : Nat}
  {s s' : State}

theorem store_take (memory : Buffer → List UInt8) (buffer : Buffer) (frame : List UInt8) :
    (store memory buffer frame buffer).take frame.length = frame := by
  rw [store, Function.update_self, List.take_left]

theorem State.written_made (s : State) : Call.written s.made = s.written := by
  have writes : ∀ frames : List (List UInt8), Call.written (frames.map .write) = frames := by
    intro frames
    induction frames with
    | nil => rfl
    | cons frame frames ih => simp [Call.written, ih]
  unfold State.made
  rw [Call.written_append, writes]
  split <;> simp [Call.written]

theorem Makes.start (ran : task.run keystream fuel = some calls) :
    Makes keystream calls (start task) :=
  ⟨fun _ => rfl, calls, rfl, fuel, ran⟩

/-- A read of the data task leads to the first of the calls that are to come. -/
theorem State.DataToCome.read {rest : List Call} (h : s.DataToCome keystream rest) :
    let read := FileDataSegmentReader.read keystream (s.task.dataReader, s.task.encryption)
    read.1 = [] ∧ rest = [.stop] ∨
      read.1 ≠ [] ∧ ∃ calls, rest = .write read.1 :: calls ∧
        ∃ fuel last, FileDataTransferTask.loop (FileDataSegmentReader.read keystream) fuel read.2 =
          some (calls, last) := by
  obtain ⟨fuel, last, loop⟩ := h
  cases fuel with
  | zero => cases loop
  | succ fuel =>
    simp only [FileDataTransferTask.loop] at loop
    by_cases empty : (FileDataSegmentReader.read keystream
        (s.task.dataReader, s.task.encryption)).1 = []
    · rw [if_pos empty] at loop
      cases loop
      exact Or.inl ⟨empty, rfl⟩
    · rw [if_neg empty] at loop
      obtain ⟨⟨calls, last'⟩, looped, same⟩ := Option.map_eq_some_iff.mp loop
      cases same
      exact Or.inr ⟨empty, calls, rfl, fuel, last', looped⟩

theorem Makes.clientStep (h : Makes keystream calls s)
    (next : clientStep keystream s = some s') : Makes keystream calls s' := by
  obtain ⟨connected, rest, whole, toCome⟩ := h
  unfold State.made at whole
  cases pc : s.pc with
  | readName =>
    simp only [State.ToCome, pc] at toCome
    obtain ⟨fuel, ran⟩ := toCome
    obtain ⟨⟨later, last⟩, loop, rfl⟩ := Option.map_eq_some_iff.mp ran
    have online := connected (by simp [pc])
    simp only [TCPClient.clientStep, pc] at next
    by_cases empty : (s.task.nameReader.read keystream s.task.encryption).1 = []
    · rw [if_pos empty] at next
      cases next
      refine ⟨fun _ => online, later, ?_, fuel, last, loop⟩
      simpa [State.made, pc, FileNameTransferTask.calls, empty] using whole
    · rw [if_neg empty] at next
      cases next
      refine ⟨fun _ => online, .write (s.task.nameReader.read keystream s.task.encryption).1 :: later,
        ?_, later, ?_, fuel, last, loop⟩
      · simpa [State.made, pc, FileNameTransferTask.calls, empty] using whole
      · rw [store_take]
  | writeName size =>
    simp only [State.ToCome, pc] at toCome
    obtain ⟨later, rfl, loop⟩ := toCome
    have online := connected (by simp [pc])
    simp only [TCPClient.clientStep, pc, write, online, if_true] at next
    cases next
    refine ⟨fun _ => rfl, later, ?_, loop⟩
    simpa [State.made, pc] using whole
  | readData =>
    simp only [State.ToCome, pc] at toCome
    have online := connected (by simp [pc])
    simp only [TCPClient.clientStep, pc] at next
    rcases toCome.read with ⟨empty, rfl⟩ | ⟨filled, later, rfl, fuel, last, loop⟩
    · rw [if_pos empty] at next
      cases next
      refine ⟨fun _ => online, _, ?_, rfl⟩
      simpa [State.made, pc] using whole
    · rw [if_neg filled] at next
      cases next
      refine ⟨fun _ => online, .write (FileDataSegmentReader.read keystream
        (s.task.dataReader, s.task.encryption)).1 :: later, ?_, later, ?_, fuel, last, loop⟩
      · simpa [State.made, pc] using whole
      · rw [store_take]
  | writeData size =>
    simp only [State.ToCome, pc] at toCome
    obtain ⟨later, rfl, loop⟩ := toCome
    have online := connected (by simp [pc])
    simp only [TCPClient.clientStep, pc, write, online, if_true] at next
    cases next
    refine ⟨fun _ => rfl, later, ?_, loop⟩
    simpa [State.made, pc] using whole
  | stop =>
    simp only [State.ToCome, pc] at toCome
    subst toCome
    simp only [TCPClient.clientStep, pc, Option.some.injEq] at next
    subst next
    refine ⟨fun running => absurd rfl running, [], ?_, rfl⟩
    simpa [State.made, pc] using whole
  | finished => simp [TCPClient.clientStep, pc] at next

/-- What a send takes is no call. -/
theorem takeStep_frame {i : Nat} (next : takeStep s i = some s') :
    ∃ sends wire, s' = { s with sends, wire } ∧ s.sends ≠ [] := by
  unfold takeStep at next
  split at next
  · rename_i send found
    split at next
    · obtain ⟨byte, -, rfl⟩ := Option.map_eq_some_iff.mp next
      refine ⟨_, _, rfl, ?_⟩
      intro none
      rw [none] at found
      cases found
    · cases next
  · cases next

theorem Makes.step {action : Action} (h : Makes keystream calls s)
    (next : step keystream s action = some s') : Makes keystream calls s' := by
  cases action with
  | client => exact h.clientStep next
  | take i =>
    obtain ⟨sends, wire, rfl, -⟩ := takeStep_frame next
    exact ⟨h.connected, h.whole⟩

theorem Offline.step {action : Action} (h : Offline s) (next : step keystream s action = some s') :
    Offline s' := by
  obtain ⟨connected, written, sends, wire⟩ := h
  cases action with
  | client =>
    have next : clientStep keystream s = some s' := next
    unfold clientStep at next
    split at next
    · dsimp only at next
      split at next <;> cases next <;> exact ⟨connected, written, sends, wire⟩
    · simp only [write, connected, Bool.false_eq_true, if_false, Option.some.injEq] at next
      subst next
      exact ⟨rfl, written, sends, wire⟩
    · dsimp only at next
      split at next <;> cases next <;> exact ⟨connected, written, sends, wire⟩
    · simp only [write, connected, Bool.false_eq_true, if_false, Option.some.injEq] at next
      subst next
      exact ⟨rfl, written, sends, wire⟩
    · cases next
      exact ⟨rfl, written, sends, wire⟩
    · cases next
  | take i =>
    obtain ⟨-, -, -, some_send⟩ := takeStep_frame next
    exact absurd sends some_send

theorem Makes.made (h : Makes keystream calls s) :
    s.made <+: calls ∧ (s.pc = .finished → s.made = calls) := by
  obtain ⟨rest, whole, toCome⟩ := h.whole
  refine ⟨⟨rest, whole⟩, ?_⟩
  intro finished
  simp only [State.ToCome, finished] at toCome
  rw [← whole, toCome, List.append_nil]

/-- A connected client makes the calls of `FileTransferTask::Run` one after the other, whatever the
    task reads and however far its sends are. -/
theorem Makes.of_reaches (ran : task.run keystream fuel = some calls)
    (run : Reaches keystream (TCPClient.start task) s) : Makes keystream calls s :=
  run.invariant (.start ran) fun _ _ _ makes _ next => makes.step next

end TCPClient

end FileTransfer
