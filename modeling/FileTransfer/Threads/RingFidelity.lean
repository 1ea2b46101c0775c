import FileTransfer.Threads.RingInvariant

/-!
# The ring buffer between two free users

Whatever the two threads write and read, and however their accesses interleave, the chunks
returned so far are the first bytes accepted, nothing accepted is lost while it is in the
buffer, and the writer stays out of the cells a read is copying.
-/

namespace FileTransfer.Threads

open CircularBuffer Cyclic

namespace Ring

/-- The cell the writer is about to store into. -/
def storesInto (r : Ring) : Option Nat :=
  match r.writer with
  | .storeData _ _ tail _ => some tail
  | _ => none

/-- The cells of the window a read is copying, from `GetDataSize` to its store of `head_`. -/
def copyWindow (capacity : Nat) (r : Ring) : List Nat :=
  match r.reader with
  | .loadHead dataSize =>
    (List.range dataSize).map fun i => cellOf capacity (sizeAdd r.buffer.head i)
  | .copy dataSize head _ => (List.range dataSize).map fun i => cellOf capacity (sizeAdd head i)
  | .storeHead chunk _ =>
    (List.range chunk.length).map fun i => cellOf capacity (sizeAdd r.buffer.head i)
  | _ => []

variable {capacity : Nat} {r : Ring}

theorem Inv.returned_accepted (h : Inv capacity r) : r.returned.flatten <+: r.accepted := by
  have whole := h.shared.content
  rw [consumed, List.append_assoc] at whole
  exact ⟨_, whole.symm⟩

theorem Inv.accepted_eq (two : 2 ≤ capacity) (addressable : capacity ≤ 2 ^ 63)
    (h : Inv capacity r) (outside : r.reader = .idle) :
    r.accepted = r.returned.flatten ++ r.buffer.content capacity := by
  have whole := h.shared.content_eq two addressable
  simpa only [consumed, outside, ReaderPc.released, List.append_nil] using whole

/-- The window lies between the two positions, so it ends before the cell at `tail_`. -/
theorem Inv.tail_notMem_copyWindow (two : 2 ≤ capacity) (addressable : capacity ≤ 2 ^ 63)
    (h : Inv capacity r) : r.buffer.tail ∉ r.copyWindow capacity := by
  obtain ⟨shared, -, reader⟩ := h
  have ordered := shared.ordered
  have within := shared.within
  have apart : ∀ n ≤ r.accepted.length - r.consumed.length, r.buffer.tail ∉
      (List.range n).map fun i => cellOf capacity (sizeAdd r.buffer.head i) := by
    intro n le member
    obtain ⟨i, hi, same⟩ := List.mem_map.mp member
    have below := List.mem_range.mp hi
    rw [shared.head, cellOf_mod two addressable _ (by omega), shared.tail] at same
    exact mod_ne_mod (by omega) (by omega) same
  unfold copyWindow
  split <;> rename_i pc <;> simp only [pc, ReaderOk] at reader
  · exact apart _ reader
  · rw [reader.1]; exact apart _ reader.2.1
  · exact apart _ reader.2.1
  · simp

theorem Inv.storesInto_eq (h : Inv capacity r) {cell : Nat} (store : r.storesInto = some cell) :
    cell = r.buffer.tail := by
  unfold storesInto at store
  split at store
  · rename_i pc
    have writer := h.writer
    rw [pc] at writer
    rw [← writer.1]
    exact (Option.some.inj store).symm
  · cases store

end Ring

/-- Whatever has been created is small enough for the index arithmetic not to wrap. -/
theorem CircularBuffer.create_spec {size : Nat} {b : CircularBuffer} (h : create size = some b) :
    size ≤ 2 ^ 63 ∧ b.head = 0 ∧ b.tail = 0 ∧ b.state = {} := by
  unfold create maxSize at h
  split at h
  · cases h
    exact ⟨by omega, rfl, rfl, rfl⟩
  · cases h

/-- For every capacity and every interleaving of the two threads: the returned bytes are the
    first accepted bytes; outside the operations the buffer holds exactly the rest, in order;
    and no store of the writer goes into the window a read is copying. -/
theorem ring_fidelity {size : Nat} (two : 2 ≤ size) {b : CircularBuffer}
    (created : CircularBuffer.create size = some b) {r : Ring}
    (run : Ring.Reaches size (Ring.start b) r) :
    r.returned.flatten <+: r.accepted ∧
      (r.writer = .idle → r.reader = .idle →
        r.accepted = r.returned.flatten ++ r.buffer.content size) ∧
      ∀ cell, r.storesInto = some cell → cell ∉ r.copyWindow size := by
  obtain ⟨addressable, head, tail, -⟩ := CircularBuffer.create_spec created
  have inv : Ring.Inv size r := (Ring.Inv.start two head tail).of_reaches two addressable run
  refine ⟨inv.returned_accepted, fun _ outside => inv.accepted_eq two addressable outside, ?_⟩
  intro cell store
  rw [inv.storesInto_eq store]
  exact inv.tail_notMem_copyWindow two addressable

/-- At capacity two the second byte of a chunk meets a full buffer; a read then returns the
    first. -/
theorem ring_fidelity_small : ∃ b r, CircularBuffer.create 2 = some b ∧
    Ring.Reaches 2 (Ring.start b) r ∧ r.returned = [[7]] ∧ r.accepted = [7] ∧
    r.returned.flatten <+: r.accepted := by
  have run : Ring.Reaches 2 (Ring.start ⟨fun _ => 0, 0, 0, {}⟩) _ := Transition.Reaches.of_run
    [.callWrite [7, 8], .writer, .writer, .writer, .writer, .writer, .writer, .callRead, .reader,
      .reader, .reader, .reader, .writer, .reader, .reader, .reader, .reader, .reader, .reader]
    rfl fun _ _ _ => trivial
  exact ⟨_, _, rfl, run, rfl, rfl, (ring_fidelity (by decide) rfl run).1⟩

end FileTransfer.Threads
