import FileTransfer.Factory.Copy

/-!
# What happens to the source of a copy

The bytes of the source file, in every state of every run: which steps change them, and that the
threads of a copy of an empty file write nothing.
-/

namespace FileTransfer.Copy

open Posix
open MultiProcessTask (StartFault Build)
open Threads (MultiThread.State MultiThread.Action)

/-- Nothing has been read: the buffer has accepted nothing, and no thread has a chunk in hand. -/
structure Quiet (s : MultiThread.State) : Prop where
  ring : s.ring.Inv bufferSize
  accepted : s.ring.accepted = []
  calls : s.calls = [] ∨ s.calls = [.stop]
  producer : s.producer = .next ∨ s.producer = .stopSpin ∨ s.producer = .stopStore ∨
    s.producer = .finished
  consumer : ∀ chunk, s.consumer ≠ .writing chunk

theorem two_le_bufferSize : 2 ≤ bufferSize := by decide

theorem bufferSize_addressable : bufferSize ≤ 2 ^ 63 := by decide

theorem Quiet.start {s : MultiThread.State}
    (started : Threads.MultiThread.start bufferSize [] = some s) : Quiet s := by
  have here : Threads.MultiThread.Reaches bufferSize (fun _ _ => True) s s := .refl
  have ring := Threads.MultiThread.ring_inv two_le_bufferSize started here
  obtain ⟨buffer, -, rfl⟩ := Threads.MultiThread.start_eq started
  exact ⟨ring, rfl, Or.inl rfl, Or.inl rfl, by simp⟩

theorem Quiet.producerStep {s s' : MultiThread.State} (h : Quiet s)
    (ring : s'.ring.Inv bufferSize)
    (next : Threads.MultiThread.producerStep bufferSize s = some s') : Quiet s' := by
  obtain ⟨-, accepted, calls, producer, consumer⟩ := h
  have unmoved := (Threads.MultiThread.producerStep_frame next).1
  rw [← unmoved] at consumer
  cases Threads.MultiThread.producerStep_move next with
  | finish none pc => exact ⟨ring, accepted, calls, by simp, consumer⟩
  | callWrite call pc => simp [call] at calls
  | callStop call pc =>
    refine ⟨ring, accepted, Or.inl ?_, by simp, consumer⟩
    simpa [call] using calls
  | stopEnabled set pc => exact ⟨ring, accepted, calls, by simp, consumer⟩
  | stopDisabled pc => exact ⟨ring, accepted, calls, producer, consumer⟩
  | stopStore pc => exact ⟨ring, accepted, calls, by simp, consumer⟩
  | writeEnabled _ pc => simp [pc] at producer
  | writeDisabled pc => simp [pc] at producer
  | writeRunning pc => simp [pc] at producer
  | writeStopped _ pc => simp [pc] at producer
  | enter _ _ _ pc => simp [pc] at producer
  | skip _ pc => simp [pc] at producer
  | access _ pc => simp [pc] at producer
  | leave _ pc => simp [pc] at producer
  | returned pc => simp [pc] at producer

theorem Quiet.consumerStep {s s' : MultiThread.State} (h : Quiet s)
    (ring : s'.ring.Inv bufferSize)
    (next : Threads.MultiThread.consumerStep bufferSize s = some s') : Quiet s' := by
  obtain ⟨producer, calls, -, -, accepted⟩ := Threads.MultiThread.consumerStep_frame next
  refine ⟨ring, accepted.trans h.accepted, calls ▸ h.calls, producer ▸ h.producer, ?_⟩
  have nothing : s'.ring.returned.flatten = [] := by
    have prefixed := ring.returned_accepted
    rwa [accepted, h.accepted, List.prefix_nil] at prefixed
  cases Threads.MultiThread.consumerStep_move next with
  | @leave chunk r done access pc =>
    -- What a read returns has been accepted: nothing.
    simp only [Threads.Ring.readerStep, done, Option.some.injEq] at access
    subst access
    have empty : chunk = [] := by
      rw [List.flatten_append] at nothing
      simpa using (List.append_eq_nil_iff.mp nothing).2
    intro other
    simp [Threads.MultiThread.afterRead, empty]
  | access notDone access pc => simp [pc]
  | _ => simp

theorem Quiet.step {s s' : MultiThread.State} {action : MultiThread.Action} (h : Quiet s)
    (next : Threads.MultiThread.step bufferSize s action = some s') : Quiet s' := by
  have ring := h.ring.of_reaches two_le_bufferSize bufferSize_addressable
    (Threads.MultiThread.step_ring next)
  cases action with
  | producer => exact h.producerStep ring next
  | consumer => exact h.consumerStep ring next
  | consumerThrows =>
    obtain ⟨⟨chunk, writing⟩, -⟩ := Threads.MultiThread.consumerThrows_eq next
    exact absurd writing (h.consumer chunk)

/-- The stream holds nothing back, and the next `Read` asks for something. -/
structure Drained (r : SourceReader) : Prop where
  buffered : r.buffered = []
  room : 0 < r.reader.chunkBuffer.length

variable {machine : Machine} {command : SCommand} {c c' : Copy} {disk : FileSystem}
  {r : SourceReader} {original : Option (List UInt8)}

theorem open_eq {name : Path} (opened : SourceReader.open machine disk name = .ok r) :
    r.path = machine.fileOf name ∧ Drained r := by
  unfold SourceReader.open at opened
  split at opened
  · rename_i reader fileOpened
    cases opened
    refine ⟨rfl, rfl, ?_⟩
    unfold FileDataReader.open at fileOpened
    split at fileOpened
    · cases fileOpened
      rw [FileDataReader.create, List.length_replicate]
      decide
    · split at fileOpened
      · cases fileOpened
      · split at fileOpened <;> cases fileOpened
  · cases opened

theorem Drained.fetch (h : Drained r) (empty : disk.files r.path = some []) (count : Nat) :
    Drained (r.fetch disk count) := by
  refine ⟨?_, h.room⟩
  simp [SourceReader.fetch, h.buffered, empty]

/-- The reader delivers what a reader on this stream would, while the file stays as it is. -/
structure Delivers (r : SourceReader) (disk : FileSystem) (whole : FileDataReader) : Prop where
  remaining : whole.stream.remaining =
    r.buffered ++ ((disk.files r.path).getD []).drop r.fetched
  good : whole.stream.good = r.reader.stream.good
  chunkBuffer : whole.chunkBuffer = r.reader.chunkBuffer

theorem Delivers.fetch {whole : FileDataReader} (h : Delivers r disk whole) (count : Nat) :
    Delivers (r.fetch disk count) disk whole := by
  refine ⟨?_, h.good, h.chunkBuffer⟩
  have rest := List.prefix_iff_eq_append.mp
    (List.take_prefix count (((disk.files r.path).getD []).drop r.fetched))
  rw [h.remaining, SourceReader.fetch, List.append_assoc, ← List.drop_drop, rest]

theorem Delivers.read {whole : FileDataReader} (h : Delivers r disk whole) :
    (r.read disk).1 = whole.read.1 ∧ Delivers (r.read disk).2 disk whole.read.2 := by
  have fetched := (h.fetch (r.reader.chunkBuffer.length - r.buffered.length)).remaining
  obtain ⟨⟨bytes, good⟩, chunkBuffer⟩ := whole
  obtain ⟨-, rfl, rfl⟩ := h
  -- Either the buffer now holds what is asked for, or the file is at its end.
  have enough : r.reader.chunkBuffer.length ≤
      (r.fetch disk (r.reader.chunkBuffer.length - r.buffered.length)).buffered.length ∨
      ((disk.files r.path).getD []).drop
        (r.fetch disk (r.reader.chunkBuffer.length - r.buffered.length)).fetched = [] := by
    rw [List.drop_eq_nil_iff]
    simp only [SourceReader.fetch, List.length_append, List.length_take, List.length_drop]
    omega
  obtain ⟨chunk, chunkBuffer, good, remaining⟩ := FileDataReader.read_append fetched enough
  exact ⟨chunk.symm, remaining, good, chunkBuffer⟩

/-- There is nothing to read in an empty file. -/
theorem Drained.read (h : Drained r) (empty : disk.files r.path = some []) :
    (r.read disk).1 = [] ∧ Drained (r.read disk).2 := by
  let whole : FileDataReader :=
    { r.reader with stream := { r.reader.stream with remaining := [] } }
  have delivers : Delivers r disk whole := ⟨by simp [whole, h.buffered, empty], rfl, rfl⟩
  obtain ⟨delivered, later⟩ := delivers.read
  obtain ⟨last, atEnd, -, room⟩ := FileDataReader.read_end (r := whole) (fun _ => rfl) h.room
  have remaining := later.remaining
  rw [FileDataReader.read_remaining_nil rfl] at remaining
  rw [atEnd] at delivered later
  exact ⟨delivered, (List.append_eq_nil_iff.mp remaining.symm).1, later.chunkBuffer ▸ room⟩

/-- What is known while the source is as it was: a destination in the same file was opened while
    there was nothing in it, and of an empty source nothing has been read. -/
structure Tracked (machine : Machine) (command : SCommand) (original : Option (List UInt8))
    (c : Copy) : Prop where
  writer : ∀ writer, c.writer = some writer →
    sourceFile machine command = some writer.stream.path → original = some []
  reader : original = some [] → ∀ reader, c.reader = some reader →
    sourceFile machine command = some reader.path ∧ Drained reader
  threads : original = some [] → ∀ s ended, c.pc = .threads s ended → Quiet s

theorem Tracked.start (command : SCommand) (disk : FileSystem) :
    Tracked machine command original (start command disk) := by
  refine ⟨?_, ?_, ?_⟩
  · intro writer opened
    cases opened
  · intro _ reader opened
    cases opened
  · intro _ s ended pc
    cases pc

/-- The source file, when there is a source and it is empty. -/
theorem sourceFile_empty (empty : sourceBytes machine command disk = some []) :
    sourceFile machine command = some (machine.fileOf ((source command).getD [])) ∧
      disk.files (machine.fileOf ((source command).getD [])) = some [] := by
  unfold sourceBytes sourceFile at *
  cases set : source command with
  | none => simp [set] at empty
  | some name => simpa [set] using empty

theorem sourceBytes_congr {disk' : FileSystem}
    (same : ∀ path, sourceFile machine command = some path → disk'.files path = disk.files path) :
    sourceBytes machine command disk' = sourceBytes machine command disk := by
  unfold sourceBytes
  cases there : sourceFile machine command with
  | none => rfl
  | some path => exact same path there

theorem write_eq {data : List UInt8} (written : c.write data = some c') :
    ∃ writer, c.writer = some writer ∧
      c' = { c with
        writer := some (writer.write c.disk data).1, disk := (writer.write c.disk data).2 } := by
  obtain ⟨writer, opened, rfl⟩ := Option.map_eq_some_iff.mp written
  exact ⟨writer, opened, rfl⟩

/-- A write changes the source if and only if it writes something into its file. -/
theorem write_kept_iff {data : List UInt8} {writer : FileDataWriter}
    (kept : sourceBytes machine command c.disk = original)
    (tracked : sourceFile machine command = some writer.stream.path → original = some []) :
    sourceBytes machine command (writer.write c.disk data).2 = original ↔
      ¬ (sourceFile machine command = some writer.stream.path ∧ data ≠ []) := by
  unfold FileDataWriter.write
  by_cases empty : data = []
  · simpa [empty] using kept
  rw [if_neg empty]
  by_cases same : sourceFile machine command = some writer.stream.path
  · have written := writer.stream.write_self c.disk data
    simp only [sourceBytes, same, Option.bind_some, written, tracked same, Option.some.injEq]
    simp [writeAt_ne_nil empty, empty]
  · refine iff_of_true ?_ fun both => same both.1
    rw [← kept]
    apply sourceBytes_congr
    intro path there
    refine OfStream.write_of_ne ?_ c.disk data
    rintro rfl
    exact same there

/-- Emptying a file changes the source if and only if it is the source, with something in it. -/
theorem truncate_kept_iff {path : Path}
    (kept : sourceBytes machine command c.disk = original) :
    sourceBytes machine command
        { c.disk with files := Function.update c.disk.files path (some []) } = original ↔
      ¬ (sourceFile machine command = some path ∧ original ≠ some []) := by
  by_cases same : sourceFile machine command = some path
  · simp [sourceBytes, same, eq_comm]
  · refine iff_of_true ?_ fun both => same both.1
    rw [← kept]
    apply sourceBytes_congr
    intro other there
    refine Function.update_of_ne ?_ ..
    rintro rfl
    exact same there

theorem not_damages_create (notDest : ∀ rest, c.pc ≠ .creating (.openDest :: rest)) :
    ¬ Damages machine command c .create := by
  rintro ⟨pc⟩
  exact notDest _ pc

/-- As long as the source is as it was, a step changes it if and only if it is one of those. -/
theorem step_kept_iff {action : Action} (kept : sourceBytes machine command c.disk = original)
    (tracked : Tracked machine command original c)
    (next : step machine command c action = some c') :
    sourceBytes machine command c'.disk = original ↔ ¬ Damages machine command c action := by
  cases step_move next with
  | threads pc started => exact iff_of_true kept (not_damages_create (by simp [pc]))
  | process pc => exact iff_of_true kept (not_damages_create (by simp [pc]))
  | failed pc refused =>
    refine iff_of_true kept ?_
    rintro ⟨pc', set, opens⟩
    rw [pc] at pc'
    cases pc'
    simp [perform, set, openDest_of_canOpen opens] at refused
  | built pc built =>
    cases built with
    | kept notDest => exact iff_of_true kept (not_damages_create (by simp [pc, notDest]))
    | source opened => exact iff_of_true kept (not_damages_create (by simp [pc]))
    | @dest dest set opens =>
      refine (truncate_kept_iff kept).trans (not_congr ?_)
      constructor
      · rintro ⟨same, filled⟩
        exact .truncate pc set opens same (kept ▸ filled)
      · rintro ⟨pc', set', -, same, filled⟩
        rw [set] at set'
        cases set'
        exact ⟨same, kept ▸ filled⟩
  | fetch count opened => exact iff_of_true kept (by rintro ⟨⟩)
  | read pc producer read =>
    obtain ⟨reader, opened, rfl⟩ := Option.map_eq_some_iff.mp read
    refine iff_of_true ?_ (by rintro ⟨⟩)
    dsimp only
    split <;> exact kept
  | thread pc next => exact iff_of_true kept (by rintro ⟨⟩)
  | threadWrite pc writing next written =>
    obtain ⟨writer, opened, rfl⟩ := write_eq written
    refine iff_of_true ?_ (by rintro ⟨⟩)
    refine (write_kept_iff kept (tracked.writer writer opened)).mpr ?_
    rintro ⟨same, -⟩
    -- The source would have been empty, and nothing read of it.
    have quiet := tracked.threads (tracked.writer writer opened same) _ _ pc
    exact quiet.consumer _ writing
  | event pc other =>
    refine iff_of_true kept ?_
    intro damages
    cases damages with
    | write pc' call =>
      rw [pc] at pc'
      cases pc'
      exact other _ rfl call
  | processWrite pc call written =>
    obtain ⟨writer, opened, rfl⟩ := write_eq written
    refine (write_kept_iff kept (tracked.writer writer opened)).trans (not_congr ?_)
    constructor
    · rintro ⟨same, filled⟩
      exact .write pc call opened same filled
    · intro damages
      cases damages with
      | write pc' call' opened' same filled =>
        rw [pc] at pc'
        cases pc'
        rw [call] at call'
        cases call'
        rw [opened] at opened'
        cases opened'
        exact ⟨same, filled⟩

/-- A step that opens nothing and writes nothing, outside the threads. -/
theorem Tracked.of_same (tracked : Tracked machine command original c)
    (writer : c'.writer = c.writer) (reader : c'.reader = c.reader)
    (outside : ∀ s ended, c'.pc ≠ .threads s ended) : Tracked machine command original c' :=
  ⟨writer ▸ tracked.writer, reader ▸ tracked.reader, fun _ s ended pc => absurd pc (outside s ended)⟩

theorem Tracked.write {data : List UInt8} (tracked : Tracked machine command original c)
    (written : c.write data = some c') :
    c'.reader = c.reader ∧ ∀ writer, c'.writer = some writer →
      sourceFile machine command = some writer.stream.path → original = some [] := by
  obtain ⟨writer, opened, rfl⟩ := write_eq written
  refine ⟨rfl, ?_⟩
  intro writer' there same
  cases there
  rw [FileDataWriter.write_path] at same
  exact tracked.writer writer opened same

theorem Tracked.step {action : Action} (kept : sourceBytes machine command c.disk = original)
    (tracked : Tracked machine command original c)
    (next : step machine command c action = some c')
    (kept' : sourceBytes machine command c'.disk = original) :
    Tracked machine command original c' := by
  cases step_move next with
  | threads pc started =>
    refine ⟨tracked.writer, tracked.reader, ?_⟩
    intro _ s ended there
    cases there
    exact .start started
  | process pc => exact tracked.of_same rfl rfl (by simp)
  | failed pc refused => exact tracked.of_same rfl rfl (by simp)
  | event pc other => exact tracked.of_same rfl rfl (by simp)
  | built pc built =>
    have creating : ∀ {rest s ended}, CopyPc.creating rest ≠ .threads s ended := by simp
    cases built with
    | kept notDest => exact tracked.of_same rfl rfl (by simp)
    | source opened =>
      refine ⟨tracked.writer, ?_, fun _ _ _ there => absurd there creating⟩
      intro empty reader there
      cases there
      obtain ⟨path, drained⟩ := open_eq opened
      exact ⟨path ▸ (sourceFile_empty (kept.trans empty)).1, drained⟩
    | dest set opens =>
      refine ⟨?_, tracked.reader, fun _ _ _ there => absurd there creating⟩
      intro writer there same
      cases there
      by_contra filled
      exact (truncate_kept_iff kept).mp kept' ⟨same, filled⟩
  | @fetch reader count opened =>
    refine ⟨tracked.writer, ?_, tracked.threads⟩
    intro empty reader' there
    cases there
    obtain ⟨path, drained⟩ := tracked.reader empty reader opened
    refine ⟨path, drained.fetch ?_ count⟩
    simpa [sourceBytes, path] using kept.trans empty
  | read pc producer read =>
    obtain ⟨reader, opened, rfl⟩ := Option.map_eq_some_iff.mp read
    have reads : original = some [] → (reader.read c.disk).1 = [] ∧
        sourceFile machine command = some (reader.read c.disk).2.path ∧
        Drained (reader.read c.disk).2 := by
      intro empty
      obtain ⟨path, drained⟩ := tracked.reader empty reader opened
      have there := kept.trans empty
      rw [sourceBytes, path, Option.bind_some] at there
      obtain ⟨nothing, drained'⟩ := drained.read there
      exact ⟨nothing, path, drained'⟩
    dsimp only
    split
    · refine ⟨tracked.writer, ?_, ?_⟩
      · intro empty reader' there
        cases there
        exact (reads empty).2
      · intro empty s ended there
        cases there
        have quiet := tracked.threads empty _ _ pc
        exact ⟨quiet.ring, quiet.accepted, Or.inr rfl, quiet.producer, quiet.consumer⟩
    · rename_i filled
      refine ⟨tracked.writer, ?_, ?_⟩
      · intro empty
        exact absurd (reads empty).1 filled
      · intro empty
        exact absurd (reads empty).1 filled
  | thread pc stepped =>
    refine ⟨tracked.writer, tracked.reader, ?_⟩
    intro empty s ended there
    cases there
    exact (tracked.threads empty _ _ pc).step stepped
  | threadWrite pc writing next written =>
    obtain ⟨reader, writer⟩ := tracked.write written
    refine ⟨writer, reader ▸ tracked.reader, ?_⟩
    intro empty
    exact absurd writing ((tracked.threads empty _ _ pc).consumer _)
  | processWrite pc call written =>
    obtain ⟨reader, writer⟩ := tracked.write written
    refine ⟨writer, reader ▸ tracked.reader, ?_⟩
    intro _ s ended there
    cases there

/-- For every command, every machine and every disk, and in every run of `Create` and `Run`: the
    source file is as it was in every state, if and only if no step opens a destination for output
    that leads to it while there is something in it, and none of multi-process mode writes
    something there. -/
theorem source_kept_iff (machine : Machine) (command : SCommand) (disk : FileSystem)
    (actions : List Action) :
    Transition.Throughout (step machine command)
        (fun c => sourceBytes machine command c.disk = sourceBytes machine command disk)
        (start command disk) actions ↔
      Transition.Meets (step machine command)
        (fun c action => ¬ Damages machine command c action) (start command disk) actions :=
  Transition.throughout_iff_meets
    (J := Tracked machine command (sourceBytes machine command disk))
    (fun _ _ _ kept tracked next => step_kept_iff kept tracked next)
    (fun _ _ _ kept tracked next kept' => tracked.step kept next kept') actions _ rfl
    (.start command disk)

/-- The command of `-s a -d a`. -/
def ontoItself : ProgramOptions.VariablesMap where
  source := some [ascii "a"]
  destination := some (ascii "a")

/-- A file copied onto itself is empty when `Create` has opened it for output. -/
theorem source_emptied : ¬ ∀ (machine : Machine) (argc : Nat)
    (given : ProgramOptions.VariablesMap) (command : SCommand) (disk : FileSystem)
    (actions : List Action), ProgramOptions.parse argc given = some command →
      command.mode = .multiThread ∨ command.mode = .multiProcess →
        Transition.Throughout (step machine command)
          (fun c => sourceBytes machine command c.disk = sourceBytes machine command disk)
          (start command disk) actions := by
  intro always
  have kept := (always { MultiProcessTask.Platform.permissive [] with target := id } 5 ontoItself _
    (.single (ascii "a") [1, 2, 3]) [.create, .create, .create] rfl (Or.inl rfl)).of_run rfl
  exact absurd kept (by decide)

end FileTransfer.Copy
