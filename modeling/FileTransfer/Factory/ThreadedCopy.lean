import FileTransfer.Factory.SourceKept
import FileTransfer.Threads.Subsequence

/-!
# The two threads on the disk

`Copy` reads its source when the reading thread calls `Read`, `MultiThread` has the calls that follow
from all reads from the start. As long as the source stays as it is the first follows the second:
with the calls that its reader will still lead to, the state of its threads is one that `MultiThread`
reaches, and the destination holds what has been passed to the file writer.
-/

namespace FileTransfer

namespace Threads.MultiThread

/-- The state with more calls to come. -/
def State.withCalls (s : State) (later : List Call) : State := { s with calls := s.calls ++ later }

variable {capacity : Nat} {s s' : State} {later : List Call}

/-- More calls make a difference only to a reading thread that has none left. -/
theorem producerStep_withCalls (left : s.producer = .next → s.calls = [] → later = []) :
    producerStep capacity (s.withCalls later) =
      (producerStep capacity s).map (State.withCalls · later) := by
  obtain ⟨ring, running, calls, producer, consumer, written, atCall⟩ := s
  cases producer with
  | next =>
    cases calls with
    | nil =>
      cases left rfl rfl
      rfl
    | cons call calls => cases call <;> rfl
  | writeSpin chunk =>
    by_cases set : ring.buffer.state.writingEnabled = true <;>
      simp [producerStep, State.withCalls, writingEnabled, set]
  | writeSpinRunning chunk => cases running <;> rfl
  | writeCheck chunk =>
    cases running with
    | false => rfl
    | true =>
      by_cases empty : chunk = [] <;>
        simp [producerStep, State.withCalls, empty, Function.comp_def]
  | writing chunk =>
    by_cases outside : ring.writer = .idle <;>
      simp [producerStep, State.withCalls, outside, Function.comp_def]
  | written chunk => rfl
  | stopSpin =>
    by_cases set : ring.buffer.state.writingEnabled = true <;>
      simp [producerStep, State.withCalls, writingEnabled, set]
  | stopStore => rfl
  | finished => rfl

theorem consumerStep_withCalls (later : List Call) :
    consumerStep capacity (s.withCalls later) =
      (consumerStep capacity s).map (State.withCalls · later) := by
  obtain ⟨ring, running, calls, producer, consumer, written, atCall⟩ := s
  cases consumer with
  | loop => cases running <;> rfl
  | readSpin =>
    by_cases set : ring.buffer.state.readingEnabled = true <;>
      simp [consumerStep, State.withCalls, readingEnabled, set]
  | readSpinRunning => cases running <;> rfl
  | readCheck =>
    cases running with
    | false => rfl
    | true =>
      simp only [consumerStep, State.withCalls, if_true, Option.map_map]
      rfl
  | reading =>
    simp only [consumerStep, State.withCalls]
    cases ring.reader <;> simp only [Option.map_map] <;> rfl
  | writing chunk => rfl
  | stopping => rfl
  | finished => rfl
  | failed => rfl

theorem step_withCalls {action : Action} (next : step capacity s action = some s')
    (left : action = .producer → s.producer = .next → s.calls = [] → later = []) :
    step capacity (s.withCalls later) action = some (s'.withCalls later) := by
  cases action with
  | producer =>
    have more := @producerStep_withCalls capacity s later (left rfl)
    rw [show producerStep capacity s = some s' from next] at more
    exact more
  | consumer =>
    have more := @consumerStep_withCalls capacity s later
    rw [show consumerStep capacity s = some s' from next] at more
    exact more
  | consumerThrows =>
    obtain ⟨⟨chunk, writing⟩, rfl⟩ := consumerThrows_eq next
    simp [step, consumerThrows, State.withCalls, writing]

/-- The writing thread passes a chunk on in one step, and no other step does. -/
theorem step_written {action : Action} (next : step capacity s action = some s') :
    (∃ chunk, action = .consumer ∧ s.consumer = .writing chunk ∧
        s'.written = s.written ++ [chunk]) ∨
      (∀ chunk, action = .consumer → s.consumer ≠ .writing chunk) ∧ s'.written = s.written := by
  cases action with
  | producer => exact .inr ⟨by simp, (producerStep_frame next).2.1⟩
  | consumer =>
    cases consumerStep_move next <;> rename_i pc
    case write => exact .inl ⟨_, rfl, pc, rfl⟩
    all_goals exact .inr ⟨by simp [pc], rfl⟩
  | consumerThrows =>
    obtain ⟨-, rfl⟩ := consumerThrows_eq next
    exact .inr ⟨by simp, rfl⟩

end Threads.MultiThread

namespace Copy

open Posix
open MultiProcessTask (StartFault Build)
open Threads (MultiThread.State MultiThread.Action MultiThread.startCopy MultiThread.State.withCalls)

/-- The steps that do not damage the source, where those of the threads meet `ok`. -/
def Guarded (machine : Machine) (command : SCommand)
    (ok : MultiThread.State → MultiThread.Action → Prop) (c : Copy) (action : Action) : Prop :=
  ¬ Damages machine command c action ∧
    ∀ s ended thread, c.pc = .threads s ended → action = .thread thread → ok s thread

/-- A condition on the steps of the threads that does not look at the calls to come. -/
def Blind (ok : MultiThread.State → MultiThread.Action → Prop) : Prop :=
  ∀ s later action, ok (MultiThread.State.withCalls s later) action ↔ ok s action

/-- The calls that a reader will still lead to, when the disk stays as it is. -/
inductive Remaining (disk : FileSystem) (r : SourceReader) : Bool → List Call → Prop
  | ended : Remaining disk r true []
  | reading {whole last : FileDataReader} {fuel : Nat} {later : List Call}
      (delivers : Delivers r disk whole)
      (loop : FileDataTransferTask.loop FileDataReader.read fuel whole = some (later, last)) :
      Remaining disk r false later

variable {machine : Machine} {command : SCommand} {c c' : Copy} {disk disk' : FileSystem}
  {r : SourceReader} {ended : Bool} {later : List Call}
  {ok : MultiThread.State → MultiThread.Action → Prop}

theorem Remaining.fetch (h : Remaining disk r ended later) (count : Nat) :
    Remaining disk (r.fetch disk count) ended later := by
  cases h with
  | ended => exact .ended
  | reading delivers loop => exact .reading (delivers.fetch count) loop

/-- The next read leads to the first of the calls. -/
theorem Remaining.read (h : Remaining disk r false later) :
    ((r.read disk).1 = [] ∧ later = [.stop]) ∨
      (r.read disk).1 ≠ [] ∧ ∃ rest, later = .write (r.read disk).1 :: rest ∧
        Remaining disk (r.read disk).2 false rest := by
  cases h with
  | @reading whole last fuel _ delivers loop =>
    obtain ⟨chunk, delivers'⟩ := delivers.read
    rw [chunk]
    cases fuel with
    | zero => cases loop
    | succ fuel =>
      rcases first : whole.read with ⟨data, next⟩
      rw [first] at delivers'
      simp only [FileDataTransferTask.loop, first] at loop
      by_cases empty : data = []
      · rw [if_pos empty] at loop
        cases loop
        exact .inl ⟨empty, rfl⟩
      · rw [if_neg empty] at loop
        obtain ⟨⟨rest, last'⟩, looped, same⟩ := Option.map_eq_some_iff.mp loop
        cases same
        exact .inr ⟨empty, rest, rfl, .reading delivers' looped⟩

/-- What a reader fetches is what is in its file. -/
theorem fetch_congr (same : disk'.files r.path = disk.files r.path) (count : Nat) :
    r.fetch disk' count = r.fetch disk count := by
  rw [SourceReader.fetch, SourceReader.fetch, same]

theorem read_congr (same : disk'.files r.path = disk.files r.path) :
    r.read disk' = r.read disk := by
  rw [SourceReader.read, SourceReader.read, fetch_congr same]

/-- Without damage the source stays as it is. -/
theorem kept_tracked (run : Transition.Reaches (step machine command) (Guarded machine command ok)
    (start command disk) c) :
    sourceBytes machine command c.disk = sourceBytes machine command disk ∧
      Tracked machine command (sourceBytes machine command disk) c := by
  refine @Transition.Reaches.invariant _ _ _ _ _ _
    (fun c => sourceBytes machine command c.disk = sourceBytes machine command disk ∧
      Tracked machine command (sourceBytes machine command disk) c) run
    ⟨rfl, .start command disk⟩ ?_
  rintro t action u ⟨kept, tracked⟩ guard next
  have kept' := (step_kept_iff kept tracked next).mpr guard.1
  exact ⟨kept', tracked.step kept next kept'⟩

/-- The source as the program finds it. -/
def original (machine : Machine) (command : SCommand) (disk : FileSystem) : List UInt8 :=
  (sourceBytes machine command disk).getD []

/-- The source has been opened, and nothing of it delivered. -/
def Opened (machine : Machine) (command : SCommand) (disk : FileSystem) (c : Copy) : Prop :=
  ∃ r, c.reader = some r ∧ sourceFile machine command = some r.path ∧
    Delivers r disk (FileDataReader.create (original machine command disk) defaultChunkSize)

/-- The threads are where `MultiThread` has got to from `s₀`, and the destination holds what has been
    passed to the file writer. -/
structure Follows (machine : Machine) (command : SCommand) (disk : FileSystem)
    (ok : MultiThread.State → MultiThread.Action → Prop) (s₀ : MultiThread.State) (c : Copy)
    (s : MultiThread.State) (ended : Bool) : Prop where
  source : ∃ r later, c.reader = some r ∧ sourceFile machine command = some r.path ∧
    Remaining disk r ended later ∧
    Threads.MultiThread.Reaches bufferSize ok s₀ (MultiThread.State.withCalls s later)
  dest : ∃ writer, c.writer = some writer ∧ writer.stream.AtEnd c.disk s.written.flatten

/-- Where a copy in multi-thread mode is. -/
def Phase (machine : Machine) (command : SCommand) (disk : FileSystem)
    (ok : MultiThread.State → MultiThread.Action → Prop) (s₀ : MultiThread.State) (c : Copy) : Prop :=
  match c.pc with
  | .creating [.checkSources, .openSource, .openDest] => c.writer = none
  | .creating [.openSource, .openDest] => c.writer = none ∧ (source command).isSome = true
  | .creating [.openDest] => c.writer = none ∧ Opened machine command disk c
  | .creating [] => Opened machine command disk c ∧
      ∃ writer, c.writer = some writer ∧ writer.stream.AtEnd c.disk []
  | .creating _ => False
  | .failed _ => c.writer = none
  | .threads s ended => Follows machine command disk ok s₀ c s ended
  | .process _ => False

theorem sourceBytes_path (kept : sourceBytes machine command disk' = sourceBytes machine command disk)
    (there : sourceFile machine command = some r.path) :
    disk'.files r.path = disk.files r.path := by
  simpa [sourceBytes, there] using kept

theorem open_delivers {name : Path} (set : source command = some name)
    (opened : SourceReader.open machine disk' name = .ok r) :
    sourceFile machine command = some r.path ∧
      Delivers r disk (FileDataReader.create (original machine command disk) defaultChunkSize) := by
  unfold SourceReader.open at opened
  split at opened
  · rename_i reader fileOpened
    cases opened
    have there : sourceFile machine command = some (machine.fileOf name) := by
      rw [sourceFile, set, Option.map_some]
    obtain ⟨bytes, rfl⟩ : ∃ bytes, reader = FileDataReader.create bytes defaultChunkSize := by
      unfold FileDataReader.open at fileOpened
      split at fileOpened
      · cases fileOpened
        exact ⟨_, rfl⟩
      · split at fileOpened
        · cases fileOpened
        · split at fileOpened <;> cases fileOpened
    refine ⟨there, ?_, rfl, rfl⟩
    simp [FileDataReader.create, original, sourceBytes, there]
  · cases opened

theorem Opened.fetch (h : Opened machine command disk c) {reader : SourceReader}
    (kept : sourceBytes machine command c.disk = sourceBytes machine command disk)
    (there : c.reader = some reader) (count : Nat) :
    Opened machine command disk { c with reader := some (reader.fetch c.disk count) } := by
  obtain ⟨r, opened, path, delivers⟩ := h
  rw [there] at opened
  cases opened
  refine ⟨_, rfl, path, ?_⟩
  rw [fetch_congr (sourceBytes_path kept path)]
  exact delivers.fetch count

variable {s₀ s : MultiThread.State}

/-- `Run` begins where the start of `MultiThread` is, but for the calls to come. -/
theorem Follows.begin (started : MultiThread.startCopy bufferSize (original machine command disk) =
      some s₀)
    (begun : Threads.MultiThread.start bufferSize [] = some s) (opened : Opened machine command disk c)
    (dest : ∃ writer, c.writer = some writer ∧ writer.stream.AtEnd c.disk []) :
    Follows machine command disk ok s₀ { c with pc := .threads s false } s false := by
  obtain ⟨⟨calls, last⟩, loop, started⟩ := Option.bind_eq_some_iff.mp started
  obtain ⟨buffer, created, rfl⟩ := Threads.MultiThread.start_eq begun
  obtain ⟨buffer', created', rfl⟩ := Threads.MultiThread.start_eq started
  cases created.symm.trans created'
  obtain ⟨r, there, path, delivers⟩ := opened
  exact ⟨⟨r, calls, there, path, .reading delivers loop, .refl⟩, dest⟩

theorem Phase.create (mode : command.mode = .multiThread)
    (started : MultiThread.startCopy bufferSize (original machine command disk) = some s₀)
    (h : Phase machine command disk ok s₀ c) (next : step machine command c .create = some c') :
    Phase machine command disk ok s₀ c' := by
  unfold Phase at h
  split at h <;> rename_i pc <;> simp only [step, pc] at next
  · simp only [perform] at next
    cases set : source command with
    | none =>
      simp only [set, Option.some.injEq] at next
      subst next
      exact h
    | some name =>
      simp only [set, Option.some.injEq] at next
      subst next
      exact ⟨h, by rw [set]; rfl⟩
  · obtain ⟨writer, there⟩ := h
    obtain ⟨name, set⟩ := Option.isSome_iff_exists.mp there
    simp only [perform, set, Option.getD_some] at next
    cases opened : SourceReader.open machine c.disk name with
    | ok reader =>
      simp only [opened, Option.some.injEq] at next
      subst next
      exact ⟨writer, reader, rfl, open_delivers set opened⟩
    | error fault =>
      simp only [opened, Option.some.injEq] at next
      subst next
      exact writer
  · obtain ⟨writer, opened⟩ := h
    split at next
    · rename_i c'' performed
      cases next
      cases perform_built performed with
      | kept notDest => exact absurd rfl notDest
      | dest set opens => exact ⟨opened, _, rfl, Function.update_self .., rfl⟩
    · cases next
      exact writer
  · obtain ⟨opened, dest⟩ := h
    rw [beginRun, mode] at next
    obtain ⟨s, begun, rfl⟩ := Option.map_eq_some_iff.mp next
    exact Follows.begin started begun opened dest
  · exact h.elim
  · cases next
  · cases next
  · exact h.elim

theorem Phase.fetch {count : Nat}
    (kept : sourceBytes machine command c.disk = sourceBytes machine command disk)
    (h : Phase machine command disk ok s₀ c)
    (next : step machine command c (.fetch count) = some c') :
    Phase machine command disk ok s₀ c' := by
  simp only [step] at next
  obtain ⟨reader, there, rfl⟩ := Option.map_eq_some_iff.mp next
  unfold Phase at h ⊢
  dsimp only
  split at h
  · exact h
  · exact h
  · exact ⟨h.1, h.2.fetch kept there count⟩
  · exact ⟨h.1.fetch kept there count, h.2⟩
  · exact h
  · exact h
  · obtain ⟨⟨r, later, opened, path, remaining, run⟩, dest⟩ := h
    rw [there] at opened
    cases opened
    refine ⟨⟨_, later, rfl, path, ?_, run⟩, dest⟩
    rw [fetch_congr (sourceBytes_path kept path)]
    exact remaining.fetch count
  · exact h

/-- The reading thread reads. -/
theorem Follows.read (kept : sourceBytes machine command c.disk = sourceBytes machine command disk)
    (h : Follows machine command disk ok s₀ c s false) (none : s.calls = [])
    (next : c.readSource s = some c') : Phase machine command disk ok s₀ c' := by
  obtain ⟨⟨r, later, opened, path, remaining, run⟩, dest⟩ := h
  obtain ⟨reader, there, rfl⟩ := Option.map_eq_some_iff.mp next
  rw [opened] at there
  cases there
  rw [read_congr (sourceBytes_path kept path)]
  rcases remaining.read with ⟨empty, rfl⟩ | ⟨filled, rest, rfl, remaining'⟩
  · simp only [empty, if_true]
    refine ⟨⟨_, [], rfl, path, .ended, ?_⟩, dest⟩
    simpa [MultiThread.State.withCalls, none] using run
  · simp only [if_neg filled]
    refine ⟨⟨_, rest, rfl, path, remaining', ?_⟩, dest⟩
    simpa [MultiThread.State.withCalls, none] using run

/-- A step of the threads that reads nothing. -/
theorem Follows.step {action : MultiThread.Action} {s' : MultiThread.State} (blind : Blind ok)
    (h : Follows machine command disk ok s₀ c s ended) (guard : ok s action)
    (noRead : ¬ (action = .producer ∧ s.producer = .next ∧ s.calls = [] ∧ ended = false))
    (next : Threads.MultiThread.step bufferSize s action = some s') :
    ∃ r later, c.reader = some r ∧ sourceFile machine command = some r.path ∧
      Remaining disk r ended later ∧
      Threads.MultiThread.Reaches bufferSize ok s₀ (MultiThread.State.withCalls s' later) := by
  obtain ⟨⟨r, later, opened, path, remaining, run⟩, -⟩ := h
  refine ⟨r, later, opened, path, remaining, ?_⟩
  refine .tail run ((blind s later action).mpr guard) ?_
  apply Threads.MultiThread.step_withCalls next
  intro producer atNext none
  cases remaining with
  | ended => rfl
  | reading delivers loop => exact absurd ⟨producer, atNext, none, rfl⟩ noRead

/-- What is written to the destination is appended to it. -/
theorem write_dest {chunk written : List UInt8} (there : ∃ writer, c.writer = some writer ∧
      writer.stream.AtEnd c.disk written) (done : c.write chunk = some c') :
    c'.reader = c.reader ∧ ∃ writer, c'.writer = some writer ∧
      writer.stream.AtEnd c'.disk (written ++ chunk) := by
  obtain ⟨writer, opened, atEnd⟩ := there
  obtain ⟨writer', opened', rfl⟩ := write_eq done
  rw [opened] at opened'
  cases opened'
  refine ⟨rfl, _, rfl, ?_⟩
  unfold FileDataWriter.write
  by_cases empty : chunk = []
  · simpa [empty] using atEnd
  · rw [if_neg empty]
    exact atEnd.write chunk

theorem Phase.thread {action : MultiThread.Action} (blind : Blind ok)
    (kept : sourceBytes machine command c.disk = sourceBytes machine command disk)
    (h : Phase machine command disk ok s₀ c) (guard : Guarded machine command ok c (.thread action))
    (next : step machine command c (.thread action) = some c') :
    Phase machine command disk ok s₀ c' := by
  unfold Phase at h
  split at h <;> rename_i pc <;> simp only [step, pc, reduceCtorEq] at next
  rename_i s ended
  have allowed := guard.2 s ended action pc rfl
  unfold threadStep at next
  split at next
  · rename_i reads
    obtain ⟨-, -, none, rfl⟩ := reads
    exact h.read kept none next
  · rename_i noRead
    obtain ⟨s', stepped, next⟩ := Option.bind_eq_some_iff.mp next
    obtain ⟨r, later, opened, path, remaining, run⟩ := h.step blind allowed noRead stepped
    rcases Threads.MultiThread.step_written stepped with
      ⟨chunk, rfl, writing, written⟩ | ⟨other, written⟩
    · simp only [writing] at next
      obtain ⟨c'', done, rfl⟩ := Option.map_eq_some_iff.mp next
      obtain ⟨reader, dest⟩ := write_dest h.dest done
      refine ⟨⟨r, later, reader.trans opened, path, remaining, run⟩, ?_⟩
      rw [written, List.flatten_append, List.flatten_singleton]
      exact dest
    · split at next
      · rename_i chunk writing _
        exact absurd writing (other chunk rfl)
      · cases next
        refine ⟨⟨r, later, opened, path, remaining, run⟩, ?_⟩
        rw [written]
        exact h.dest

/-- Every state of a copy in multi-thread mode is one of the phases. -/
theorem Phase.of_reaches (mode : command.mode = .multiThread) (blind : Blind ok)
    (started : MultiThread.startCopy bufferSize (original machine command disk) = some s₀)
    (run : Transition.Reaches (step machine command) (Guarded machine command ok)
      (start command disk) c) : Phase machine command disk ok s₀ c := by
  refine run.invariant_of (fun _ reached => kept_tracked reached) ?_ ?_
  · rw [start, mode]
    rfl
  · intro c action c' known h guard next
    cases action with
    | create => exact h.create mode started next
    | fetch count => exact h.fetch known.1 next
    | thread action => exact h.thread blind known.1 guard next
    | process event =>
      unfold Phase at h
      split at h <;> rename_i pc <;> simp only [step, pc, reduceCtorEq] at next
      exact h.elim

/-- What a copy may have done to the disk: a destination that is open is the one that the command
    names, no other file has changed, and none at all before it is opened. -/
structure Confined (machine : Machine) (command : SCommand) (disk : FileSystem) (c : Copy) :
    Prop where
  writer : ∀ writer, c.writer = some writer →
    ∃ dest, command.dest = some dest ∧ writer.stream.path = machine.fileOf dest
  unopened : c.writer = none → c.disk = disk
  files : ∀ path, command.dest.map machine.fileOf ≠ some path → c.disk.files path = disk.files path
  directories : c.disk.directories = disk.directories

theorem Confined.start (machine : Machine) (command : SCommand) (disk : FileSystem) :
    Confined machine command disk (start command disk) := by
  refine ⟨?_, fun _ => rfl, fun _ _ => rfl, rfl⟩
  intro writer opened
  cases opened

theorem Confined.of_same (h : Confined machine command disk c) (sameDisk : c'.disk = c.disk)
    (sameWriter : c'.writer = c.writer) : Confined machine command disk c' := by
  obtain ⟨writer, unopened, files, directories⟩ := h
  rw [← sameDisk] at unopened files directories
  rw [← sameWriter] at writer unopened
  exact ⟨writer, unopened, files, directories⟩

theorem Confined.write {chunk : List UInt8} (h : Confined machine command disk c)
    (done : c.write chunk = some c') : Confined machine command disk c' := by
  obtain ⟨writer, opened, rfl⟩ := write_eq done
  obtain ⟨dest, set, path⟩ := h.writer writer opened
  refine ⟨?_, (fun none => by cases none), ?_, ?_⟩
  · intro writer' there
    cases there
    exact ⟨dest, set, by rw [FileDataWriter.write_path, path]⟩
  · intro other notDest
    rw [← h.files other notDest]
    unfold FileDataWriter.write
    split
    · rfl
    · apply OfStream.write_of_ne
      rintro rfl
      exact notDest (by rw [set, path, Option.map_some])
  · rw [← h.directories]
    unfold FileDataWriter.write
    split <;> rfl

theorem Confined.built {build : Build} (h : Confined machine command disk c)
    (built : Built machine command c build c') : Confined machine command disk c' := by
  cases built with
  | kept notDest => exact h
  | source opened => exact h.of_same rfl rfl
  | @dest dest set opens =>
    refine ⟨?_, (fun none => by cases none), ?_, h.directories⟩
    · intro writer there
      cases there
      exact ⟨dest, set, rfl⟩
    · intro other notDest
      rw [← h.files other notDest]
      apply Function.update_of_ne
      rintro rfl
      exact notDest (by rw [set, Option.map_some])

theorem Confined.step {action : Action} (h : Confined machine command disk c)
    (next : step machine command c action = some c') : Confined machine command disk c' := by
  cases step_move next with
  | threads pc started => exact h.of_same rfl rfl
  | process pc => exact h.of_same rfl rfl
  | built pc built => exact (h.built built).of_same rfl rfl
  | failed pc refused => exact h.of_same rfl rfl
  | fetch count opened => exact h.of_same rfl rfl
  | read pc producer read =>
    obtain ⟨reader, opened, rfl⟩ := Option.map_eq_some_iff.mp read
    dsimp only
    split <;> exact h.of_same rfl rfl
  | thread pc next => exact h.of_same rfl rfl
  | threadWrite pc writing next written => exact (h.write written).of_same rfl rfl
  | event pc other => exact h.of_same rfl rfl
  | processWrite pc call written => exact (h.write written).of_same rfl rfl

theorem confined_of_reaches {guard : Copy → Action → Prop}
    (run : Transition.Reaches (step machine command) guard (start command disk) c) :
    Confined machine command disk c :=
  run.invariant (.start machine command disk) fun _ _ _ confined _ next => confined.step next

/-- The last step of `Create` opens the destination: while there are steps to come, and when one has
    failed, nothing has been opened for output. -/
structure Unopened (c : Copy) : Prop where
  creating : ∀ rest, c.pc = .creating rest →
    rest = [] ∨ c.writer = none ∧ ∃ before, rest = before ++ [.openDest] ∧ .openDest ∉ before
  failed : ∀ fault, c.pc = .failed fault → c.writer = none

theorem createSteps_openDest (mode : Mode) : createSteps mode = [] ∨
    ∃ before, createSteps mode = before ++ [.openDest] ∧ .openDest ∉ before := by
  cases mode with
  | multiThread => exact .inr ⟨[.checkSources, .openSource], rfl, by decide⟩
  | multiProcess => exact .inr ⟨(createSteps .multiProcess).dropLast, rfl, by decide⟩
  | _ => exact .inl rfl

theorem Unopened.start (command : SCommand) (disk : FileSystem) : Unopened (start command disk) := by
  refine ⟨?_, (fun fault failed => by cases failed)⟩
  intro rest pc
  cases pc
  exact (createSteps_openDest command.mode).imp_right fun last => ⟨rfl, last⟩

theorem Unopened.step {action : Action} (h : Unopened c)
    (next : step machine command c action = some c') : Unopened c' := by
  have running : ∀ {c : Copy}, (∀ rest, c.pc ≠ .creating rest) → (∀ fault, c.pc ≠ .failed fault) →
      Unopened c := fun creating failed =>
    ⟨fun rest pc => absurd pc (creating rest), fun fault pc => absurd pc (failed fault)⟩
  cases step_move next with
  | @built build rest c'' pc built =>
    refine ⟨?_, (fun fault failed => by cases failed)⟩
    intro rest' pc'
    cases pc'
    rcases h.creating _ pc with none | ⟨unopened, before, steps, notDest⟩
    · cases none
    · cases before with
      | nil =>
        cases steps
        exact .inl rfl
      | cons first before =>
        cases steps
        refine .inr ⟨?_, before, rfl, fun later => notDest (List.mem_cons_of_mem _ later)⟩
        cases built with
        | kept _ => exact unopened
        | source opened => exact unopened
        | dest set opens => exact absurd List.mem_cons_self notDest
  | failed pc refused =>
    refine ⟨(fun rest creating => by cases creating), ?_⟩
    intro fault' _
    rcases h.creating _ pc with none | ⟨unopened, -⟩
    · cases none
    · exact unopened
  | fetch count opened => exact ⟨h.creating, h.failed⟩
  | read pc producer read =>
    obtain ⟨reader, opened, rfl⟩ := Option.map_eq_some_iff.mp read
    dsimp only
    split <;> exact running (by simp) (by simp)
  | _ => exact running (by simp) (by simp)

/-- A copy in either mode, whatever happens in it: no file but the one that the destination's name
    leads to has changed in any state, no directory has, and a start that fails in `Create` has
    changed nothing at all. -/
theorem only_destination_changes (machine : Machine) (command : SCommand) (disk : FileSystem)
    {guard : Copy → Action → Prop}
    (run : Transition.Reaches (step machine command) guard (start command disk) c) :
    (∀ path, command.dest.map machine.fileOf ≠ some path →
        c.disk.files path = disk.files path) ∧
      c.disk.directories = disk.directories ∧ ∀ fault, c.pc = .failed fault → c.disk = disk := by
  have confined := confined_of_reaches run
  have unopened : Unopened c :=
    run.invariant (.start command disk) fun _ _ _ unopened _ next => unopened.step next
  exact ⟨confined.files, confined.directories, fun fault failed =>
    confined.unopened (unopened.failed fault failed)⟩

/-- The command of `-s a -d b`. -/
def aToB : SCommand :=
  { mode := .multiThread, sources := some [ascii "a"], dest := some (ascii "b"),
    sharedMemory := none, network := none, serverName := [], port := 0 }

/-- With the destination just opened, the source is as it was. -/
theorem only_destination_changes_small : ∃ c, Transition.Reaches
    (step { MultiProcessTask.Platform.permissive [] with target := id } aToB) (fun _ _ => True)
    (start aToB (.single (ascii "a") [1, 2, 3])) c ∧ c.writer.isSome = true ∧
    c.disk.files (ascii "a") = some [1, 2, 3] := by
  have run : Transition.Reaches
      (step { MultiProcessTask.Platform.permissive [] with target := id } aToB) (fun _ _ => True)
      (start aToB (.single (ascii "a") [1, 2, 3])) _ :=
    .of_run [.create, .create, .create] rfl fun _ _ _ => trivial
  exact ⟨_, run, rfl, (only_destination_changes _ _ _ run).1 (ascii "a") (by decide)⟩

/-- The steps that do no harm: they do not damage the source, no byte meets a full buffer, `Stop`
    finds the buffer covered, and the file writer does not throw. -/
def Harmless (machine : Machine) (command : SCommand) : Copy → Action → Prop :=
  Guarded machine command fun s action =>
    Threads.MultiThread.notFull s action ∧ Threads.MultiThread.drainedAtStop bufferSize s action

theorem harmless_dest (mode : command.mode = .multiThread)
    (run : Transition.Reaches (step machine command) (Harmless machine command)
      (start command disk) c)
    (pc : c.pc = .threads s ended) (finished : s.consumer = .finished) :
    ∃ dest, command.dest = some dest ∧
      c.disk.files (machine.fileOf dest) = some (original machine command disk) := by
  have fits : bufferSize ≤ Threads.CircularBuffer.maxSize := by decide
  obtain ⟨s₀, started⟩ := Option.isSome_iff_exists.mp
    (Threads.MultiThread.startCopy_isSome (original machine command disk) fits)
  have phase := Phase.of_reaches mode (fun _ _ _ => Iff.rfl) started run
  rw [Phase, pc] at phase
  obtain ⟨⟨r, later, -, -, -, reached⟩, writer, there, content, -⟩ := phase
  obtain ⟨dest, set, path⟩ := (confined_of_reaches run).writer writer there
  have whole := Threads.MultiThread.written_exact (by decide) started reached finished
  refine ⟨dest, set, ?_⟩
  rw [← path, content]
  exact congrArg some whole

end Copy

end FileTransfer
