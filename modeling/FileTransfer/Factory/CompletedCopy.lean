import FileTransfer.Factory.ThreadedCopy
import FileTransfer.Threads.SmoothRun

/-!
# Every copy can succeed

The other direction of `Follows`: what the threads of `MultiThread` can do, those of a copy can do on
the disk. So the schedule that loses nothing is one of the program's, from its first step on.
-/

namespace FileTransfer.Copy

open Posix
open Threads (MultiThread.State MultiThread.Action MultiThread.startCopy MultiThread.State.withCalls)

/-- The threads of the copy are at this state of `MultiThread`, and both files are open. -/
structure Tied (machine : Machine) (command : SCommand) (disk : FileSystem) (c : Copy)
    (s : MultiThread.State) (ended : Bool) (whole : MultiThread.State) : Prop where
  pc : c.pc = .threads s ended
  source : ∃ r later, c.reader = some r ∧ sourceFile machine command = some r.path ∧
    Remaining disk r ended later ∧ whole = MultiThread.State.withCalls s later
  dest : c.writer.isSome = true

variable {machine : Machine} {command : SCommand} {c : Copy} {disk : FileSystem} {ended : Bool}
  {s whole : MultiThread.State} {ok : MultiThread.State → MultiThread.Action → Prop}

/-- The steps of the threads do not open anything. -/
theorem guarded_thread {action : MultiThread.Action} (pc : c.pc = .threads s ended)
    (allowed : ok s action) : Guarded machine command ok c (.thread action) := by
  refine ⟨by rintro ⟨⟩, ?_⟩
  intro s' ended' action' pc' same
  rw [pc] at pc'
  cases pc'
  cases same
  exact allowed

/-- A reading thread that has no call left reads, and then has one. -/
theorem Tied.read (h : Tied machine command disk c s false whole)
    (kept : sourceBytes machine command c.disk = sourceBytes machine command disk)
    (atNext : s.producer = .next) (none : s.calls = []) :
    ∃ c' s' ended', step machine command c (.thread .producer) = some c' ∧
      Tied machine command disk c' s' ended' whole ∧ s'.calls ≠ [] := by
  obtain ⟨pc, ⟨r, later, opened, path, remaining, rfl⟩, dest⟩ := h
  have reads : step machine command c (.thread .producer) = c.readSource s := by
    simp [step, pc, threadStep, atNext, none]
  rw [reads, readSource, opened, Option.map_some, read_congr (sourceBytes_path kept path)]
  rcases remaining.read with ⟨empty, rfl⟩ | ⟨filled, rest, rfl, remaining'⟩
  · simp only [empty, if_true]
    refine ⟨_, _, _, rfl, ⟨rfl, ⟨_, [], rfl, path, .ended, ?_⟩, dest⟩, by simp⟩
    simp [MultiThread.State.withCalls, none]
  · simp only [if_neg filled]
    refine ⟨_, _, _, rfl, ⟨rfl, ⟨_, rest, rfl, path, remaining', ?_⟩, dest⟩, by simp⟩
    simp [MultiThread.State.withCalls, none]

/-- Any other step of the threads. -/
theorem Tied.step {action : MultiThread.Action} {whole' : MultiThread.State}
    (h : Tied machine command disk c s ended whole)
    (noRead : ¬ (action = .producer ∧ s.producer = .next ∧ s.calls = [] ∧ ended = false))
    (next : Threads.MultiThread.step bufferSize whole action = some whole') :
    ∃ c' s', Copy.step machine command c (.thread action) = some c' ∧
      Threads.MultiThread.step bufferSize s action = some s' ∧
      Tied machine command disk c' s' ended whole' := by
  obtain ⟨pc, ⟨r, later, opened, path, remaining, rfl⟩, dest⟩ := h
  obtain ⟨s', stepped, rfl⟩ : ∃ s', Threads.MultiThread.step bufferSize s action = some s' ∧
      MultiThread.State.withCalls s' later = whole' := by
    apply Option.map_eq_some_iff.mp
    rw [← next]
    cases action with
    | producer =>
      refine (Threads.MultiThread.producerStep_withCalls ?_).symm
      intro atNext none
      cases remaining with
      | ended => rfl
      | reading delivers loop => exact absurd ⟨rfl, atNext, none, rfl⟩ noRead
    | consumer => exact (Threads.MultiThread.consumerStep_withCalls later).symm
    | consumerThrows =>
      obtain ⟨⟨chunk, writing⟩, -⟩ := Threads.MultiThread.consumerThrows_eq next
      have writing : s.consumer = .writing chunk := writing
      simp [Threads.MultiThread.step, Threads.MultiThread.consumerThrows,
        MultiThread.State.withCalls, writing]
  simp only [Copy.step, pc, threadStep, if_neg noRead, stepped, Option.bind_some]
  split
  · rename_i chunk writing _ _
    obtain ⟨writer, there⟩ := Option.isSome_iff_exists.mp dest
    rw [write, there, Option.map_some, Option.map_some]
    exact ⟨_, s', rfl, rfl, rfl, ⟨r, later, opened, path, remaining, rfl⟩, rfl⟩
  · exact ⟨_, s', rfl, rfl, rfl, ⟨r, later, opened, path, remaining, rfl⟩, dest⟩

/-- What the threads of `MultiThread` can do, those of a copy can do. -/
theorem Tied.reaches (blind : Blind ok) {whole' : MultiThread.State}
    (reached : Transition.Reaches (Copy.step machine command) (Guarded machine command ok)
      (start command disk) c)
    (h : Tied machine command disk c s ended whole)
    (run : Threads.MultiThread.Reaches bufferSize ok whole whole') :
    ∃ c' s' ended', Transition.Reaches (Copy.step machine command) (Guarded machine command ok)
      (start command disk) c' ∧ Tied machine command disk c' s' ended' whole' := by
  refine @Transition.Reaches.invariant _ _ _ _ _ _
    (fun whole => ∃ c s ended, Transition.Reaches (Copy.step machine command)
      (Guarded machine command ok) (start command disk) c ∧
        Tied machine command disk c s ended whole) run ⟨c, s, ended, reached, h⟩ ?_
  rintro t action u ⟨c, s, ended, reached, h⟩ guard next
  -- The guard, as it is before the calls to come are appended.
  have allowed : ∀ {c s ended}, Tied machine command disk c s ended t → ok s action := by
    rintro c s ended ⟨-, ⟨r, later, -, -, -, rfl⟩, -⟩
    exact (blind s later action).mp guard
  by_cases reads : action = .producer ∧ s.producer = .next ∧ s.calls = [] ∧ ended = false
  · obtain ⟨rfl, atNext, none, rfl⟩ := reads
    obtain ⟨c₁, s₁, ended₁, first, tied, some_call⟩ :=
      h.read (kept_tracked reached).1 atNext none
    obtain ⟨c₂, s₂, second, -, tied'⟩ := tied.step (fun reads => some_call reads.2.2.1) next
    exact ⟨c₂, s₂, ended₁, .tail (.tail reached (guarded_thread h.pc (allowed h)) first)
      (guarded_thread tied.pc (allowed tied)) second, tied'⟩
  · obtain ⟨c₁, s₁, stepped, -, tied⟩ := h.step reads next
    exact ⟨c₁, s₁, ended, .tail reached (guarded_thread h.pc (allowed h)) stepped, tied⟩

/-- `Create` runs through, and `Run` starts both threads. -/
theorem create_runs {name dest : Path} {r : SourceReader} {s₀ : MultiThread.State}
    (mode : command.mode = .multiThread)
    (named : source command = some name) (readable : SourceReader.open machine disk name = .ok r)
    (set : command.dest = some dest)
    (opens : (machine.names disk).canOpen machine.host dest = true)
    (apart : machine.fileOf name ≠ machine.fileOf dest)
    (started : MultiThread.startCopy bufferSize (original machine command disk) = some s₀) :
    ∃ c s, Transition.Reaches (Copy.step machine command) (Guarded machine command ok)
      (start command disk) c ∧ Tied machine command disk c s false s₀ := by
  obtain ⟨⟨calls, last⟩, loop, started⟩ := Option.bind_eq_some_iff.mp started
  obtain ⟨buffer, created, rfl⟩ := Threads.MultiThread.start_eq started
  obtain ⟨path, delivers⟩ := @open_delivers machine command disk _ r name named readable
  -- The only step that could do damage opens the destination, which is another file.
  have harmless : ∀ {c : Copy}, (∀ s ended, c.pc ≠ .threads s ended) →
      ¬ Damages machine command c .create → Guarded machine command ok c .create :=
    fun outside kept => ⟨kept, fun s ended _ pc _ => absurd pc (outside s ended)⟩
  have checked : Copy.step machine command (start command disk) .create = some
      { start command disk with pc := .creating [.openSource, .openDest] } := by
    simp [Copy.step, start, mode, createSteps, perform, named]
  have sourced : Copy.step machine command
      { start command disk with pc := .creating [.openSource, .openDest] } .create = some
        { start command disk with reader := some r, pc := .creating [.openDest] } := by
    simp [Copy.step, start, perform, named, readable]
  have opened : Copy.step machine command
      { start command disk with reader := some r, pc := .creating [.openDest] } .create = some
        { disk :=
            { disk with files := Function.update disk.files (machine.fileOf dest) (some []) }
          reader := some r
          writer := some { stream := { path := machine.fileOf dest, position := 0 } }
          pc := .creating [] } := by
    simp [Copy.step, start, perform, set, openDest_of_canOpen opens]
  have begun : Threads.MultiThread.start bufferSize [] = some
      { ring := Threads.Ring.start buffer, running := true, calls := [], producer := .next,
        consumer := .loop, written := [], atCall := [] } := by
    simp [Threads.MultiThread.start, created]
  have running : Copy.step machine command
      { disk :=
          { disk with files := Function.update disk.files (machine.fileOf dest) (some []) }
        reader := some r
        writer := some { stream := { path := machine.fileOf dest, position := 0 } }
        pc := .creating [] } .create = some
      { disk :=
          { disk with files := Function.update disk.files (machine.fileOf dest) (some []) }
        reader := some r
        writer := some { stream := { path := machine.fileOf dest, position := 0 } }
        pc := .threads
          { ring := Threads.Ring.start buffer, running := true, calls := [], producer := .next,
            consumer := .loop, written := [], atCall := [] } false } := by
    simp [Copy.step, beginRun, mode, begun]
  refine ⟨_, _, .tail (.tail (.tail (.single ?_ checked) ?_ sourced) ?_ opened) ?_ running, rfl,
    ⟨r, calls, rfl, path, .reading delivers loop, rfl⟩, rfl⟩
  · exact harmless (by simp [start]) (not_damages_create (by simp [start, mode, createSteps]))
  · exact harmless (by simp) (not_damages_create (by simp))
  · refine harmless (by simp) ?_
    rintro ⟨pc, set', -, same, -⟩
    rw [set] at set'
    cases set'
    rw [sourceFile, named] at same
    exact apart (Option.some.inj same)
  · exact harmless (by simp) (not_damages_create (by simp))

theorem Guarded.mono {ok' : MultiThread.State → MultiThread.Action → Prop} {action : Action}
    (h : Guarded machine command ok c action) (weaker : ∀ s a, ok s a → ok' s a) :
    Guarded machine command ok' c action :=
  ⟨h.1, fun s ended thread pc same => weaker _ _ (h.2 s ended thread pc same)⟩

/-- Where the source can be read and the destination is another file that can be opened, some smooth
    run has both threads return. -/
theorem smooth_run {name dest : Path} {r : SourceReader} (mode : command.mode = .multiThread)
    (named : source command = some name) (readable : SourceReader.open machine disk name = .ok r)
    (set : command.dest = some dest)
    (opens : (machine.names disk).canOpen machine.host dest = true)
    (apart : machine.fileOf name ≠ machine.fileOf dest) :
    ∃ c s ended, Transition.Reaches (step machine command)
        (Guarded machine command (Threads.MultiThread.smooth bufferSize)) (start command disk) c ∧
      c.pc = .threads s ended ∧ c.writer.isSome = true ∧ s.producer = .finished ∧
      s.consumer = .finished := by
  have fits : bufferSize ≤ Threads.CircularBuffer.maxSize := by decide
  obtain ⟨s₀, started⟩ := Option.isSome_iff_exists.mp
    (Threads.MultiThread.startCopy_isSome (original machine command disk) fits)
  obtain ⟨t, smooth, finished⟩ := Threads.MultiThread.smooth_run (by decide) started
  obtain ⟨c, s, created, tied⟩ := create_runs mode named readable set opens apart started
  obtain ⟨c', s', ended, reached, pc, ⟨r', later, -, -, -, rfl⟩, opened⟩ :=
    tied.reaches (fun _ _ _ => Iff.rfl) created smooth
  exact ⟨c', s', ended, reached, pc, opened, finished⟩

/-- Smooth steps are harmless. -/
theorem harmless_of_smooth {action : Action}
    (h : Guarded machine command (Threads.MultiThread.smooth bufferSize) c action) :
    Harmless machine command c action :=
  h.mono fun _ _ smooth => ⟨smooth.1, smooth.2.1⟩

/-- So some run of harmless steps has both threads return. -/
theorem harmless_run {name dest : Path} {r : SourceReader} (mode : command.mode = .multiThread)
    (named : source command = some name) (readable : SourceReader.open machine disk name = .ok r)
    (set : command.dest = some dest)
    (opens : (machine.names disk).canOpen machine.host dest = true)
    (apart : machine.fileOf name ≠ machine.fileOf dest) :
    ∃ c s ended, Transition.Reaches (step machine command) (Harmless machine command)
        (start command disk) c ∧ c.pc = .threads s ended ∧ c.writer.isSome = true ∧
      s.producer = .finished ∧ s.consumer = .finished := by
  obtain ⟨c, s, ended, run, there⟩ := smooth_run mode named readable set opens apart
  exact ⟨c, s, ended, run.mono fun _ _ => harmless_of_smooth, there⟩

/-- The machine on which every name is a file of its own and nothing is refused. -/
def plainMachine : Machine := { MultiProcessTask.Platform.permissive [] with target := id }

/-- `-s a -d b` with three bytes in `a`. -/
theorem harmless_run_small : ∃ c s ended,
    Transition.Reaches (step plainMachine aToB) (Harmless plainMachine aToB)
      (start aToB (.single (ascii "a") [1, 2, 3])) c ∧ c.pc = .threads s ended ∧
    c.writer.isSome = true ∧ s.producer = .finished ∧ s.consumer = .finished :=
  @harmless_run plainMachine aToB (.single (ascii "a") [1, 2, 3]) (ascii "a") (ascii "b") _ rfl rfl
    rfl rfl rfl (by decide)

/-- Whatever the schedule of the two threads is, and wherever the file writer throws: while the
    source is not damaged, an open destination holds a subsequence of the bytes of the source. -/
theorem destination_subsequence (machine : Machine) (command : SCommand) (disk : FileSystem)
    (mode : command.mode = .multiThread)
    (run : Transition.Reaches (step machine command)
      (fun c action => ¬ Damages machine command c action) (start command disk) c)
    (opened : c.writer.isSome = true) :
    ∃ dest bytes, command.dest = some dest ∧ c.disk.files (machine.fileOf dest) = some bytes ∧
      List.Sublist bytes (original machine command disk) := by
  have fits : bufferSize ≤ Threads.CircularBuffer.maxSize := by decide
  obtain ⟨s₀, started⟩ := Option.isSome_iff_exists.mp
    (Threads.MultiThread.startCopy_isSome (original machine command disk) fits)
  have phase : Phase machine command disk (fun _ _ => True) s₀ c := by
    apply Phase.of_reaches mode (fun _ _ _ => Iff.rfl) started
    exact run.mono fun _ _ guard => ⟨guard, fun _ _ _ _ _ => trivial⟩
  obtain ⟨writer, there⟩ := Option.isSome_iff_exists.mp opened
  obtain ⟨dest, set, path⟩ := (confined_of_reaches run).writer writer there
  refine ⟨dest, ?_⟩
  rw [← path]
  unfold Phase at phase
  split at phase
  · rw [there] at phase
    cases phase
  · rw [there] at phase
    cases phase.1
  · rw [there] at phase
    cases phase.1
  · obtain ⟨-, writer', there', content, -⟩ := phase
    rw [there] at there'
    cases there'
    exact ⟨[], set, content, List.nil_sublist _⟩
  · exact phase.elim
  · rw [there] at phase
    cases phase
  · obtain ⟨⟨r, later, -, -, -, reached⟩, writer', there', content, -⟩ := phase
    rw [there] at there'
    cases there'
    have sublist := Threads.MultiThread.written_sublist (by decide) started reached
    exact ⟨_, set, content, sublist⟩
  · exact phase.elim

/-- What `-s a -d b` leaves in `b` is some of the three bytes of `a`, in their order. -/
theorem destination_subsequence_small : ∃ c, Transition.Reaches (step plainMachine aToB)
      (fun c action => ¬ Damages plainMachine aToB c action)
      (start aToB (.single (ascii "a") [1, 2, 3])) c ∧ c.writer.isSome = true ∧
    ∃ bytes, c.disk.files (ascii "b") = some bytes ∧ List.Sublist bytes [1, 2, 3] := by
  obtain ⟨c, s, ended, run, pc, opened, -⟩ := harmless_run_small
  have undamaged : Transition.Reaches (step plainMachine aToB)
      (fun c action => ¬ Damages plainMachine aToB c action)
      (start aToB (.single (ascii "a") [1, 2, 3])) c :=
    run.mono fun _ _ guard => guard.1
  obtain ⟨dest, bytes, set, content, sublist⟩ :=
    destination_subsequence plainMachine aToB _ rfl undamaged opened
  cases set
  exact ⟨c, undamaged, opened, bytes, content, sublist⟩

/-- After every run of harmless steps at whose end the writing thread has left its loop, the
    destination holds the bytes of the source. -/
theorem destination_exact (machine : Machine) (command : SCommand) (disk : FileSystem)
    (mode : command.mode = .multiThread)
    (run : Transition.Reaches (step machine command) (Harmless machine command)
      (start command disk) c)
    (pc : c.pc = .threads s ended) (finished : s.consumer = .finished) :
    ∃ dest, command.dest = some dest ∧
      c.disk.files (machine.fileOf dest) = some (original machine command disk) :=
  harmless_dest mode run pc finished

/-- After such a run of `-s a -d b` the three bytes of `a` are in `b`. -/
theorem destination_exact_small : ∃ c, Transition.Reaches (step plainMachine aToB)
      (Harmless plainMachine aToB) (start aToB (.single (ascii "a") [1, 2, 3])) c ∧
    c.disk.files (ascii "b") = some [1, 2, 3] := by
  obtain ⟨c, s, ended, run, pc, -, -, finished⟩ := harmless_run_small
  obtain ⟨dest, set, content⟩ := destination_exact plainMachine aToB _ rfl run pc finished
  cases set
  exact ⟨c, run, content⟩

/-- Every copy in multi-thread mode can succeed: where the source can be read and the destination is
    another file that can be opened, some run of harmless steps has both threads return, and then
    the destination holds the bytes of the source. -/
theorem copy_can_succeed (machine : Machine) (command : SCommand) (disk : FileSystem)
    {name dest : Path} {r : SourceReader} (mode : command.mode = .multiThread)
    (named : source command = some name) (readable : SourceReader.open machine disk name = .ok r)
    (set : command.dest = some dest)
    (opens : (machine.names disk).canOpen machine.host dest = true)
    (apart : machine.fileOf name ≠ machine.fileOf dest) :
    ∃ c s ended, Transition.Reaches (step machine command) (Harmless machine command)
        (start command disk) c ∧ c.pc = .threads s ended ∧ s.producer = .finished ∧
      s.consumer = .finished ∧
      c.disk.files (machine.fileOf dest) = some (original machine command disk) := by
  obtain ⟨c, s, ended, run, pc, -, finished⟩ :=
    harmless_run mode named readable set opens apart
  obtain ⟨dest', set', content⟩ := harmless_dest mode run pc finished.2
  rw [set] at set'
  cases set'
  exact ⟨c, s, ended, run, pc, finished.1, finished.2, content⟩

/-- `-s a -d b` with three bytes in `a`. -/
theorem copy_can_succeed_small : ∃ c s ended,
    Transition.Reaches (step plainMachine aToB) (Harmless plainMachine aToB)
      (start aToB (.single (ascii "a") [1, 2, 3])) c ∧ c.pc = .threads s ended ∧
    s.producer = .finished ∧ s.consumer = .finished ∧
    c.disk.files (ascii "b") = some [1, 2, 3] :=
  @copy_can_succeed plainMachine aToB (.single (ascii "a") [1, 2, 3]) (ascii "a") (ascii "b") _ rfl
    rfl rfl rfl rfl (by decide)

end FileTransfer.Copy
