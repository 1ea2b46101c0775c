import FileTransfer.Factory.CompletedCopy
import FileTransfer.Threads.Termination

/-!
# Every fair copy ends

`Create` goes on as long as there are steps left in it. Then the threads are at a state of
`MultiThread`, whose rank counts; below it, whether the reading thread has to read before its next
call. What the source's stream fetches leaves both alone.
-/

namespace FileTransfer.Copy

open Posix Fairness
open Threads (MultiThread.State MultiThread.Action MultiThread.startCopy MultiThread.State.withCalls
  MultiThread.flagKept)

/-- What `Create` has still to do. -/
def createLeft (c : Copy) : Nat :=
  match c.pc with
  | .creating rest => rest.length + 1
  | _ => 0

/-- A copy in `Create` that has not failed, and has not opened its destination before the end. -/
def Creating (disk : FileSystem) (c : Copy) : Prop :=
  ∃ rest, c.pc = .creating rest ∧ rest <:+ createSteps .multiThread ∧
    (rest ≠ [] → c.disk = disk)

/-- The reading thread has to read before its next call. -/
def readLeft (s : MultiThread.State) (ended : Bool) : Nat :=
  if s.calls = [] ∧ ended = false then 1 else 0

variable {machine : Machine} {command : SCommand} {c c' : Copy} {disk : FileSystem} {ended : Bool}
  {s s₀ whole : MultiThread.State} {ok : MultiThread.State → MultiThread.Action → Prop}

theorem Creating.start (mode : command.mode = .multiThread) :
    Creating disk (start command disk) :=
  ⟨_, rfl, mode ▸ List.suffix_rfl, fun _ => rfl⟩

/-- `Run` can start its threads. -/
theorem start_isSome : ∃ s, Threads.MultiThread.start bufferSize [] = some s := by
  have fits : bufferSize ≤ Threads.CircularBuffer.maxSize := by decide
  apply Option.isSome_iff_exists.mp
  simp [Threads.MultiThread.start, Threads.CircularBuffer.create, fits]

/-- Where the source can be read and the destination opened, `Create` goes on. -/
theorem Creating.create {name dest : Path} {r : SourceReader} (mode : command.mode = .multiThread)
    (named : source command = some name) (readable : SourceReader.open machine disk name = .ok r)
    (set : command.dest = some dest)
    (opens : (machine.names disk).canOpen machine.host dest = true) (h : Creating disk c) :
    ∃ c', step machine command c .create = some c' ∧ createLeft c' < createLeft c ∧
      (Creating disk c' ∨ ∃ s ended, c'.pc = .threads s ended) := by
  obtain ⟨rest, pc, suffix, same⟩ := h
  have which : rest = [] ∨ rest = [.openDest] ∨ rest = [.openSource, .openDest] ∨
      rest = [.checkSources, .openSource, .openDest] := by
    simpa [createSteps, List.suffix_cons_iff, or_comm, or_assoc, or_left_comm] using suffix
  rcases which with rfl | rfl | rfl | rfl
  · obtain ⟨s, begun⟩ := start_isSome
    refine ⟨{ c with pc := .threads s false }, ?_, ?_, Or.inr ⟨s, false, rfl⟩⟩
    · simp [step, pc, beginRun, mode, begun]
    · simp [createLeft, pc]
  · have opens' : (machine.names c.disk).canOpen machine.host dest = true := by
      rw [same (by simp)]
      exact opens
    have performed := openDest_of_canOpen opens'
    refine ⟨_, by simp only [step, pc, perform, set, performed]; rfl, ?_,
      Or.inl ⟨_, rfl, List.nil_suffix, by simp⟩⟩
    simp [createLeft, pc]
  · have performed : SourceReader.open machine c.disk name = .ok r := by
      rw [same (by simp)]
      exact readable
    refine ⟨{ c with reader := some r, pc := .creating [.openDest] }, ?_, ?_,
      Or.inl ⟨_, rfl, ⟨[.checkSources, .openSource], rfl⟩, fun _ => same (by simp)⟩⟩
    · simp only [step, pc, perform, named, Option.getD_some, performed]
    · simp [createLeft, pc]
  · refine ⟨{ c with pc := .creating [.openSource, .openDest] }, ?_, ?_,
      Or.inl ⟨_, rfl, ⟨[.checkSources], rfl⟩, fun _ => same (by simp)⟩⟩
    · simp only [step, pc, perform, named]
    · simp [createLeft, pc]

/-- The threads get started. -/
theorem Creating.eventually_threads {name dest : Path} {r : SourceReader} {state : Nat → Copy}
    {schedule : Nat → Action} (mode : command.mode = .multiThread)
    (named : source command = some name) (readable : SourceReader.open machine disk name = .ok r)
    (set : command.dest = some dest)
    (opens : (machine.names disk).canOpen machine.host dest = true)
    (execution : Execution (step machine command) (Guarded machine command ok) state schedule)
    (creating : Fair schedule .create) (here : Creating disk (state 0)) :
    ∃ n s ended, (state n).pc = .threads s ended := by
  let there (c : Copy) : Prop := ∃ s ended, c.pc = .threads s ended
  have create : ∀ c, Creating disk c → ∃ c', step machine command c .create = some c' ∧
      createLeft c' < createLeft c ∧ (Creating disk c' ∨ there c') :=
    fun c h => h.create mode named readable set opens
  have either : ∀ c action c', Creating disk c → step machine command c action = some c' →
      (there c' ∨ Creating disk c') ∧
        (createLeft c' < createLeft c ∨ createLeft c' = createLeft c) := by
    intro c action c' h next
    cases action with
    | create =>
      obtain ⟨c'', next', less, there'⟩ := create c h
      cases next.symm.trans next'
      exact ⟨there'.symm, Or.inl less⟩
    | fetch count =>
      simp only [step] at next
      obtain ⟨reader, -, rfl⟩ := Option.map_eq_some_iff.mp next
      exact ⟨Or.inr h, Or.inr rfl⟩
    | thread thread =>
      obtain ⟨rest, pc, -⟩ := h
      simp [step, pc] at next
    | process event =>
      obtain ⟨rest, pc, -⟩ := h
      simp [step, pc] at next
  have keep : ∀ c action c', Creating disk c → ¬ there c → Guarded machine command ok c action →
      step machine command c action = some c' → there c' ∨ Creating disk c' :=
    fun c action c' h _ _ next => (either c action c' h next).1
  have advance : ∀ c, Creating disk c → ¬ there c →
      ∃ c', step machine command c .create = some c' ∧ createLeft c' < createLeft c := by
    intro c h _
    obtain ⟨c', next, less, -⟩ := create c h
    exact ⟨c', next, less⟩
  have other : ∀ c action c', Creating disk c → ¬ there c → Guarded machine command ok c action →
      step machine command c action = some c' →
      createLeft c' < createLeft c ∨ createLeft c' = createLeft c ∧ Action.create = .create :=
    fun c action c' h _ _ next => (either c action c' h next).2.imp_right fun same => ⟨same, rfl⟩
  obtain ⟨n, -, threads⟩ := execution.eventually createLeft (fun _ => .create) keep
    (fun _ _ _ => creating) advance other 0 here
  exact ⟨n, threads⟩

theorem Tied.places (h : Tied machine command disk c s ended whole) :
    whole.producer = s.producer ∧ whole.consumer = s.consumer := by
  obtain ⟨-, ⟨r, later, -, -, -, rfl⟩, -⟩ := h
  exact ⟨rfl, rfl⟩

/-- A step of the threads that reads nothing is one of `MultiThread`. -/
theorem Tied.whole_step {action : MultiThread.Action} {s' : MultiThread.State}
    (h : Tied machine command disk c s ended whole)
    (noRead : ¬ (action = .producer ∧ s.producer = .next ∧ s.calls = [] ∧ ended = false))
    (next : Threads.MultiThread.step bufferSize s action = some s') :
    ∃ whole', Threads.MultiThread.step bufferSize whole action = some whole' := by
  obtain ⟨-, ⟨r, later, -, -, remaining, rfl⟩, -⟩ := h
  refine ⟨_, Threads.MultiThread.step_withCalls next ?_⟩
  intro producer atNext none
  cases remaining with
  | ended => rfl
  | reading delivers loop => exact absurd ⟨producer, atNext, none, rfl⟩ noRead

/-- Where the source's stream is makes no difference to the threads. -/
theorem Tied.fetch {count : Nat} (h : Tied machine command disk c s ended whole)
    (kept : sourceBytes machine command c.disk = sourceBytes machine command disk)
    (next : Copy.step machine command c (.fetch count) = some c') :
    Tied machine command disk c' s ended whole := by
  obtain ⟨pc, ⟨r, later, opened, path, remaining, same⟩, dest⟩ := h
  simp only [Copy.step] at next
  obtain ⟨reader, there, rfl⟩ := Option.map_eq_some_iff.mp next
  rw [opened] at there
  cases there
  refine ⟨pc, ⟨_, later, rfl, path, ?_, same⟩, dest⟩
  rw [fetch_congr (sourceBytes_path kept path)]
  exact remaining.fetch count

section Threads

open Threads.MultiThread (Keeping Finished)

/-- What counts when the threads run: the rank of `MultiThread`, and then a read before a call. -/
def copyRank (s : MultiThread.State) (ended : Bool) (whole : MultiThread.State) :
    (Nat ×ₗ Nat) ×ₗ Nat :=
  toLex (Threads.MultiThread.rank bufferSize whole, readLeft s ended)

/-- A step that leaves the rank as it is takes no call. -/
theorem calls_of_rank {action : MultiThread.Action} {s' whole' : MultiThread.State}
    (tied : Tied machine command disk c s ended whole) (allowed : MultiThread.flagKept s action)
    (next : Threads.MultiThread.step bufferSize s action = some s')
    (whole_next : Threads.MultiThread.step bufferSize whole action = some whole')
    (same : Threads.MultiThread.rank bufferSize whole' =
      Threads.MultiThread.rank bufferSize whole) : s'.calls = s.calls := by
  cases action with
  | producer =>
    refine Threads.MultiThread.producerStep_calls ?_ next
    rcases Threads.MultiThread.producerStep_left whole_next with less | ⟨waits, -⟩
    · have equal := congrArg (fun x => (ofLex x).1) same
      exact absurd equal (Nat.ne_of_lt less)
    · rw [← tied.places.1]
      intro atNext
      rw [atNext] at waits
      cases waits
  | consumer => exact (Threads.MultiThread.consumerStep_frame next).2.1
  | consumerThrows => exact absurd rfl allowed.1

/-- When the threads run, each step makes the rank lower, or it is not the one that counts and leaves
    it to the same thread. -/
theorem Tied.move {action : Action} (h : Tied machine command disk c s ended whole)
    (kept : sourceBytes machine command c.disk = sourceBytes machine command disk)
    (keeping : Keeping bufferSize whole) (guard : Guarded machine command MultiThread.flagKept c action)
    (next : Copy.step machine command c action = some c') :
    ∃ s' ended' whole', Tied machine command disk c' s' ended' whole' ∧
      Keeping bufferSize whole' ∧
      (copyRank s' ended' whole' < copyRank s ended whole ∨
        copyRank s' ended' whole' = copyRank s ended whole ∧
          Threads.MultiThread.helpful whole' = Threads.MultiThread.helpful whole ∧
          action ≠ .thread (Threads.MultiThread.helpful whole)) := by
  cases action with
  | create => simp [Copy.step, h.pc] at next
  | process event => simp [Copy.step, h.pc] at next
  | fetch count => exact ⟨s, ended, whole, h.fetch kept next, keeping, Or.inr ⟨rfl, rfl, by simp⟩⟩
  | thread action =>
    have allowed := guard.2 s ended action h.pc rfl
    by_cases reads : action = .producer ∧ s.producer = .next ∧ s.calls = [] ∧ ended = false
    · obtain ⟨rfl, atNext, none, rfl⟩ := reads
      obtain ⟨c₁, s₁, ended₁, read, tied, some_call⟩ := h.read kept atNext none
      cases next.symm.trans read
      refine ⟨s₁, ended₁, whole, tied, keeping, Or.inl (Prod.Lex.toLex_lt_toLex.mpr (Or.inr ⟨rfl, ?_⟩))⟩
      simp [readLeft, none, some_call]
    · obtain ⟨s₁, stepped⟩ :
          ∃ s', Threads.MultiThread.step bufferSize s action = some s' := by
        simp only [Copy.step, h.pc, threadStep, if_neg reads] at next
        obtain ⟨s', stepped, -⟩ := Option.bind_eq_some_iff.mp next
        exact ⟨s', stepped⟩
      obtain ⟨whole', whole_next⟩ := h.whole_step reads stepped
      obtain ⟨c₁, s₂, next', stepped', tied⟩ := h.step reads whole_next
      cases next.symm.trans next'
      cases stepped.symm.trans stepped'
      have allowed' : MultiThread.flagKept whole action := by
        obtain ⟨-, ⟨r, later, -, -, -, rfl⟩, -⟩ := h
        exact allowed
      refine ⟨s₁, ended, whole', tied,
        keeping.step two_le_bufferSize bufferSize_addressable allowed' whole_next, ?_⟩
      rcases keeping.other two_le_bufferSize bufferSize_addressable allowed' whole_next with
        less | ⟨same, help⟩
      · exact Or.inl (Prod.Lex.toLex_lt_toLex.mpr (Or.inl less))
      · have calls := calls_of_rank h allowed stepped whole_next same
        refine Or.inr ⟨by rw [copyRank, copyRank, same, readLeft, readLeft, calls], help, ?_⟩
        intro counts
        obtain rfl := Action.thread.inj counts
        have short : ¬ Finished whole := by
          intro finished
          have turn : Threads.MultiThread.helpful whole = .producer := if_pos (.inl finished.2)
          rw [turn] at whole_next
          simp [Threads.MultiThread.step, Threads.MultiThread.producerStep, finished.1] at whole_next
        obtain ⟨t, next'', less⟩ := keeping.advance two_le_bufferSize bufferSize_addressable short
        cases whole_next.symm.trans next''
        exact absurd same (ne_of_lt less)

/-- The thread whose step counts can take it. -/
theorem Tied.turn_enabled (h : Tied machine command disk c s ended whole)
    (kept : sourceBytes machine command c.disk = sourceBytes machine command disk)
    (keeping : Keeping bufferSize whole) (short : ¬ Finished whole) :
    ∃ c', Copy.step machine command c (.thread (Threads.MultiThread.helpful whole)) = some c' := by
  obtain ⟨whole', next, -⟩ := keeping.advance two_le_bufferSize bufferSize_addressable short
  by_cases reads : Threads.MultiThread.helpful whole = .producer ∧ s.producer = .next ∧
      s.calls = [] ∧ ended = false
  · obtain ⟨turn, atNext, none, rfl⟩ := reads
    obtain ⟨c₁, s₁, ended₁, read, -⟩ := h.read kept atNext none
    rw [turn]
    exact ⟨c₁, read⟩
  · obtain ⟨c₁, s₁, next', -⟩ := h.step reads next
    exact ⟨c₁, next'⟩

/-- Both threads return. -/
theorem eventually_finished {state : Nat → Copy} {schedule : Nat → Action} {n : Nat}
    (begun : state 0 = start command disk)
    (execution : Execution (step machine command) (Guarded machine command MultiThread.flagKept)
      state schedule)
    (reading : Fair schedule (.thread .producer)) (writing : Fair schedule (.thread .consumer))
    (tied : Tied machine command disk (state n) s ended whole)
    (keeping : Keeping bufferSize whole) :
    ∃ n s ended, (state n).pc = .threads s ended ∧ s.producer = .finished ∧
      s.consumer = .finished := by
  let I (c : Copy) (x : MultiThread.State × Bool × MultiThread.State) : Prop :=
    Transition.Reaches (step machine command) (Guarded machine command MultiThread.flagKept)
        (start command disk) c ∧
      Tied machine command disk c x.1 x.2.1 x.2.2 ∧ Keeping bufferSize x.2.2
  let there (c : Copy) : Prop := ∃ s ended, c.pc = .threads s ended ∧ s.producer = .finished ∧
    s.consumer = .finished
  have fair : ∀ c x, I c x → ¬ there c →
      Fair schedule (.thread (Threads.MultiThread.helpful x.2.2)) := by
    intro c x _ _
    unfold Threads.MultiThread.helpful
    split
    · exact reading
    · exact writing
  have advance : ∀ c x, I c x → ¬ there c → ∃ c',
      step machine command c (.thread (Threads.MultiThread.helpful x.2.2)) = some c' ∧
        (Guarded machine command MultiThread.flagKept c
            (.thread (Threads.MultiThread.helpful x.2.2)) → there c' ∨
          ∃ y, I c' y ∧ copyRank y.1 y.2.1 y.2.2 < copyRank x.1 x.2.1 x.2.2) := by
    rintro c x ⟨reached, tied, keeping⟩ short
    have kept := (kept_tracked reached).1
    have unfinished : ¬ Finished x.2.2 := fun finished => short ⟨x.1, x.2.1, tied.pc,
      tied.places.1 ▸ finished.1, tied.places.2 ▸ finished.2⟩
    obtain ⟨c', next⟩ := tied.turn_enabled kept keeping unfinished
    refine ⟨c', next, ?_⟩
    intro guard
    obtain ⟨s', ended', whole', tied', keeping', less | ⟨-, -, other⟩⟩ :=
      tied.move kept keeping guard next
    · exact Or.inr ⟨(s', ended', whole'), ⟨.tail reached guard next, tied', keeping'⟩, less⟩
    · exact absurd rfl other
  have other : ∀ c x action c', I c x → ¬ there c →
      Guarded machine command MultiThread.flagKept c action →
      step machine command c action = some c' → there c' ∨ ∃ y, I c' y ∧
        (copyRank y.1 y.2.1 y.2.2 < copyRank x.1 x.2.1 x.2.2 ∨
          copyRank y.1 y.2.1 y.2.2 = copyRank x.1 x.2.1 x.2.2 ∧
            Action.thread (Threads.MultiThread.helpful y.2.2) =
              .thread (Threads.MultiThread.helpful x.2.2)) := by
    rintro c x action c' ⟨reached, tied, keeping⟩ _ guard next
    obtain ⟨s', ended', whole', tied', keeping', less | ⟨same, help, -⟩⟩ :=
      tied.move (kept_tracked reached).1 keeping guard next
    · exact Or.inr ⟨(s', ended', whole'), ⟨.tail reached guard next, tied', keeping'⟩, Or.inl less⟩
    · exact Or.inr ⟨(s', ended', whole'), ⟨.tail reached guard next, tied', keeping'⟩,
        Or.inr ⟨same, congrArg _ help⟩⟩
  obtain ⟨n', -, finished⟩ := execution.eventually_along
    (fun _ x => copyRank x.1 x.2.1 x.2.2)
    (fun _ x => .thread (Threads.MultiThread.helpful x.2.2)) fair advance other n (s, ended, whole)
    ⟨begun ▸ execution.reaches n, tied, keeping⟩
  exact ⟨n', finished⟩

end Threads

/-- For every source that can be read and every destination that can be opened, and in every
    execution in which `Create` and both threads get their turn again and again, the file writer does
    not throw, no store of a flag is lost and the source is not damaged: both threads return from
    their tasks. If, besides, no byte meets a full buffer and `Stop` finds the buffer covered, the
    destination then holds the bytes of the source. -/
theorem fair_copy_exact (machine : Machine) (command : SCommand) (disk : FileSystem)
    {name dest : Path} {r : SourceReader} (mode : command.mode = .multiThread)
    (named : source command = some name) (readable : SourceReader.open machine disk name = .ok r)
    (set : command.dest = some dest)
    (opens : (machine.names disk).canOpen machine.host dest = true) {state : Nat → Copy}
    {schedule : Nat → Action} (begun : state 0 = start command disk)
    (execution : Execution (step machine command) (Guarded machine command MultiThread.flagKept)
      state schedule)
    (creating : Fair schedule .create) (reading : Fair schedule (.thread .producer))
    (writing : Fair schedule (.thread .consumer)) :
    ∃ n s ended, (state n).pc = .threads s ended ∧ s.producer = .finished ∧
      s.consumer = .finished ∧
      ((∀ n, (step machine command (state n) (schedule n)).isSome = true →
          Harmless machine command (state n) (schedule n)) →
        (state n).disk.files (machine.fileOf dest) = some (original machine command disk)) := by
  obtain ⟨n, s, ended, pc⟩ := Creating.eventually_threads mode named readable set opens execution
    creating (begun ▸ .start mode)
  obtain ⟨s₀, started⟩ := Option.isSome_iff_exists.mp (Threads.MultiThread.startCopy_isSome
    (original machine command disk) (by decide : bufferSize ≤ Threads.CircularBuffer.maxSize))
  obtain ⟨n, s, ended, pc, finished⟩ :
      ∃ n s ended, (state n).pc = .threads s ended ∧ s.producer = .finished ∧
        s.consumer = .finished := by
    have phase := Phase.of_reaches mode (fun _ _ _ => Iff.rfl) started
      (begun ▸ execution.reaches n)
    rw [Phase, pc] at phase
    obtain ⟨⟨r, later, opened, path, remaining, run⟩, writer, there, -⟩ := phase
    have keeping : Threads.MultiThread.Keeping bufferSize (MultiThread.State.withCalls s later) :=
      run.invariant (.start two_le_bufferSize started) fun _ _ _ keeping guard next =>
        keeping.step two_le_bufferSize bufferSize_addressable guard next
    exact eventually_finished begun execution reading writing
      ⟨pc, ⟨r, later, opened, path, remaining, rfl⟩, by rw [there]; rfl⟩ keeping
  refine ⟨n, s, ended, pc, finished.1, finished.2, ?_⟩
  intro harmless
  have careful : Execution (step machine command) (Harmless machine command) state schedule :=
    ⟨fun n t next => ⟨harmless n (by rw [next]; rfl), (execution.taken n t next).2⟩,
      execution.idle⟩
  obtain ⟨dest', set', content⟩ :=
    harmless_dest mode (begun ▸ careful.reaches n) pc finished.2
  rw [set] at set'
  cases set'
  exact content

/-- `-s a -d b` with three bytes in `a`, in an execution that goes on with the turns for ever. -/
theorem fair_copy_exact_small : ∃ (state : Nat → Copy) (n : Nat),
    state 0 = start aToB (.single (ascii "a") [1, 2, 3]) ∧
      (∃ s ended, (state n).pc = .threads s ended ∧ s.producer = .finished ∧
        s.consumer = .finished) ∧
      (state n).disk.files (ascii "b") = some [1, 2, 3] := by
  obtain ⟨c, s, ended, run, pc, -, producer, consumer⟩ :=
    @smooth_run plainMachine aToB (.single (ascii "a") [1, 2, 3]) (ascii "a") (ascii "b") _ rfl rfl
      rfl rfl rfl (by decide)
  have final : ∀ n, step plainMachine aToB c
      (cycle .create [.thread .producer, .thread .consumer] n) = none := by
    intro n
    have member := cycle_mem Action.create [.thread .producer, .thread .consumer] n
    simp only [List.mem_cons, List.not_mem_nil, or_false] at member
    rcases member with same | same | same
    · simp [same, step, pc]
    · simp [same, step, pc, threadStep, Threads.MultiThread.step,
        Threads.MultiThread.producerStep, producer]
    · simp [same, step, pc, threadStep, Threads.MultiThread.step,
        Threads.MultiThread.consumerStep, consumer]
  obtain ⟨state, schedule, begun, execution, fair⟩ := Execution.of_reaches run _ final
  have turns : ∀ a ∈ [Action.create, .thread .producer, .thread .consumer], Fair schedule a :=
    fun a member => fair a (cycle_fair member)
  obtain ⟨n, s, ended, pc, producer, consumer, content⟩ := fair_copy_exact plainMachine aToB
    (.single (ascii "a") [1, 2, 3]) rfl rfl rfl rfl rfl begun
    (execution.mono fun _ _ guard => guard.mono fun _ _ smooth => smooth.2.2)
    (turns _ (by simp)) (turns _ (by simp)) (turns _ (by simp))
  refine ⟨state, n, begun, ⟨s, ended, pc, producer, consumer⟩, content ?_⟩
  intro n enabled
  obtain ⟨t, next⟩ := Option.isSome_iff_exists.mp enabled
  exact harmless_of_smooth (execution.taken n t next).1

end FileTransfer.Copy
