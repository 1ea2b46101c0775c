import FileTransfer.MultiProcess.Roles
import Mathlib.Algebra.GroupWithZero.Nat

/-!
# The semaphores that the next process finds

The destructors of the data accesses remove the semaphore names, `SignalHandler` does not. Each
semaphore name is free, or has its initial count, or is still to be removed by some process: an
interruption is the only move that can end that. After one that does, the count stays behind.
-/

namespace FileTransfer.MultiProcessTask

open NamedObjects

/-- SIGINT apart, the remaining course of the process removes the semaphore name: of the steps of
    `Create` still to come each succeeds or has the name removed when it throws, and the destructor
    of the whole task removes it. -/
def Process.willRemove (platform : Platform) (files : Posix.FileSystem) (p : Process)
    (name : Semaphore) : Bool :=
  match p.pc with
  | .creating rest => rest.all fun (build, unwinding) =>
      succeeds platform files p.command build || unwinding.contains (.removeSemaphore name)
  | .tryClient => true
  | .client _ => true
  | .tryServer => true
  | .server _ => true
  | .cleaning rest _ => rest.contains (.removeSemaphore name)
  | .signalled rest => rest.contains (.removeSemaphore name)
  | .ended _ => false
  | .exited => false

/-- No process has the name, or the count behind it is the initial one. -/
def Unused (sys : System) (name : Semaphore) : Prop :=
  ∀ count, sys.semaphores.find name = some count → count = name.initial

/-- The process is not alive. -/
def Process.gone (p : Process) : Bool :=
  match p.pc with
  | .ended _ => true
  | .exited => true
  | _ => false

/-- SIGINT comes only when each semaphore name is unused or still to be removed by another
    process. -/
def interruptsHarmless (platform : Platform) (s : State) : Action → Prop
  | .move i .sigint => ∀ name, Unused s.system name ∨
      ∃ j q, j ≠ i ∧ s.processes[j]? = some q ∧
        q.willRemove platform s.system.files name = true
  | _ => True

/-- The constructor of a data access, after that of its handler. -/
def construct (task : Task) (sys : System) (p : Process) : System × Process :=
  let (sys, p) := openSemaphore task .stop sys p
  let (sys, p) := openSemaphore task .dataAvailable sys p
  openSemaphore task .spaceAvailable sys p

/-- The count that a process sees of a semaphore that it has open. -/
def countOf (task : Task) (name : Semaphore) (sys : System) (p : Process) : Option Nat :=
  ((p.access task).semaphores name).bind sys.semaphores.value

variable {platform : Platform} {sys sys' : System} {p p' : Process} {what : Move}
  {name : Semaphore} {task : Task}

theorem Unused.congr (unused : Unused sys name)
    (same : sys'.semaphores.find name = sys.semaphores.find name) : Unused sys' name := by
  intro count found
  rw [same] at found
  exact unused count found

/-- Opening a semaphore leaves the names unused that were. -/
theorem Unused.openSemaphore {other : Semaphore} (unused : Unused sys other) (task : Task)
    (name : Semaphore) (p : Process) : Unused (openSemaphore task name sys p).1 other := by
  intro count found
  change (sys.semaphores.openOrCreate name name.initial).2.find other = some count at found
  by_cases same : other = name
  · subst same
    rw [Store.find_openOrCreate_self] at found
    cases there : sys.semaphores.find other with
    | none =>
      rw [there] at found
      exact (Option.some.inj found).symm
    | some before =>
      rw [there] at found
      exact (Option.some.inj found).symm.trans (unused before there)
  · rw [Store.find_openOrCreate_of_ne same] at found
    exact unused count found

/-- The access has the semaphore of the name open, with this count. -/
structure Opened (task : Task) (name : Semaphore) (count : Nat) (sys : System) (p : Process) :
    Prop where
  handle : (p.access task).semaphores name = sys.semaphores.names name
  count : sys.semaphores.find name = some count

theorem Opened.countOf {count : Nat} (h : Opened task name count sys p) :
    countOf task name sys p = some count := by
  rw [MultiProcessTask.countOf, h.handle]
  exact h.count

/-- A semaphore has the count that was there already, or the initial one. -/
theorem opened_openSemaphore :
    Opened task name ((sys.semaphores.find name).getD name.initial)
      (openSemaphore task name sys p).1 (openSemaphore task name sys p).2 := by
  refine ⟨?_, Store.find_openOrCreate_self⟩
  simp only [openSemaphore, Process.open, Function.update_self, Store.openOrCreate]
  cases named : sys.semaphores.names name with
  | none => simp [Store.create]
  | some id => simp [named]

theorem Opened.openSemaphore {other : Semaphore} {count : Nat} (h : Opened task other count sys p)
    (differ : other ≠ name) :
    Opened task other count (MultiProcessTask.openSemaphore task name sys p).1
      (MultiProcessTask.openSemaphore task name sys p).2 := by
  have names : (MultiProcessTask.openSemaphore task name sys p).1.semaphores.names other =
      sys.semaphores.names other := Store.names_openOrCreate_of_ne differ
  refine ⟨?_, (Store.find_openOrCreate_of_ne differ).trans h.count⟩
  rw [names, ← h.handle]
  simp only [MultiProcessTask.openSemaphore, Process.open, Function.update_self,
    Function.update_of_ne differ]

theorem find_openSemaphore (task : Task) (p : Process) {other : Semaphore}
    (differ : other ≠ name) :
    (openSemaphore task name sys p).1.semaphores.find other = sys.semaphores.find other :=
  Store.find_openOrCreate_of_ne differ

/-- A data access sees of each semaphore the count that is there, or else the initial one. -/
theorem countOf_construct (name : Semaphore) :
    countOf task name (construct task sys p).1 (construct task sys p).2 =
      some ((sys.semaphores.find name).getD name.initial) := by
  apply Opened.countOf
  cases name with
  | stop =>
    exact (opened_openSemaphore.openSemaphore (by decide)).openSemaphore (by decide)
  | dataAvailable =>
    rw [← @find_openSemaphore sys .stop task p .dataAvailable (by decide)]
    exact opened_openSemaphore.openSemaphore (by decide)
  | spaceAvailable =>
    rw [← @find_openSemaphore sys .stop task p .spaceAvailable (by decide),
      ← @find_openSemaphore _ .dataAvailable task (openSemaphore task .stop sys p).2
        .spaceAvailable (by decide)]
    exact opened_openSemaphore

/-- Where a name is not in use, a data access is constructed with the initial count. -/
theorem Unused.countOf_construct (unused : Unused sys name) :
    countOf task name (construct task sys p).1 (construct task sys p).2 =
      some name.initial := by
  rw [MultiProcessTask.countOf_construct]
  cases there : sys.semaphores.find name with
  | none => rfl
  | some count => exact congrArg some (unused count there)

/-- A step of `Create` leaves the names unused that were. -/
theorem Unused.perform {build : Build} {result : Except StartFault Process}
    (unused : Unused sys name) (done : perform platform sys p build = (sys', result)) :
    Unused sys' name := by
  rcases perform_cases done with ⟨p', -, built⟩ | ⟨-, -, rfl⟩
  · cases build with
    | openSemaphore task other =>
      cases done
      exact unused.openSemaphore task other p
    | _ => exact unused.congr (by rw [built.semaphores rfl])
  · exact unused

/-- A removal leaves the name unused, or as it is. -/
theorem clean_semaphores (command : SCommand) (removal : Clean) (name : Semaphore) :
    (removal = .removeSemaphore name ∧ Unused (clean command sys removal) name) ∨
      (removal ≠ .removeSemaphore name ∧
        (clean command sys removal).semaphores.find name = sys.semaphores.find name) := by
  by_cases this : removal = .removeSemaphore name
  · refine Or.inl ⟨this, ?_⟩
    subst this
    intro count found
    have none : (clean command sys (.removeSemaphore name)).semaphores.find name = none :=
      Store.find_remove_self
    rw [none] at found
    cases found
  · refine Or.inr ⟨this, ?_⟩
    cases removal with
    | removeMutex mutex => rfl
    | removeSemaphore other =>
      apply Store.find_remove_of_ne
      intro same
      exact this (by rw [same])
    | removeMemory =>
      unfold clean
      cases command.sharedMemory with
      | none => rfl
      | some path => rfl

/-- A removal leaves the names unused that were. -/
theorem Unused.clean (unused : Unused sys name) (command : SCommand) (removal : Clean) :
    Unused (clean command sys removal) name := by
  rcases clean_semaphores command removal name with ⟨-, unused'⟩ | ⟨-, same⟩
  · exact unused'
  · exact unused.congr same

/-- The destructor of a whole task removes every semaphore name. -/
theorem destructor_removes (name : Semaphore) :
    destructor.contains (.removeSemaphore name) = true := by
  cases name <;> rfl

/-- A removal leaves the name unused, or still to be removed when it was. -/
theorem clean_accounted {removal : Clean} {rest : List Clean}
    (before : Unused sys name ∨ (removal :: rest).contains (.removeSemaphore name) = true)
    (command : SCommand) :
    Unused (clean command sys removal) name ∨
      rest.contains (.removeSemaphore name) = true := by
  rcases before with unused | ahead
  · exact Or.inl (unused.clean command removal)
  · rcases clean_semaphores command removal name with ⟨-, unused⟩ | ⟨other, -⟩
    · exact Or.inl unused
    · rw [List.contains_cons, Bool.or_eq_true, beq_iff_eq] at ahead
      rcases ahead with here | later
      · exact absurd here.symm other
      · exact Or.inr later

theorem removeSemaphore_notMem_cleaner (name : Semaphore) :
    cleaner.contains (.removeSemaphore name) = false := by
  cases name <;> rfl

/-- Files that are added keep no process from removing a name. -/
theorem willRemove_of_grown {files files' : Posix.FileSystem}
    (ahead : p.willRemove platform files name = true)
    (grown : FileDataWriter.Grown files files') : p.willRemove platform files' name = true := by
  unfold Process.willRemove at ahead ⊢
  split at ahead <;> rename_i pc
  · simp only [List.all_eq_true, Bool.or_eq_true] at ahead ⊢
    intro step member
    exact (ahead step member).imp_left (succeeds_of_grown grown)
  all_goals exact ahead

/-- A name that is unused, or that the process will remove, is so after each of its moves but
    SIGINT. -/
theorem Moved.semaphores (moved : Moved platform sys p what sys' p')
    (before : Unused sys name ∨ p.willRemove platform sys.files name = true)
    (goesOn : what ≠ .sigint) :
    Unused sys' name ∨ p'.willRemove platform sys'.files name = true := by
  have grown := moved.grown
  -- A process that has ended removes nothing more.
  have idle : p.willRemove platform sys.files name = false → Unused sys name := by
    intro removesNot
    rcases before with unused | ahead
    · exact unused
    · rw [removesNot] at ahead
      cases ahead
  cases moved with
  | created run pc => exact Or.inr rfl
  | @built run build unwinding rest _ p₁ pc done =>
    rcases before with unused | ahead
    · exact Or.inl (unused.perform done)
    · rcases perform_cases done with ⟨p₂, same, built⟩ | ⟨⟨fault, thrown⟩, -⟩
      · cases same
        simp only [Process.willRemove, pc, List.all_cons, Bool.and_eq_true] at ahead
        have later : ({ p₁ with pc := .creating rest } : Process).willRemove platform sys.files
            name = true := by
          simp only [Process.willRemove, built.command]
          exact ahead.2
        exact Or.inr (willRemove_of_grown later grown)
      · cases thrown
  | thrown run pc done =>
    rcases before with unused | ahead
    · exact Or.inl (unused.perform done)
    · rcases perform_spec done with ⟨-, _, built, -⟩ | ⟨fails, -, -⟩
      · cases built
      · simp only [Process.willRemove, pc, List.all_cons, Bool.and_eq_true, fails,
          Bool.false_or] at ahead
        exact Or.inr ahead.1
  | takeClient run pc free => exact Or.inr rfl
  | noClient run pc taken => exact Or.inr rfl
  | clientRuns runs pc names command pc' =>
    refine Or.inr ?_
    simp only [Process.willRemove, pc']
  | clientReturns run pc => exact Or.inr (destructor_removes name)
  | clientThrows throws pc => exact Or.inr rfl
  | takeServer run pc free => exact Or.inr rfl
  | noServer run pc taken => exact Or.inr (destructor_removes name)
  | serverRuns runs pc names command pc' =>
    refine Or.inr ?_
    simp only [Process.willRemove, pc']
  | serverReturns run pc => exact Or.inr (destructor_removes name)
  | serverThrows throws pc => exact Or.inr (destructor_removes name)
  | cleaned run pc =>
    simp only [Process.willRemove, pc] at before
    exact clean_accounted before p.command
  | ended run pc =>
    apply Or.inl
    apply idle
    simp only [Process.willRemove, pc, List.contains_nil]
  | interrupted signal pc => exact absurd signal goesOn
  | handled run pc =>
    simp only [Process.willRemove, pc] at before
    exact clean_accounted before p.command
  | exited run pc =>
    apply Or.inl
    apply idle
    simp only [Process.willRemove, pc, List.contains_nil]

/-- SIGINT itself changes nothing that is shared. -/
theorem Moved.sigint (moved : Moved platform sys p .sigint sys' p') :
    sys' = sys ∧ p' = { p with pc := .signalled cleaner } := by
  cases moved with
  | interrupted signal pc => exact ⟨rfl, rfl⟩
  | clientRuns runs pc names command pc' => rcases runs with run | fault <;> contradiction
  | serverRuns runs pc names command pc' => rcases runs with run | fault <;> contradiction
  | clientThrows throws pc => cases throws
  | serverThrows throws pc => cases throws
  | _ => contradiction

/-- Each semaphore name is unused, or some process will remove it. -/
def Accounted (platform : Platform) (s : State) : Prop :=
  ∀ name, Unused s.system name ∨
    ∃ (j : Nat) (q : Process), s.processes[j]? = some q ∧
      q.willRemove platform s.system.files name = true

theorem Accounted.boot (files : Posix.FileSystem) :
    Accounted platform (boot (.fresh files)) := by
  intro name
  refine Or.inl ?_
  intro count found
  cases found

theorem Accounted.started {s : State} (h : Accounted platform s) (command : SCommand) :
    Accounted platform { s with processes := s.processes ++ [.start command] } := by
  intro name
  rcases h name with unused | ⟨j, q, found, ahead⟩
  · exact Or.inl unused
  · refine Or.inr ⟨j, q, ?_, ahead⟩
    rw [List.getElem?_append_left (List.getElem?_eq_some_iff.mp found).1]
    exact found

theorem Accounted.moved {s : State} (h : Accounted platform s) {i : Nat}
    (found : s.processes[i]? = some p) (guard : interruptsHarmless platform s (.move i what))
    (moved : Moved platform s.system p what sys' p') :
    Accounted platform { system := sys', processes := s.processes.set i p' } := by
  have inside := (List.getElem?_eq_some_iff.mp found).1
  have here : (s.processes.set i p')[i]? = some p' := List.getElem?_set_self inside
  have others : ∀ (j : Nat) (q : Process), j ≠ i → s.processes[j]? = some q →
      (s.processes.set i p')[j]? = some q := by
    intro j q differ there
    rw [List.getElem?_set_ne (Ne.symm differ)]
    exact there
  intro name
  by_cases signal : what = .sigint
  · subst signal
    have unchanged : sys' = s.system := moved.sigint.1
    rw [unchanged]
    rcases guard name with unused | ⟨j, q, differ, there, ahead⟩
    · exact Or.inl unused
    · exact Or.inr ⟨j, q, others j q differ there, ahead⟩
  · have own : Unused s.system name ∨ p.willRemove platform s.system.files name = true →
        Unused sys' name ∨
          ∃ (j : Nat) (q : Process), (s.processes.set i p')[j]? = some q ∧
            q.willRemove platform sys'.files name = true := by
      intro before
      rcases moved.semaphores before signal with unused | ahead
      · exact Or.inl unused
      · exact Or.inr ⟨i, p', here, ahead⟩
    rcases h name with unused | ⟨j, q, there, ahead⟩
    · exact own (Or.inl unused)
    · by_cases same : j = i
      · subst same
        obtain rfl : p = q := Option.some.inj (found.symm.trans there)
        exact own (Or.inr ahead)
      · exact Or.inr ⟨j, q, others j q same there, willRemove_of_grown ahead moved.grown⟩

theorem willRemove_of_gone {files : Posix.FileSystem} (gone : p.gone = true) :
    p.willRemove platform files name = false := by
  unfold Process.gone at gone
  unfold Process.willRemove
  split at gone <;> rename_i pc
  · rw [pc]
  · rw [pc]
  · cases gone

/-- What fails in `Create` before the data access is there does not depend on the files, and what
    fails after that has the semaphore names removed. -/
theorem create_early (name : Semaphore) : ∀ step ∈ create,
    step.2.contains (.removeSemaphore name) = true ∨
      step.1 ≠ .openSource ∧ step.1 ≠ .openDest := by
  cases name <;> decide

/-- Once unwinding removes a semaphore name, it does so for the rest of `Create`. -/
theorem create_ordered (name : Semaphore) : create.Pairwise fun early late =>
    early.2.contains (.removeSemaphore name) = true →
      late.2.contains (.removeSemaphore name) = true := by
  cases name <;> decide

theorem succeeds_files {files files' : Posix.FileSystem} {command : SCommand} {build : Build}
    (early : build ≠ .openSource ∧ build ≠ .openDest) :
    succeeds platform files command build = succeeds platform files' command build := by
  cases build with
  | openSource => exact absurd rfl early.1
  | openDest => exact absurd rfl early.2
  | _ => rfl

/-- Whether a process will remove a semaphore name does not depend on the files. -/
theorem willRemove_files {files files' now : Posix.FileSystem} (passed : p.passed platform now) :
    p.willRemove platform files name = p.willRemove platform files' name := by
  unfold Process.passed at passed
  unfold Process.willRemove
  cases pc : p.pc with
  | creating rest =>
    rw [pc] at passed
    obtain ⟨done, split, -⟩ := passed
    simp only
    rw [Bool.eq_iff_iff, List.all_eq_true, List.all_eq_true]
    refine forall₂_congr ?_
    intro step member
    have inside : step ∈ create := by
      rw [split]
      exact List.mem_append_right _ member
    rcases create_early name step inside with late | early
    · simp only [late, Bool.or_true]
    · rw [@succeeds_files platform files files' p.command step.1 early]
  | _ => rfl

/-- The processes leave a semaphore with this count behind: none of them will remove its name. -/
structure Left (platform : Platform) (name : Semaphore) (count : Nat) (s : State) : Prop where
  kept : s.system.semaphores.find name = some count
  removesNot : ∀ q ∈ s.processes, q.willRemove platform s.system.files name = false
  passed : ∀ q ∈ s.processes, q.passed platform s.system.files

/-- A step of `Create` keeps the count of a semaphore that is there. -/
theorem find_of_perform {build : Build} {result : Except StartFault Process} {count : Nat}
    (kept : sys.semaphores.find name = some count)
    (done : perform platform sys p build = (sys', result)) :
    sys'.semaphores.find name = some count := by
  rcases perform_cases done with ⟨p', -, built⟩ | ⟨-, -, rfl⟩
  · cases build with
    | openSemaphore task other =>
      cases done
      by_cases same : name = other
      · subst same
        have opened := @opened_openSemaphore sys p name task
        rw [kept] at opened
        exact opened.count
      · exact (find_openSemaphore task p same).trans kept
    | _ => rw [built.semaphores rfl, kept]
  · exact kept

theorem find_of_clean {removal : Clean} {rest : List Clean} {count : Nat} {command : SCommand}
    (kept : sys.semaphores.find name = some count)
    (others : (removal :: rest).contains (.removeSemaphore name) = false) :
    (clean command sys removal).semaphores.find name = some count ∧
      rest.contains (.removeSemaphore name) = false := by
  rw [List.contains_cons, Bool.or_eq_false_iff, beq_eq_false_iff_ne] at others
  rcases clean_semaphores command removal name with ⟨this, -⟩ | ⟨-, same⟩
  · exact absurd this.symm others.1
  · exact ⟨same.trans kept, others.2⟩

/-- A process that will not remove a name leaves its count alone, and goes on towards its end. -/
theorem Moved.left {count : Nat} (moved : Moved platform sys p what sys' p')
    (kept : sys.semaphores.find name = some count)
    (removesNot : p.willRemove platform sys.files name = false)
    (passed : p.passed platform sys.files) :
    sys'.semaphores.find name = some count ∧
      p'.willRemove platform sys'.files name = false := by
  have passed' := moved.passed passed
  cases moved with
  | created run pc =>
    simp only [Process.willRemove, pc, List.all_nil] at removesNot
    cases removesNot
  | @built run build unwinding rest _ p₁ pc done =>
    refine ⟨find_of_perform kept done, ?_⟩
    rcases perform_spec done with ⟨succeeded, _, same, built⟩ | ⟨-, ⟨_, thrown⟩, -⟩
    · cases same
      rw [@willRemove_files platform _ name sys'.files sys.files _ passed']
      simp only [Process.willRemove, pc, List.all_cons, succeeded, Bool.true_or,
        Bool.true_and] at removesNot
      simp only [Process.willRemove, built.command]
      exact removesNot
    · cases thrown
  | @thrown run build unwinding rest _ fault pc done =>
    refine ⟨find_of_perform kept done, ?_⟩
    by_contra early
    -- Then whatever else might throw has the name removed, too.
    simp only [Process.passed, pc] at passed
    obtain ⟨before, split, -⟩ := passed
    have ordered := create_ordered name
    rw [split] at ordered
    have later := (List.pairwise_cons.mp (List.pairwise_append.mp ordered).2.1).1
    have early : unwinding.contains (.removeSemaphore name) = true :=
      Bool.eq_true_of_not_eq_false early
    have all : p.willRemove platform sys.files name = true := by
      simp only [Process.willRemove, pc, List.all_cons, early, Bool.or_true, Bool.true_and,
        List.all_eq_true, Bool.or_eq_true]
      exact fun step member => Or.inr (later step member early)
    rw [removesNot] at all
    cases all
  | cleaned run pc =>
    simp only [Process.willRemove, pc] at removesNot
    exact find_of_clean kept removesNot
  | ended run pc => exact ⟨kept, rfl⟩
  | interrupted signal pc => exact ⟨kept, removeSemaphore_notMem_cleaner name⟩
  | handled run pc =>
    simp only [Process.willRemove, pc] at removesNot
    exact find_of_clean kept removesNot
  | exited run pc => exact ⟨kept, rfl⟩
  | _ =>
    -- The destructor of the whole task is still to come.
    simp only [Process.willRemove, *] at removesNot
    cases removesNot

theorem Left.moved {count : Nat} {s : State} (h : Left platform name count s)
    (i : Nat) (what : Move) {s' : State} (next : step platform s (.move i what) = some s') :
    Left platform name count s' := by
  rcases step_cases next with
    ⟨command, impossible, -⟩ | ⟨i, what, p, system, p', -, found, moved, rfl⟩
  · cases impossible
  · have member := List.mem_of_getElem? found
    obtain ⟨kept, removesNot⟩ := moved.left h.kept (h.removesNot p member) (h.passed p member)
    refine ⟨kept, ?_, ?_⟩
    · intro q inside
      rcases List.mem_or_eq_of_mem_set inside with old | rfl
      · rw [willRemove_files (h.passed q old)]
        exact h.removesNot q old
      · exact removesNot
    · intro q inside
      rcases List.mem_or_eq_of_mem_set inside with old | rfl
      · exact (h.passed q old).grown moved.grown
      · exact moved.passed (h.passed p member)

/-- The steps that a process has at most before it when it will not get to its tasks. -/
def Process.left (p : Process) : Nat :=
  match p.pc with
  | .creating rest => rest.length + 11
  | .cleaning rest _ => rest.length + 1
  | .signalled rest => rest.length + 1
  | _ => 0

theorem create_unwinding_length : ∀ step ∈ create, step.2.length ≤ 10 := by
  decide

/-- A process that will not get to its tasks takes a step towards its end. -/
theorem runStep_left (removesNot : p.willRemove platform sys.files name = false)
    (passed : p.passed platform sys.files) (alive : p.gone = false) :
    ∃ sys' p', runStep platform sys p = some (sys', p') ∧ p'.left < p.left := by
  unfold Process.willRemove at removesNot
  unfold Process.passed at passed
  unfold Process.gone at alive
  cases pc : p.pc with
  | creating rest =>
    rw [pc] at removesNot passed
    cases rest with
    | nil => cases removesNot
    | cons step rest =>
      obtain ⟨build, unwinding⟩ := step
      obtain ⟨before, split, -⟩ := passed
      have short : unwinding.length ≤ 10 :=
        create_unwinding_length (build, unwinding) (by simp [split])
      simp only [runStep, pc, Process.left]
      cases done : perform platform sys p build with
      | mk sys₁ result =>
        cases result with
        | ok p₁ =>
          refine ⟨_, _, rfl, ?_⟩
          simp
        | error fault =>
          refine ⟨_, _, rfl, ?_⟩
          simp only [List.length_cons]
          omega
  | cleaning rest result =>
    cases rest with
    | nil => exact ⟨_, _, by simp only [runStep, pc]; rfl, by simp [Process.left, pc]⟩
    | cons removal rest => exact ⟨_, _, by simp only [runStep, pc]; rfl, by simp [Process.left, pc]⟩
  | signalled rest =>
    cases rest with
    | nil => exact ⟨_, _, by simp only [runStep, pc]; rfl, by simp [Process.left, pc]⟩
    | cons removal rest => exact ⟨_, _, by simp only [runStep, pc]; rfl, by simp [Process.left, pc]⟩
  | ended result =>
    rw [pc] at alive
    cases alive
  | exited =>
    rw [pc] at alive
    cases alive
  | _ =>
    rw [pc] at removesNot
    cases removesNot

theorem sum_set_lt {α : Type} (f : α → Nat) {a b : α} (less : f b < f a) (l : List α) :
    ∀ i, l[i]? = some a → ((l.set i b).map f).sum < (l.map f).sum := by
  induction l with
  | nil =>
    intro i found
    cases found
  | cons c l ih =>
    intro i found
    cases i with
    | zero =>
      cases found
      rw [List.set_cons_zero, List.map_cons, List.map_cons, List.sum_cons, List.sum_cons]
      exact Nat.add_lt_add_right less _
    | succ i =>
      rw [List.set_cons_succ, List.map_cons, List.map_cons, List.sum_cons, List.sum_cons]
      exact Nat.add_lt_add_left (ih i found) _

/-- The processes can all come to their ends. -/
theorem Left.ends {count : Nat} {s : State} (h : Left platform name count s) :
    ∃ t, Reaches platform (fun _ a => ∃ i, a = .move i .run) s t ∧
      ∀ p ∈ t.processes, p.gone = true := by
  have ends := @Transition.Reaches.of_rank _ _ (step platform) (fun _ a => ∃ i, a = .move i .run)
    (Left platform name count) (fun t => ∀ p ∈ t.processes, p.gone = true)
    (fun s => (s.processes.map Process.left).sum) ?_ s h
  · obtain ⟨t, run, -, gone⟩ := ends
    exact ⟨t, run, gone⟩
  · intro s left going
    simp only [not_forall] at going
    obtain ⟨p, member, alive⟩ := going
    obtain ⟨i, found⟩ := List.mem_iff_getElem?.mp member
    obtain ⟨sys', p', next, less⟩ := runStep_left (left.removesNot p member)
      (left.passed p member) (Bool.eq_false_of_not_eq_true alive)
    have taken : step platform s (.move i .run) =
        some { system := sys', processes := s.processes.set i p' } := by
      simp only [step, found, move, next, Option.bind_eq_bind, Option.bind_some, Option.pure_def]
    exact ⟨_, _, ⟨i, rfl⟩, taken, left.moved i .run taken, sum_set_lt _ less _ i found⟩

/-- After a SIGINT that does not meet the guard a count stays behind that is not the initial one. -/
theorem left_of_interrupted {system : System} {s s' : State} {a : Action}
    (run : Reaches platform (fun _ _ => True) (boot system) s)
    (harmful : ¬ interruptsHarmless platform s a) (next : step platform s a = some s') :
    ∃ name count, count ≠ Semaphore.initial name ∧ Left platform name count s' := by
  have passed := passed_of_reaches run
  rcases step_cases next with
    ⟨command, rfl, rfl⟩ | ⟨i, what, p, system, p', rfl, found, moved, rfl⟩
  · exact absurd trivial harmful
  · by_cases signal : what = .sigint
    · subst signal
      simp only [interruptsHarmless, not_forall, not_or, not_exists, not_and] at harmful
      obtain ⟨name, used, nobody⟩ := harmful
      simp only [Unused, not_forall] at used
      obtain ⟨count, found', differs⟩ := used
      obtain ⟨rfl, rfl⟩ := moved.sigint
      refine ⟨name, count, differs, found', ?_, ?_⟩
      · intro q member
        obtain ⟨j, there⟩ := List.mem_iff_getElem?.mp member
        rcases getElem?_moved there with ⟨rfl, rfl⟩ | ⟨differ, old⟩
        · exact removeSemaphore_notMem_cleaner name
        · exact Bool.eq_false_of_not_eq_true (nobody j q differ old)
      · intro q member
        rcases List.mem_or_eq_of_mem_set member with old | rfl
        · exact passed q old
        · exact moved.passed (passed p (List.mem_of_getElem? found))
    · cases what with
      | sigint => exact absurd rfl signal
      | _ => exact absurd trivial harmful

/-- For any number of processes, started from a machine without names and interleaved in any way,
    with starts that throw, exceptions in the tasks and SIGINT: in every run in which SIGINT
    comes only when each semaphore name is unused or still to be removed by another process, once no
    process is alive, the next data access is constructed with the counts 0, 0 and 1. After any
    other SIGINT a count stays behind that the data accesses see until a process is started, and the
    processes can all come to their ends. -/
theorem next_start_fresh (platform : Platform) (files : Posix.FileSystem) :
    (∀ s, Reaches platform (interruptsHarmless platform) (boot (.fresh files)) s →
        (∀ p ∈ s.processes, p.gone = true) → ∀ task p name,
          countOf task name (construct task s.system p).1 (construct task s.system p).2 =
            some name.initial) ∧
      ∀ s a s', Reaches platform (fun _ _ => True) (boot (.fresh files)) s →
        ¬ interruptsHarmless platform s a → step platform s a = some s' →
          ∃ name count, count ≠ Semaphore.initial name ∧
            (∀ t, Reaches platform (fun _ a => ∃ i what, a = .move i what) s' t → ∀ task p,
              countOf task name (construct task t.system p).1 (construct task t.system p).2 =
                some count) ∧
            ∃ t, Reaches platform (fun _ a => ∃ i, a = .move i .run) s' t ∧
              ∀ p ∈ t.processes, p.gone = true := by
  constructor
  · intro s run allGone task p name
    have accounted : Accounted platform s := by
      apply run.invariant (Accounted.boot files)
      intro t a u inv guard next
      rcases step_cases next with
        ⟨command, rfl, rfl⟩ | ⟨i, what, p, system, p', rfl, found, moved, rfl⟩
      · exact inv.started command
      · exact inv.moved found guard moved
    apply Unused.countOf_construct
    rcases accounted name with unused | ⟨j, q, found, ahead⟩
    · exact unused
    · rw [willRemove_of_gone (allGone q (List.mem_of_getElem? found))] at ahead
      cases ahead
  · intro s a s' run harmful next
    obtain ⟨name, count, differs, left⟩ := left_of_interrupted run harmful next
    refine ⟨name, count, differs, ?_, left.ends⟩
    intro t later task p
    have stays : Left platform name count t := by
      apply later.invariant left
      rintro t _ u left ⟨i, what, rfl⟩ next
      exact left.moved i what next
    rw [countOf_construct, stays.kept]
    rfl

theorem harmless_runs {s : State} {i n : Nat} {a : Action} (member : a ∈ runs i n) :
    interruptsHarmless platform s a := by
  rw [List.eq_of_mem_replicate member]
  trivial

/-- `-m process -s a -d b` with the shared memory `m`. -/
def copyCommand : SCommand where
  sources := some [ascii "a"]
  dest := some (ascii "b")
  sharedMemory := some (ascii "m")

/-- A client that has met no server is interrupted; and a server that is posting its stop, after the
    client. -/
theorem next_start_fresh_small :
    (∃ s, Reaches (.permissive (ascii "/w")) (interruptsHarmless (.permissive (ascii "/w")))
        (boot (.fresh (.single (ascii "a") [7]))) s ∧
      s.processes.map Process.gone = [true] ∧ ∀ task p name,
        countOf task name (construct task s.system p).1 (construct task s.system p).2 =
          some name.initial) ∧
    ∃ s s', Reaches (.permissive (ascii "/w")) (fun _ _ => True)
        (boot (.fresh (.single (ascii "a") []))) s ∧
      step (.permissive (ascii "/w")) s (.move 1 .sigint) = some s' ∧
      ∃ name count, count ≠ Semaphore.initial name ∧
        (∀ t, Reaches (.permissive (ascii "/w")) (fun _ a => ∃ i what, a = .move i what) s' t →
          ∀ task p, countOf task name (construct task t.system p).1
            (construct task t.system p).2 = some count) ∧
        ∃ t, Reaches (.permissive (ascii "/w")) (fun _ a => ∃ i, a = .move i .run) s' t ∧
          ∀ p ∈ t.processes, p.gone = true := by
  constructor
  · have polls : ((Transition.run (step (.permissive (ascii "/w")))
        (boot (.fresh (.single (ascii "a") [7]))) (.start copyCommand :: runs 0 13)).any fun s =>
          [Semaphore.stop, .dataAvailable, .spaceAvailable].map s.system.semaphores.find =
              [some 0, some 0, some 1] ∧
            (Transition.run (step (.permissive (ascii "/w"))) s
              (.move 0 .sigint :: runs 0 3)).any fun t => t.processes.map Process.gone = [true]) =
          true := by
      decide
    obtain ⟨s, taken, found⟩ := (Option.any_eq_true _ _).mp polls
    obtain ⟨counts, interrupted⟩ := of_decide_eq_true found
    obtain ⟨t, taken', ended⟩ := (Option.any_eq_true _ _).mp interrupted
    obtain ⟨m, signalled, rest⟩ := Option.bind_eq_some_iff.mp taken'
    have unused : interruptsHarmless (.permissive (ascii "/w")) s (.move 0 .sigint) := by
      intro name
      refine Or.inl ?_
      intro count there
      simp only [List.map_cons, List.map_nil, List.cons.injEq, and_true] at counts
      cases name with
      | stop => exact Option.some.inj (there.symm.trans counts.1)
      | dataAvailable => exact Option.some.inj (there.symm.trans counts.2.1)
      | spaceAvailable => exact Option.some.inj (there.symm.trans counts.2.2)
    have run : Reaches (.permissive (ascii "/w")) (interruptsHarmless (.permissive (ascii "/w")))
        (boot (.fresh (.single (ascii "a") [7]))) t :=
      (Transition.Reaches.of_run _ taken fun _ a member => by
        rcases List.mem_cons.mp member with rfl | member
        · trivial
        · exact harmless_runs member).trans
        (.head unused signalled (.of_run _ rest fun _ _ member => harmless_runs member))
    have gone : t.processes.map Process.gone = [true] := of_decide_eq_true ended
    refine ⟨t, run, gone, (next_start_fresh _ _).1 t run ?_⟩
    intro p member
    have ended' : p.gone ∈ t.processes.map Process.gone := List.mem_map_of_mem member
    rw [gone] at ended'
    exact List.mem_singleton.mp ended'
  · have posts : ((Transition.run (step (.permissive (ascii "/w")))
        (boot (.fresh (.single (ascii "a") [])))
        (.start copyCommand :: runs 0 13 ++ .start copyCommand :: runs 1 14 ++ runs 1 2 ++
          .move 0 .sigint :: runs 0 3)).any fun s =>
          s.system.semaphores.find .stop = some 1 ∧ s.processes.length = 2 ∧
            s.processes[0]?.all (fun p => !p.willRemove (.permissive (ascii "/w"))
              s.system.files .stop) ∧
            (step (.permissive (ascii "/w")) s (.move 1 .sigint)).isSome) = true := by
      decide +kernel
    obtain ⟨s, taken, found⟩ := (Option.any_eq_true _ _).mp posts
    obtain ⟨stop, two, first, enabled⟩ := of_decide_eq_true found
    obtain ⟨s', next⟩ := Option.isSome_iff_exists.mp enabled
    have run : Reaches (.permissive (ascii "/w")) (fun _ _ => True)
        (boot (.fresh (.single (ascii "a") []))) s :=
      .of_run _ taken fun _ _ _ => trivial
    have harmful : ¬ interruptsHarmless (.permissive (ascii "/w")) s (.move 1 .sigint) := by
      intro harmless
      rcases harmless .stop with unused | ⟨j, q, differ, there, ahead⟩
      · cases unused 1 stop
      · obtain ⟨inside, -⟩ := List.getElem?_eq_some_iff.mp there
        obtain rfl : j = 0 := by omega
        rw [there, Option.all_some, ahead] at first
        cases first
    exact ⟨s, s', run, next, (next_start_fresh _ _).2 s _ s' run harmful next⟩

/-- A server that is posting its stop, and the client, are interrupted. -/
theorem interrupted_stop_remains : ¬ ∀ platform files s,
    Reaches platform (fun _ _ => True) (boot (.fresh files)) s →
    (∀ p ∈ s.processes, p.gone = true) → ∀ task p name,
      countOf task name (construct task s.system p).1 (construct task s.system p).2 =
        some name.initial := by
  intro always
  have left : ((Transition.run (step (.permissive (ascii "/w")))
      (boot (.fresh (.single (ascii "a") [])))
      (.start copyCommand :: runs 0 13 ++ .start copyCommand :: runs 1 14 ++ runs 1 2 ++
        .move 0 .sigint :: runs 0 3 ++ .move 1 .sigint :: runs 1 3)).any fun s =>
        s.processes.all Process.gone ∧
          countOf .reader .stop (construct .reader s.system (.start copyCommand)).1
            (construct .reader s.system (.start copyCommand)).2 = some 1) = true := by
    decide +kernel
  obtain ⟨s, taken, found⟩ := (Option.any_eq_true _ _).mp left
  obtain ⟨gone, stop⟩ := of_decide_eq_true found
  have initial := always _ _ s (.of_run _ taken fun _ _ _ => trivial) (List.all_eq_true.mp gone)
    .reader (.start copyCommand) .stop
  rw [stop] at initial
  cases initial

end FileTransfer.MultiProcessTask
