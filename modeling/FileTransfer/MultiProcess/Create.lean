import FileTransfer.MultiProcess.MultiProcessTask

/-!
# A process alone

The steps of one process while the others take none, and what they come to in `Create`: which of
its steps succeed is decided by the command and by the files, not by any name.
-/

namespace FileTransfer.MultiProcessTask

open Posix NamedObjects

/-- A number of steps of a process alone. -/
def runAlone (platform : Platform) : Nat → System → Process → Option (System × Process)
  | 0, sys, p => some (sys, p)
  | n + 1, sys, p => (runStep platform sys p).bind fun next => runAlone platform n next.1 next.2

/-- Every step of `Create` succeeds. -/
def Creatable (platform : Platform) (files : FileSystem) (command : SCommand) : Prop :=
  ∀ step ∈ create, succeeds platform files command step.1 = true

/-- What steps of `Create` that succeed leave alone, the last one apart. -/
structure Advanced (done : List (Build × List Clean)) (sys : System) (p : Process)
    (sys' : System) (p' : Process) : Prop where
  command : p'.command = p.command
  mutexes : sys'.mutexes = sys.mutexes
  files : sys'.files = sys.files
  names : (∀ step ∈ done, step.1.opensName = false) →
    sys'.semaphores = sys.semaphores ∧ sys'.memory = sys.memory

variable {platform : Platform} {sys sys' : System} {p p' : Process} {command : SCommand}

/-- What can be opened can still be opened when files have been added. -/
theorem succeeds_of_grown {files files' : FileSystem} (grown : FileDataWriter.Grown files files')
    {build : Build} (h : succeeds platform files command build = true) :
    succeeds platform files' command build = true := by
  cases build with
  | openSource =>
    simp only [succeeds, opensSource, FileSystem.openInput, grown.isDirectory] at h ⊢
    by_cases long : FileSystem.tooLong platform.host (command.source.getD []) = true
    · rw [if_pos long] at h
      cases h
    · rw [if_neg long] at h ⊢
      by_cases there : (files.files (cString (command.source.getD []))).isSome = true
      · rw [if_pos (grown.files _ there)]
        exact grown.files _ there
      · rw [if_neg there] at h
        by_cases added : (files'.files (cString (command.source.getD []))).isSome = true
        · rw [if_pos added]
          exact added
        · rw [if_neg added]
          exact h
  | openDest =>
    simp only [succeeds, opensDest, FileSystem.canOpen, grown.directories] at h ⊢
    exact h
  | _ => exact h

theorem Creatable.grown {files files' : FileSystem} (h : Creatable platform files command)
    (grown : FileDataWriter.Grown files files') : Creatable platform files' command :=
  fun step member => succeeds_of_grown grown (h step member)

theorem mayThrow_of_opensName {build : Build} (opensNot : build.opensName = false) :
    build.mayThrow = true := by
  cases build with
  | openSemaphore task name => cases opensNot
  | _ => rfl

/-- The steps of the last process, seen on the machine. -/
theorem run_runs (processes : List Process) (n : Nat) : ∀ sys p,
    Transition.run (step platform) { system := sys, processes := processes ++ [p] }
        (runs processes.length n) =
      (runAlone platform n sys p).map fun next =>
        { system := next.1, processes := processes ++ [next.2] } := by
  induction n with
  | zero =>
    intro sys p
    rfl
  | succ n ih =>
    intro sys p
    have here : (processes ++ [p])[processes.length]? = some p := by simp
    have one : step platform { system := sys, processes := processes ++ [p] }
        (.move processes.length .run) = (runStep platform sys p).map fun next =>
          { system := next.1, processes := processes ++ [next.2] } := by
      simp only [step, here, move, Option.bind_eq_bind, Option.bind_some]
      cases runStep platform sys p with
      | none => rfl
      | some next => simp
    change (step platform { system := sys, processes := processes ++ [p] }
      (.move processes.length .run)).bind _ = _
    rw [one, runAlone]
    cases runStep platform sys p with
    | none => rfl
    | some next => exact ih next.1 next.2

/-- The steps of a process that has been started, seen on the machine. -/
theorem run_start (s : State) (command : SCommand) (n : Nat) :
    Transition.run (step platform) s (.start command :: runs s.processes.length n) =
      (runAlone platform n s.system (.start command)).map fun next =>
        { system := next.1, processes := s.processes ++ [next.2] } :=
  run_runs s.processes n s.system (.start command)

/-- A part of `Create` that succeeds and does not open the destination. -/
theorem runAlone_creating {rest : List (Build × List Clean)} (done : List (Build × List Clean)) :
    ∀ sys p, p.pc = .creating (done ++ rest) →
      (∀ step ∈ done, succeeds platform sys.files p.command step.1 = true ∧ step.1 ≠ .openDest) →
      ∃ sys' p', runAlone platform done.length sys p = some (sys', p') ∧ p'.pc = .creating rest ∧
        Advanced done sys p sys' p' := by
  induction done with
  | nil =>
    intro sys p pc _
    exact ⟨sys, p, rfl, pc, rfl, rfl, rfl, fun _ => ⟨rfl, rfl⟩⟩
  | cons first done ih =>
    intro sys p pc succeed
    obtain ⟨build, unwinding⟩ := first
    obtain ⟨success, notDest⟩ := succeed (build, unwinding) List.mem_cons_self
    obtain ⟨sys₁, p₁, performed, built⟩ := perform_ok success
    have next : runStep platform sys p =
        some (sys₁, { p₁ with pc := .creating (done ++ rest) }) := by
      simp only [runStep, pc, List.cons_append, performed]
    have files := built.files notDest
    obtain ⟨sys₂, p₂, taken, pc₂, advanced⟩ :=
      ih sys₁ { p₁ with pc := .creating (done ++ rest) } rfl (by
        intro step member
        change succeeds platform sys₁.files p₁.command step.1 = true ∧ step.1 ≠ .openDest
        rw [files, built.command]
        exact succeed step (List.mem_cons_of_mem _ member))
    refine ⟨sys₂, p₂, ?_, pc₂, advanced.command.trans built.command,
      advanced.mutexes.trans built.mutexes, advanced.files.trans files, ?_⟩
    · rw [List.length_cons, runAlone, next]
      exact taken
    · intro opensNot
      have here : build.opensName = false := opensNot (build, unwinding) List.mem_cons_self
      obtain ⟨semaphores, memory⟩ :=
        advanced.names fun step member => opensNot step (List.mem_cons_of_mem _ member)
      exact ⟨semaphores.trans (built.semaphores (mayThrow_of_opensName here)),
        memory.trans (built.memory here)⟩

theorem runAlone_add {sys₁ : System} {p₁ : Process} (m n : Nat) : ∀ sys p,
    runAlone platform m sys p = some (sys₁, p₁) →
      runAlone platform (m + n) sys p = runAlone platform n sys₁ p₁ := by
  induction m with
  | zero =>
    intro sys p taken
    cases taken
    rw [Nat.zero_add]
  | succ m ih =>
    intro sys p taken
    obtain ⟨⟨sys₂, p₂⟩, next, rest⟩ := Option.bind_eq_some_iff.mp taken
    rw [Nat.succ_add, runAlone, next]
    exact ih sys₂ p₂ rest

/-- A process whose `Create` succeeds gets to the creation of the client mutex. -/
theorem runAlone_create (creatable : Creatable platform sys.files command) :
    ∃ sys' p', runAlone platform 12 sys (.start command) = some (sys', p') ∧
      p'.pc = .tryClient ∧ p'.command = command ∧ sys'.mutexes = sys.mutexes ∧
      FileDataWriter.Grown sys.files sys'.files := by
  have before : ∀ step ∈ create.take 10,
      succeeds platform sys.files command step.1 = true ∧ step.1 ≠ .openDest := by
    intro step member
    refine ⟨creatable step (List.mem_of_mem_take member), ?_⟩
    revert step
    decide
  obtain ⟨sys₁, p₁, taken, pc, advanced⟩ :=
    @runAlone_creating platform (create.drop 10) (create.take 10) sys (.start command) rfl before
  have same : p₁.command = command := advanced.command
  have dest : succeeds platform sys₁.files p₁.command .openDest = true := by
    rw [advanced.files, same]
    exact creatable (.openDest, accessCleaner ++ cleaner ++ accessCleaner) (by decide)
  obtain ⟨sys₂, p₂, performed, built⟩ := perform_ok dest
  have opened : runStep platform sys₁ p₁ = some (sys₂, { p₂ with pc := .creating [] }) := by
    rw [runStep, pc]
    simp only [create, buildAccess, List.cons_append, List.nil_append, List.drop_succ_cons,
      List.drop_zero, performed]
  refine ⟨sys₂, { p₂ with pc := .tryClient }, ?_, rfl, built.command.trans same,
    built.mutexes.trans advanced.mutexes, advanced.files ▸ built.grown⟩
  rw [runAlone_add 10 2 _ _ taken]
  simp only [runAlone, opened, Option.bind_some]
  rfl

end FileTransfer.MultiProcessTask
