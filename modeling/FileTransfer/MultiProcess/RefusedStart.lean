import FileTransfer.MultiProcess.Roles

/-!
# A start that is refused

What a process does to the names and to its destination from its start to its end, when the
others do nothing meanwhile. Whatever makes a start fail, the mutex names are removed on the way
out; a failure after the first data access also removes the semaphore names and that of the
shared memory.
-/

namespace FileTransfer.MultiProcessTask

open Posix NamedObjects

/-- Alone, the process ends with this result and leaves this behind. -/
def EndsWith (platform : Platform) (sys : System) (p : Process) (sys' : System)
    (result : Except StartFault Unit) : Prop :=
  ∃ n p', runAlone platform n sys p = some (sys', p') ∧ p'.pc = .ended result

/-- The contents of the destination and the names are the same. -/
structure Unchanged (command : SCommand) (sys sys' : System) : Prop where
  dest : ∀ path, command.dest = some path → sys'.files.contents path = sys.files.contents path
  mutexes : ∀ mutex, sys'.mutexes.names mutex = sys.mutexes.names mutex
  semaphores : ∀ name, sys'.semaphores.names name = sys.semaphores.names name
  memory : ∀ path, command.sharedMemory = some path →
    sys'.memory.names (cString path) = sys.memory.names (cString path)

/-- A process is started, and takes its steps while the others take none: it ends with an error,
    and its destination and the names are as they were. -/
def RefusedUnchanged (platform : Platform) (s : State) (command : SCommand) : Prop :=
  ∃ n t p fault,
    Transition.run (step platform) s (.start command :: runs s.processes.length n) = some t ∧
      t.processes[s.processes.length]? = some p ∧ p.pc = .ended (.error fault) ∧
      Unchanged command s.system t.system

/-- Nobody has a semaphore name, nor the name of the command's shared memory. -/
structure NamesFree (sys : System) (command : SCommand) : Prop where
  semaphores : ∀ name, sys.semaphores.names name = none
  memory : ∀ path, command.sharedMemory = some path → sys.memory.names (cString path) = none

/-- `Create` fails before it opens anything, or what it opened was not there. -/
def failsCleanly (platform : Platform) (sys : System) (command : SCommand) : Prop :=
  command.source = none ∨ opensMemory platform command = false ∨
    (NamesFree sys command ∧ (opensSource platform sys.files command = false ∨
      opensDest platform sys.files command = false))

variable {platform : Platform} {sys sys' : System} {p p' : Process} {command : SCommand}

/-- The first step of a process alone. -/
theorem endsWith_step {result : Except StartFault Unit} {sys₁ : System} {p₁ : Process}
    (next : runStep platform sys p = some (sys₁, p₁)) :
    EndsWith platform sys p sys' result ↔ EndsWith platform sys₁ p₁ sys' result := by
  constructor
  · intro ends
    obtain ⟨n, p', taken, pc⟩ := ends
    cases n with
    | zero =>
      cases taken
      simp only [runStep, pc] at next
      cases next
    | succ n =>
      simp only [runAlone, next, Option.bind_some] at taken
      exact ⟨n, p', taken, pc⟩
  · intro ends
    obtain ⟨n, p', taken, pc⟩ := ends
    refine ⟨n + 1, p', ?_, pc⟩
    simp only [runAlone, next, Option.bind_some]
    exact taken

theorem endsWith_ended {result result' : Except StartFault Unit} (pc : p.pc = .ended result') :
    EndsWith platform sys p sys' result ↔ sys' = sys ∧ result = result' := by
  constructor
  · intro ends
    obtain ⟨n, p', taken, pc'⟩ := ends
    cases n with
    | zero =>
      cases taken
      rw [pc] at pc'
      cases pc'
      exact ⟨rfl, rfl⟩
    | succ n =>
      simp only [runAlone, runStep, pc, Option.bind_none] at taken
      cases taken
  · intro same
    obtain ⟨rfl, rfl⟩ := same
    exact ⟨0, p, rfl, pc⟩

/-- Destructors remove what is left to remove. -/
theorem endsWith_cleaning {result result' : Except StartFault Unit} (rest : List Clean) :
    ∀ sys p, p.pc = .cleaning rest result' →
      (EndsWith platform sys p sys' result ↔
        sys' = rest.foldl (clean p.command) sys ∧ result = result') := by
  induction rest with
  | nil =>
    intro sys p pc
    have next : runStep platform sys p = some (sys, { p with pc := .ended result' }) := by
      simp only [runStep, pc]
    rw [endsWith_step next, endsWith_ended rfl]
    rfl
  | cons removal rest ih =>
    intro sys p pc
    have next : runStep platform sys p =
        some (clean p.command sys removal, { p with pc := .cleaning rest result' }) := by
      simp only [runStep, pc]
    rw [endsWith_step next, ih _ _ rfl]
    rfl

/-- A number of steps of a process alone. -/
theorem endsWith_runAlone {result : Except StartFault Unit} {sys₁ : System} {p₁ : Process}
    (n : Nat) : ∀ sys p, runAlone platform n sys p = some (sys₁, p₁) →
      (EndsWith platform sys p sys' result ↔ EndsWith platform sys₁ p₁ sys' result) := by
  induction n with
  | zero =>
    intro sys p taken
    cases taken
    exact Iff.rfl
  | succ n ih =>
    intro sys p taken
    obtain ⟨⟨sys₂, p₂⟩, next, rest⟩ := Option.bind_eq_some_iff.mp taken
    rw [endsWith_step next]
    exact ih sys₂ p₂ rest

/-- Where `Create` fails, unwinding removes names, and the process ends with an error. -/
theorem start_failing {build : Build} {unwinding : List Clean}
    {done rest : List (Build × List Clean)} (split : create = done ++ (build, unwinding) :: rest)
    (succeed : ∀ step ∈ done, succeeds platform sys.files command step.1 = true ∧
      step.1 ≠ .openDest)
    (fails : succeeds platform sys.files command build = false) :
    ∃ sys₁ fault, sys₁.files = sys.files ∧
      ((∀ step ∈ done, step.1.opensName = false) →
        sys₁.semaphores = sys.semaphores ∧ sys₁.memory = sys.memory) ∧
      ∀ sys' result, EndsWith platform sys (.start command) sys' result ↔
        sys' = unwinding.foldl (clean command) sys₁ ∧ result = .error fault := by
  obtain ⟨sys₁, p₁, taken, pc, advanced⟩ :=
    @runAlone_creating platform ((build, unwinding) :: rest) done sys (.start command)
      (congrArg Pc.creating split) succeed
  have same : p₁.command = command := advanced.command
  rw [← advanced.files, ← same] at fails
  obtain ⟨fault, performed⟩ := @perform_error platform sys₁ p₁ build fails
  have next : runStep platform sys₁ p₁ =
      some (sys₁, { p₁ with pc := .cleaning unwinding (.error fault) }) := by
    simp only [runStep, pc, performed]
  refine ⟨sys₁, fault, advanced.files, advanced.names, ?_⟩
  intro sys' result
  rw [endsWith_runAlone _ _ _ taken, endsWith_step next, endsWith_cleaning _ _ _ rfl, ← same]

/-- What removals leave of the names. -/
theorem names_foldl_clean (rest : List Clean) : ∀ sys : System,
    (∀ mutex, (rest.foldl (clean command) sys).mutexes.names mutex =
        if .removeMutex mutex ∈ rest then none else sys.mutexes.names mutex) ∧
      (∀ name, (rest.foldl (clean command) sys).semaphores.names name =
        if .removeSemaphore name ∈ rest then none else sys.semaphores.names name) ∧
      (∀ path, command.sharedMemory = some path →
        (rest.foldl (clean command) sys).memory.names (cString path) =
          if .removeMemory ∈ rest then none else sys.memory.names (cString path)) ∧
      (rest.foldl (clean command) sys).files = sys.files := by
  induction rest with
  | nil =>
    intro sys
    simp
  | cons removal rest ih =>
    intro sys
    obtain ⟨mutexes, semaphores, memory, files⟩ := ih (clean command sys removal)
    obtain ⟨mutexes₁, semaphores₁, memory₁, files₁⟩ := @names_clean sys command removal
    have both : ∀ (this : Clean) (before : Option Nat),
        (if this ∈ rest then none else if removal = this then none else before) =
          if this ∈ removal :: rest then none else before := by
      intro this before
      by_cases later : this ∈ rest
      · simp [later]
      · by_cases now : removal = this
        · simp [now]
        · simp [later, now, Ne.symm now]
    rw [List.foldl_cons]
    refine ⟨?_, ?_, ?_, files.trans files₁⟩
    · intro mutex
      rw [mutexes, mutexes₁, both]
    · intro name
      rw [semaphores, semaphores₁, both]
    · intro path named
      rw [memory path named, memory₁ path named, both]

/-- The process has had a role, and nothing was thrown. -/
def Pc.well : Pc → Bool
  | .client _ => true
  | .server _ => true
  | .cleaning _ (.ok ()) => true
  | .ended (.ok ()) => true
  | _ => false

theorem well_step (well : p.pc.well = true) (next : runStep platform sys p = some (sys', p')) :
    p'.pc.well = true := by
  have moved := runStep_moved next
  cases moved with
  | clientRuns runs pc names command pc' =>
    rw [pc']
    rfl
  | serverRuns runs pc names command pc' =>
    rw [pc']
    rfl
  | clientReturns run pc => rfl
  | serverReturns run pc => rfl
  | @cleaned run removal rest result pc =>
    rw [pc] at well
    cases result with
    | ok done => rfl
    | error fault => cases well
  | @ended run result pc =>
    rw [pc] at well
    cases result with
    | ok done => rfl
    | error fault => cases well
  | clientThrows throws pc => cases throws
  | serverThrows throws pc => cases throws
  | interrupted signal pc => cases signal
  | created run pc => rw [pc] at well; cases well
  | built run pc done => rw [pc] at well; cases well
  | thrown run pc done => rw [pc] at well; cases well
  | takeClient run pc free => rfl
  | noClient run pc taken => rw [pc] at well; cases well
  | takeServer run pc free => rfl
  | noServer run pc taken => rw [pc] at well; cases well
  | handled run pc => rw [pc] at well; cases well
  | exited run pc => rw [pc] at well; cases well

/-- A process that gets a role does not end with an error. -/
theorem not_endsWith_error (well : p.pc.well = true) (fault : StartFault) :
    ¬ EndsWith platform sys p sys' (.error fault) := by
  intro ends
  obtain ⟨n, p', taken, pc⟩ := ends
  have kept : ∀ n sys p, p.pc.well = true → runAlone platform n sys p = some (sys', p') →
      p'.pc.well = true := by
    intro n
    induction n with
    | zero =>
      intro sys p well taken
      cases taken
      exact well
    | succ n ih =>
      intro sys p well taken
      obtain ⟨⟨sys₁, p₁⟩, next, rest⟩ := Option.bind_eq_some_iff.mp taken
      exact ih sys₁ p₁ (well_step well next) rest
  have well' := kept n sys p well taken
  rw [pc] at well'
  cases well'

/-- The end of a start whose mutex names were removed on the way, and with `all` every other name
    too. -/
structure Removed (all : Bool) (command : SCommand) (sys sys' : System) : Prop where
  mutexes : ∀ mutex, sys'.mutexes.names mutex = none
  semaphores : ∀ name, sys'.semaphores.names name =
    if all then none else sys.semaphores.names name
  memory : ∀ path, command.sharedMemory = some path → sys'.memory.names (cString path) =
    if all then none else sys.memory.names (cString path)
  files : sys'.files = sys.files

/-- The names and the destination are as they were when the removed names were not there. -/
theorem Removed.unchanged_iff {all : Bool} (h : Removed all command sys sys') :
    Unchanged command sys sys' ↔ (∀ mutex, sys.mutexes.names mutex = none) ∧
      (all = true → NamesFree sys command) := by
  constructor
  · intro same
    refine ⟨?_, ?_⟩
    · intro mutex
      rw [← same.mutexes mutex]
      exact h.mutexes mutex
    · intro every
      refine ⟨?_, ?_⟩
      · intro name
        rw [← same.semaphores name, h.semaphores name, if_pos every]
      · intro path named
        rw [← same.memory path named, h.memory path named, if_pos every]
  · intro ⟨mutexes, others⟩
    refine ⟨?_, ?_, ?_, ?_⟩
    · intro path named
      rw [h.files]
    · intro mutex
      rw [h.mutexes, mutexes]
    · intro name
      rw [h.semaphores]
      by_cases every : all = true
      · rw [if_pos every, (others every).semaphores name]
      · rw [if_neg every]
    · intro path named
      rw [h.memory path named]
      by_cases every : all = true
      · rw [if_pos every, (others every).memory path named]
      · rw [if_neg every]

/-- What is left when `Create` fails before it opens anything. -/
theorem removed_early {sys₁ : System} (semaphores : sys₁.semaphores = sys.semaphores)
    (memory : sys₁.memory = sys.memory) (files : sys₁.files = sys.files) :
    Removed false command sys (cleaner.foldl (clean command) sys₁) := by
  obtain ⟨mutexes, semaphores', memory', files'⟩ := @names_foldl_clean command cleaner sys₁
  refine ⟨?_, ?_, ?_, files'.trans files⟩
  · intro mutex
    rw [mutexes, if_pos]
    cases mutex <;> decide
  · intro name
    rw [semaphores', semaphores, if_neg]
    · rfl
    · cases name <;> decide
  · intro path named
    rw [memory' path named, memory, if_neg (by decide)]
    rfl

/-- What is left when everything has been removed. -/
theorem removed_late {sys₁ : System} {unwinding : List Clean}
    (every : ∀ removal : Clean, removal ∈ unwinding) (files : sys₁.files = sys.files) :
    Removed true command sys (unwinding.foldl (clean command) sys₁) := by
  obtain ⟨mutexes, semaphores', memory', files'⟩ := @names_foldl_clean command unwinding sys₁
  refine ⟨?_, ?_, ?_, files'.trans files⟩
  · intro mutex
    rw [mutexes, if_pos (every _)]
  · intro name
    rw [semaphores', if_pos (every _)]
    rfl
  · intro path named
    rw [memory' path named, if_pos (every _)]
    rfl

/-- A start that ends in one way only, with an error and after these removals. -/
theorem ends_unchanged_iff {all : Bool} {end' : System} {fault : StartFault}
    (ends : ∀ sys' result, EndsWith platform sys p sys' result ↔
      sys' = end' ∧ result = .error fault) (removed : Removed all command sys end') :
    (∃ sys' fault, EndsWith platform sys p sys' (.error fault) ∧ Unchanged command sys sys') ↔
      (∀ mutex, sys.mutexes.names mutex = none) ∧ (all = true → NamesFree sys command) := by
  rw [← removed.unchanged_iff]
  constructor
  · intro some
    obtain ⟨sys', fault', ended, same⟩ := some
    obtain ⟨rfl, -⟩ := (ends sys' _).mp ended
    exact same
  · intro same
    exact ⟨end', fault, (ends end' _).mpr ⟨rfl, rfl⟩, same⟩

/-- When `Create` succeeds, the process gets a role, or finds both names and removes them. -/
theorem not_unchanged_of_created (pc : p.pc = .tryClient) {sys₀ : System}
    (mutexes : sys.mutexes = sys₀.mutexes) (fault : StartFault)
    (ends : EndsWith platform sys p sys' (.error fault)) : ¬ Unchanged command sys₀ sys' := by
  intro unchanged
  rcases sys.mutexes.createOnly_cases .client () with ⟨-, created⟩ | ⟨taken, failed⟩
  · have next : runStep platform sys p =
        some ({ sys with mutexes := sys.mutexes.create .client () },
          { p with pc := .client .loop }) := by
      simp only [runStep, pc, created]
    rw [endsWith_step next] at ends
    exact not_endsWith_error rfl fault ends
  · have next : runStep platform sys p = some (sys, { p with pc := .tryServer }) := by
      simp only [runStep, pc, failed]
    rw [endsWith_step next] at ends
    rcases sys.mutexes.createOnly_cases .server () with ⟨-, created⟩ | ⟨-, failed'⟩
    · have next' : runStep platform sys { p with pc := .tryServer } =
          some ({ sys with mutexes := sys.mutexes.create .server () },
            { p with pc := .server .next }) := by
        simp only [runStep, created]
      rw [endsWith_step next'] at ends
      exact not_endsWith_error rfl fault ends
    · have next' : runStep platform sys { p with pc := .tryServer } =
          some (sys, { p with pc := .cleaning destructor serverExists }) := by
        simp only [runStep, failed']
      rw [endsWith_step next', endsWith_cleaning _ _ _ rfl] at ends
      obtain ⟨left, -⟩ := ends
      -- The client mutex was there, and the destructor has removed it.
      have gone := (@names_foldl_clean p.command destructor sys).1 .client
      rw [if_pos (by decide)] at gone
      apply taken
      rw [mutexes, ← unchanged.mutexes .client, left]
      exact gone

theorem mem_accessCleaner_cleaner (removal : Clean) : removal ∈ accessCleaner ++ cleaner := by
  cases removal with
  | removeMutex mutex => cases mutex <;> decide
  | removeSemaphore name => cases name <;> decide
  | removeMemory => decide

/-- What a start does, alone, by what `Create` finds. -/
theorem start_unchanged_iff (platform : Platform) (sys : System) (command : SCommand) :
    (∃ sys' fault, EndsWith platform sys (.start command) sys' (.error fault) ∧
        Unchanged command sys sys') ↔
      (∀ mutex, sys.mutexes.names mutex = none) ∧ failsCleanly platform sys command := by
  unfold failsCleanly
  cases source : command.source with
  | none =>
    obtain ⟨sys₁, fault, files, names, ends⟩ :=
      @start_failing platform sys command .checkSources cleaner [] (create.drop 1) rfl
        (by simp) (by simp [succeeds, source])
    obtain ⟨semaphores, memory⟩ := names (by simp)
    rw [ends_unchanged_iff ends (removed_early semaphores memory files)]
    simp
  | some first =>
    have checked : succeeds platform sys.files command .checkSources = true := by
      simp [succeeds, source]
    cases memory : opensMemory platform command with
    | false =>
      obtain ⟨sys₁, fault, files, names, ends⟩ :=
        @start_failing platform sys command (.openMemory .reader) cleaner (create.take 1)
          (create.drop 2) rfl (by simp [create, checked]) memory
      obtain ⟨semaphores, memory'⟩ := names (by decide)
      rw [ends_unchanged_iff ends (removed_early semaphores memory' files)]
      simp
    | true =>
      cases readable : opensSource platform sys.files command with
      | false =>
        obtain ⟨sys₁, fault, files, -, ends⟩ :=
          @start_failing platform sys command .openSource (accessCleaner ++ cleaner)
            (create.take 5) (create.drop 6) rfl
            (by simp [create, buildAccess, succeeds, source, memory]) readable
        rw [ends_unchanged_iff ends (removed_late mem_accessCleaner_cleaner files)]
        simp
      | true =>
        have before : ∀ step ∈ create.take 10,
            succeeds platform sys.files command step.1 = true ∧ step.1 ≠ .openDest := by
          simp [create, buildAccess, succeeds, source, memory, readable]
        cases dest : opensDest platform sys.files command with
        | false =>
          obtain ⟨sys₁, fault, files, -, ends⟩ :=
            @start_failing platform sys command .openDest
              (accessCleaner ++ cleaner ++ accessCleaner) (create.take 10) [] rfl before dest
          have every : ∀ removal : Clean, removal ∈ accessCleaner ++ cleaner ++ accessCleaner :=
            fun removal => List.mem_append_left _ (mem_accessCleaner_cleaner removal)
          rw [ends_unchanged_iff ends (removed_late every files)]
          simp
        | true =>
          have creatable : Creatable platform sys.files command := by
            simp [Creatable, create, buildAccess, succeeds, source, memory, readable, dest]
          obtain ⟨sys₁, p₁, taken, pc, -, mutexes, -⟩ := runAlone_create creatable
          simp only [reduceCtorEq, Bool.true_eq_false, or_self, and_false, iff_false, not_exists,
            not_and]
          intro sys' fault ends
          rw [endsWith_runAlone _ _ _ taken] at ends
          exact not_unchanged_of_created pc mutexes fault ends

/-- What the machine shows of a start is what the process does alone. -/
theorem refusedUnchanged_iff_alone {s : State} :
    RefusedUnchanged platform s command ↔
      ∃ sys' fault, EndsWith platform s.system (.start command) sys' (.error fault) ∧
        Unchanged command s.system sys' := by
  have machine : ∀ n, Transition.run (step platform) s
      (.start command :: runs s.processes.length n) =
        (runAlone platform n s.system (.start command)).map fun next =>
          { system := next.1, processes := s.processes ++ [next.2] } :=
    fun n => run_runs s.processes n s.system (.start command)
  constructor
  · intro refused
    obtain ⟨n, t, p, fault, taken, found, pc, same⟩ := refused
    rw [machine, Option.map_eq_some_iff] at taken
    obtain ⟨⟨sys', p'⟩, alone, rfl⟩ := taken
    have last : p' = p := by simpa using found
    exact ⟨sys', fault, ⟨n, p', alone, last ▸ pc⟩, same⟩
  · intro ends
    obtain ⟨sys', fault, ⟨n, p', alone, pc⟩, same⟩ := ends
    refine ⟨n, { system := sys', processes := s.processes ++ [p'] }, p', fault, ?_, ?_, pc, same⟩
    · rw [machine, alone]
      rfl
    · simp

/-- From any state of the machine, whatever processes there are, and for any command: the new
    process ends with an error and leaves its destination and the names as they were, if and only
    if both mutex names were free, and `Create` failed before it opened anything, or what it
    opened was free and a file could not be opened. -/
theorem refused_unchanged_iff (platform : Platform) (s : State) (command : SCommand) :
    RefusedUnchanged platform s command ↔
      (∀ mutex, s.system.mutexes.names mutex = none) ∧
        failsCleanly platform s.system command :=
  refusedUnchanged_iff_alone.trans (start_unchanged_iff platform s.system command)

/-- A client and a server run, and a process is started without a source. -/
theorem refused_start_removes_names : ¬ ∀ platform files s command,
    Reaches platform (fun _ _ => True) (boot (.fresh files)) s →
    (∃ p ∈ s.processes, p.executes .client = true) →
    (∃ q ∈ s.processes, q.executes .server = true) → RefusedUnchanged platform s command := by
  intro always
  let command : SCommand :=
    { sources := some [ascii "a"], dest := some (ascii "b"), sharedMemory := some (ascii "m") }
  have roles : ((Transition.run (step (.permissive (ascii "/w")))
      (boot (.fresh (.single (ascii "a") [])))
      (.start command :: runs 0 13 ++ .start command :: runs 1 14)).any fun s =>
        s.processes.any (·.executes .client) ∧ s.processes.any (·.executes .server) ∧
          (s.system.mutexes.names .client).isSome) = true := by
    decide
  obtain ⟨s, taken, found⟩ := (Option.any_eq_true _ _).mp roles
  obtain ⟨client, server, named⟩ := of_decide_eq_true found
  have refused := always _ _ s { command with sources := none }
    (.of_run _ taken fun _ _ _ => trivial) (List.any_eq_true.mp client)
    (List.any_eq_true.mp server)
  rw [refusedUnchanged_iff_alone, start_unchanged_iff] at refused
  rw [refused.1 .client] at named
  cases named

end FileTransfer.MultiProcessTask
