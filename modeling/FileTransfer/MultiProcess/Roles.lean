import FileTransfer.MultiProcess.Create

/-!
# One client and one server

A mutex name is taken by one process, but `MultiProcessTask::Cleaner` removes it whoever holds
it. As long as no name is removed while a process has the role of the name, no two processes get
the same role.
-/

namespace FileTransfer.MultiProcessTask

open NamedObjects

/-- The process is in `writer_->Run()`, as client, or in `reader_->Run()`, as server. -/
def Process.executes (p : Process) (role : Mutex) : Bool :=
  match role, p.pc with
  | .client, .client _ => true
  | .server, .server _ => true
  | _, _ => false

/-- The removal of the name is what the process does next. -/
def Process.removes (p : Process) (mutex : Mutex) : Bool :=
  match p.pc with
  | .cleaning (.removeMutex name :: _) _ => name = mutex
  | .signalled (.removeMutex name :: _) => name = mutex
  | _ => false

/-- At most one process has the role. -/
def Exclusive (s : State) (role : Mutex) : Prop :=
  ∀ (i j : Nat) p q, s.processes[i]? = some p → s.processes[j]? = some q →
    p.executes role = true → q.executes role = true → i = j

/-- The guard of the runs in which no mutex name is removed while a process has its role. -/
def removesUnheld (s : State) : Action → Bool
  | .move i .run =>
    match s.processes[i]? with
    | none => true
    | some p => [Mutex.client, Mutex.server].all fun mutex =>
      !p.removes mutex || s.processes.all fun q => !q.executes mutex
  | _ => true

variable {platform : Platform} {sys sys' : System} {p p' : Process} {what : Move} {role : Mutex}

/-- A role that is held after a move was held before, or its name was free. -/
theorem Moved.executes (moved : Moved platform sys p what sys' p')
    (holds : p'.executes role = true) :
    (p.executes role = true ∧ sys'.mutexes = sys.mutexes) ∨
      (sys.mutexes.names role = none ∧ sys'.mutexes.names role ≠ none) := by
  have taken : ∀ mutex, (sys.mutexes.create mutex ()).names mutex ≠ none := by
    intro mutex
    rw [Store.names_create_self]
    exact Option.some_ne_none _
  cases moved with
  | takeClient run pc free =>
    cases role with
    | client => exact Or.inr ⟨free, taken .client⟩
    | server => cases holds
  | takeServer run pc free =>
    cases role with
    | client => cases holds
    | server => exact Or.inr ⟨free, taken .server⟩
  | clientRuns runs pc names command pc' =>
    refine Or.inl ⟨?_, names.mutexes⟩
    cases role with
    | client => simp [Process.executes, pc]
    | server => simp [Process.executes, pc'] at holds
  | serverRuns runs pc names command pc' =>
    refine Or.inl ⟨?_, names.mutexes⟩
    cases role with
    | client => simp [Process.executes, pc'] at holds
    | server => simp [Process.executes, pc]
  | _ => cases role <;> cases holds

/-- A removal takes away the mutex name that it is about. -/
theorem clean_mutexes {command : SCommand} {removal : Clean}
    (there : sys.mutexes.names role ≠ none) :
    (clean command sys removal).mutexes.names role ≠ none ∨ removal = .removeMutex role := by
  cases removal with
  | removeMutex mutex =>
    by_cases same : role = mutex
    · exact Or.inr (by rw [same])
    · refine Or.inl ?_
      simpa only [clean, Store.names_remove, Function.update_of_ne same] using there
  | removeSemaphore name => exact Or.inl there
  | removeMemory =>
    unfold clean
    cases command.sharedMemory with
    | none => exact Or.inl there
    | some name => exact Or.inl there

/-- A mutex name stays, unless the process that moves removes it. -/
theorem Moved.names (moved : Moved platform sys p what sys' p')
    (there : sys.mutexes.names role ≠ none) :
    sys'.mutexes.names role ≠ none ∨ (what = .run ∧ p.removes role = true) := by
  cases moved with
  | built run pc done =>
    rw [(perform_frame done).1]
    exact Or.inl there
  | thrown run pc done =>
    rw [(perform_frame done).1]
    exact Or.inl there
  | takeClient run pc free => exact Or.inl (Store.names_create_ne_none there)
  | takeServer run pc free => exact Or.inl (Store.names_create_ne_none there)
  | clientRuns runs pc names command pc' =>
    rw [names.mutexes]
    exact Or.inl there
  | serverRuns runs pc names command pc' =>
    rw [names.mutexes]
    exact Or.inl there
  | cleaned run pc =>
    rcases @clean_mutexes sys role p.command _ there with kept | removal
    · exact Or.inl kept
    · exact Or.inr ⟨run, by simp [Process.removes, pc, removal]⟩
  | handled run pc =>
    rcases @clean_mutexes sys role p.command _ there with kept | removal
    · exact Or.inl kept
    · exact Or.inr ⟨run, by simp [Process.removes, pc, removal]⟩
  | _ => exact Or.inl there

/-- One process at most has the role, and then the name of its mutex is there. -/
structure Held (s : State) (role : Mutex) : Prop where
  exclusive : Exclusive s role
  named : ∀ (i : Nat) p, s.processes[i]? = some p → p.executes role = true →
    s.system.mutexes.names role ≠ none

theorem Held.boot (system : System) : Held (boot system) role := by
  refine ⟨?_, ?_⟩
  · intro i j p q found
    cases found
  · intro i p found
    cases found

theorem Held.started {s : State} (h : Held s role) (command : SCommand) :
    Held { s with processes := s.processes ++ [.start command] } role := by
  have before : ∀ (i : Nat) p, (s.processes ++ [Process.start command])[i]? = some p →
      p.executes role = true → s.processes[i]? = some p := by
    intro i p found holds
    rcases getElem?_started found with old | ⟨-, rfl⟩
    · exact old
    · cases role <;> cases holds
  refine ⟨?_, ?_⟩
  · intro i j p q first second holds holds'
    exact h.exclusive i j p q (before i p first holds) (before j q second holds') holds holds'
  · intro i p found holds
    exact h.named i p (before i p found holds) holds

/-- What the guard says of a move that removes the name. -/
theorem removesUnheld_spec {s : State} {i : Nat} (found : s.processes[i]? = some p)
    (guard : removesUnheld s (.move i .run) = true) (removes : p.removes role = true) :
    ∀ q ∈ s.processes, q.executes role = false := by
  simp only [removesUnheld, found, List.all_cons, List.all_nil, Bool.and_true, Bool.and_eq_true,
    Bool.or_eq_true, Bool.not_eq_true', List.all_eq_true] at guard
  intro q member
  cases role with
  | client =>
    rcases guard.1 with other | unheld
    · rw [other] at removes
      cases removes
    · exact unheld q member
  | server =>
    rcases guard.2 with other | unheld
    · rw [other] at removes
      cases removes
    · exact unheld q member

theorem Held.moved {s : State} (h : Held s role) {i : Nat} (found : s.processes[i]? = some p)
    (guard : removesUnheld s (.move i what) = true)
    (moved : Moved platform s.system p what sys' p') :
    Held { system := sys', processes := s.processes.set i p' } role := by
  -- A process other than `p` that has the role keeps `p` from getting it.
  have apart : ∀ (j : Nat) q, j ≠ i → s.processes[j]? = some q → q.executes role = true →
      p'.executes role = false := by
    intro j q differ other holds
    by_contra gets
    rcases moved.executes (Bool.eq_true_of_not_eq_false gets) with ⟨held, -⟩ | ⟨free, -⟩
    · exact differ (h.exclusive j i q p other found holds held)
    · exact h.named j q other holds free
  refine ⟨?_, ?_⟩
  · intro a b q r first second holds holds'
    rcases getElem?_moved first with ⟨here, rfl⟩ | ⟨differ, old⟩
    · rcases getElem?_moved second with ⟨here', rfl⟩ | ⟨differ', old'⟩
      · exact here.trans here'.symm
      · rw [apart b r differ' old' holds'] at holds
        cases holds
    · rcases getElem?_moved second with ⟨here', rfl⟩ | ⟨differ', old'⟩
      · rw [apart a q differ old holds] at holds'
        cases holds'
      · exact h.exclusive a b q r old old' holds holds'
  · intro a q first holds
    rcases getElem?_moved first with ⟨-, rfl⟩ | ⟨-, old⟩
    · rcases moved.executes holds with ⟨held, same⟩ | ⟨-, named⟩
      · rw [same]
        exact h.named i p found held
      · exact named
    · rcases moved.names (h.named a q old holds) with named | ⟨rfl, removes⟩
      · exact named
      · have unheld := removesUnheld_spec found guard removes q (List.mem_of_getElem? old)
        rw [unheld] at holds
        cases holds

/-- What a process has passed of `Create` would succeed again. -/
def Process.passed (platform : Platform) (files : Posix.FileSystem) (p : Process) : Prop :=
  match p.pc with
  | .creating rest => ∃ done, create = done ++ rest ∧
      ∀ step ∈ done, succeeds platform files p.command step.1 = true
  | .tryClient => Creatable platform files p.command
  | .client _ => Creatable platform files p.command
  | .tryServer => Creatable platform files p.command
  | .server _ => Creatable platform files p.command
  | _ => True

theorem Process.passed.grown {files files' : Posix.FileSystem} (h : p.passed platform files)
    (grown : FileDataWriter.Grown files files') : p.passed platform files' := by
  unfold Process.passed at h ⊢
  split at h <;> rename_i pc
  · obtain ⟨done, split, succeed⟩ := h
    exact ⟨done, split, fun step member => succeeds_of_grown grown (succeed step member)⟩
  · exact h.grown grown
  · exact h.grown grown
  · exact h.grown grown
  · exact h.grown grown
  · trivial

theorem Process.passed.creatable {files : Posix.FileSystem} (h : p.passed platform files)
    (holds : p.executes role = true) : Creatable platform files p.command := by
  unfold Process.passed at h
  unfold Process.executes at holds
  split at holds <;> rename_i pc
  · rw [pc] at h
    exact h
  · rw [pc] at h
    exact h
  · cases holds

theorem Moved.passed (moved : Moved platform sys p what sys' p')
    (h : p.passed platform sys.files) : p'.passed platform sys'.files := by
  have grown := moved.grown
  cases moved with
  | created run pc =>
    simp only [Process.passed, pc, List.append_nil] at h
    obtain ⟨done, rfl, succeed⟩ := h
    exact succeed
  | @built run build unwinding rest _ p₁ pc done =>
    simp only [Process.passed, pc] at h
    obtain ⟨before, split, succeed⟩ := h
    refine ⟨before ++ [(build, unwinding)], by simpa using split, ?_⟩
    intro step member
    rcases perform_spec done with ⟨succeeded, p₂, same, built⟩ | ⟨-, ⟨fault, thrown⟩, -⟩
    · cases same
      apply succeeds_of_grown grown
      change succeeds platform sys.files p₁.command step.1 = true
      rw [built.command]
      rcases List.mem_append.mp member with early | last
      · exact succeed step early
      · rw [List.mem_singleton.mp last]
        exact succeeded
    · cases thrown
  | thrown run pc done => trivial
  | takeClient run pc free =>
    simp only [Process.passed, pc] at h
    exact h
  | noClient run pc taken =>
    simp only [Process.passed, pc] at h
    exact h
  | clientRuns runs pc names command pc' =>
    simp only [Process.passed, pc, pc', command] at h ⊢
    exact h.grown grown
  | clientReturns run pc => trivial
  | clientThrows throws pc =>
    simp only [Process.passed, pc] at h
    exact h
  | takeServer run pc free =>
    simp only [Process.passed, pc] at h
    exact h
  | noServer run pc taken => trivial
  | serverRuns runs pc names command pc' =>
    simp only [Process.passed, pc, pc', command] at h ⊢
    exact h.grown grown
  | _ => trivial

/-- In every run, what the processes have passed of `Create` would succeed again. -/
theorem passed_of_reaches {system : System} {s : State}
    (run : Reaches platform (fun _ _ => True) (boot system) s) :
    ∀ p ∈ s.processes, p.passed platform s.system.files := by
  refine run.invariant (I := fun t => ∀ p ∈ t.processes, p.passed platform t.system.files) ?_ ?_
  · intro p member
    cases member
  · intro t a u known _ next
    rcases step_cases next with
      ⟨command, rfl, rfl⟩ | ⟨i, what, p, system, p', rfl, found, moved, rfl⟩
    · intro q member
      rcases List.mem_append.mp member with old | new
      · exact known q old
      · rw [List.mem_singleton.mp new]
        exact ⟨[], rfl, by simp⟩
    · intro q member
      rcases List.mem_or_eq_of_mem_set member with old | rfl
      · exact (known q old).grown moved.grown
      · exact moved.passed (known p (List.mem_of_getElem? found))

/-- A process that has been started, after a number of steps. -/
theorem reaches_start {s : State} {command : SCommand} {n : Nat}
    (taken : runAlone platform n s.system (.start command) = some (sys', p')) :
    Reaches platform (fun _ _ => True) s { system := sys', processes := s.processes ++ [p'] } := by
  apply Transition.Reaches.of_run (.start command :: runs s.processes.length n)
  · rw [run_start, taken]
    rfl
  · intro _ _ _
    trivial

/-- Where the client mutex is free, a command that can be created gives a client. -/
theorem start_client {s : State} {command : SCommand}
    (creatable : Creatable platform s.system.files command)
    (free : s.system.mutexes.names .client = none) :
    ∃ sys' p', Reaches platform (fun _ _ => True) s
        { system := sys', processes := s.processes ++ [p'] } ∧
      p'.executes .client = true ∧ sys'.mutexes = s.system.mutexes.create .client () ∧
      FileDataWriter.Grown s.system.files sys'.files := by
  obtain ⟨sys₁, p₁, taken, pc, -, mutexes, grown⟩ := runAlone_create creatable
  have created : sys₁.mutexes.createOnly .client () = some (sys₁.mutexes.create .client ()) := by
    rw [mutexes]
    simp only [Store.createOnly, free]
  refine ⟨{ sys₁ with mutexes := sys₁.mutexes.create .client () }, { p₁ with pc := .client .loop },
    @reaches_start platform _ _ s command (12 + 1) ?_, rfl, by rw [mutexes], grown⟩
  rw [runAlone_add 12 1 _ _ taken]
  simp only [runAlone, runStep, pc, created, Option.bind_some]

/-- Where the client mutex is taken and the server mutex free, it gives a server. -/
theorem start_server {s : State} {command : SCommand}
    (creatable : Creatable platform s.system.files command)
    (taken : s.system.mutexes.names .client ≠ none)
    (free : s.system.mutexes.names .server = none) :
    ∃ sys' p', Reaches platform (fun _ _ => True) s
        { system := sys', processes := s.processes ++ [p'] } ∧ p'.executes .server = true := by
  obtain ⟨sys₁, p₁, ran, pc, -, mutexes, -⟩ := runAlone_create creatable
  have failed : sys₁.mutexes.createOnly .client () = none := by
    rw [mutexes]
    rcases s.system.mutexes.createOnly_cases .client () with ⟨absent, -⟩ | ⟨-, failed⟩
    · exact absurd absent taken
    · exact failed
  have created : sys₁.mutexes.createOnly .server () = some (sys₁.mutexes.create .server ()) := by
    rw [mutexes]
    simp only [Store.createOnly, free]
  refine ⟨{ sys₁ with mutexes := sys₁.mutexes.create .server () }, { p₁ with pc := .server .next },
    @reaches_start platform _ _ s command (12 + 2) ?_, rfl⟩
  rw [runAlone_add 12 2 _ _ ran]
  simp only [runAlone, runStep, pc, failed, created, Option.bind_some]

/-- A process from before and a new one with the same role. -/
theorem not_exclusive_of_new {processes : List Process} {q : Process} (member : q ∈ processes)
    (holds : q.executes role = true) (holds' : p'.executes role = true) :
    ¬ Exclusive { system := sys', processes := processes ++ [p'] } role := by
  intro exclusive
  obtain ⟨j, found⟩ := List.mem_iff_getElem?.mp member
  have inside := (List.getElem?_eq_some_iff.mp found).1
  have first : (processes ++ [p'])[j]? = some q := by
    rw [List.getElem?_append_left inside]
    exact found
  have last : (processes ++ [p'])[processes.length]? = some p' := by simp
  have same := exclusive j processes.length q p' first last holds holds'
  omega

/-- Where a name is free whose role a process has, another process can get the role. -/
theorem second_holder {s : State} {q : Process} (member : q ∈ s.processes)
    (passed : q.passed platform s.system.files) (holds : q.executes role = true)
    (free : s.system.mutexes.names role = none) :
    ∃ t, Reaches platform (fun _ _ => True) s t ∧ ¬ Exclusive t role := by
  have creatable := passed.creatable holds
  cases role with
  | client =>
    obtain ⟨sys', p', run, holds', -, -⟩ := start_client creatable free
    exact ⟨_, run, not_exclusive_of_new member holds holds'⟩
  | server =>
    by_cases noClient : s.system.mutexes.names .client = none
    · -- The first new process takes the client mutex, the second one the server mutex.
      obtain ⟨sys₁, p₁, run, -, mutexes, grown⟩ := start_client creatable noClient
      obtain ⟨sys₂, p₂, run', holds'⟩ := @start_server platform
        { system := sys₁, processes := s.processes ++ [p₁] } q.command (creatable.grown grown)
        (by
          rw [mutexes, Store.names_create_self]
          exact Option.some_ne_none _)
        (by
          rw [mutexes, Store.create]
          have differ : Mutex.server ≠ .client := by decide
          simpa only [Function.update_of_ne differ] using free)
      refine ⟨_, run.trans run', ?_⟩
      exact not_exclusive_of_new (List.mem_append_left _ member) holds holds'
    · obtain ⟨sys', p', run, holds'⟩ := start_server creatable noClient free
      exact ⟨_, run, not_exclusive_of_new member holds holds'⟩

/-- The step of a process that removes the name. -/
theorem runStep_of_removes (removes : p.removes role = true) :
    p.executes role = false ∧ ∃ p', runStep platform sys p =
      some ({ sys with mutexes := sys.mutexes.remove role }, p') := by
  unfold Process.removes at removes
  split at removes <;> rename_i pc
  · rw [← of_decide_eq_true removes]
    refine ⟨?_, _, by simp only [runStep, pc, clean]; rfl⟩
    simp [Process.executes, pc]
  · rw [← of_decide_eq_true removes]
    refine ⟨?_, _, by simp only [runStep, pc, clean]; rfl⟩
    simp [Process.executes, pc]
  · cases removes

/-- What it says that the guard does not hold. -/
theorem removesUnheld_false {s : State} {a : Action} (held : removesUnheld s a = false) :
    ∃ i p role q, a = .move i .run ∧ s.processes[i]? = some p ∧ p.removes role = true ∧
      q ∈ s.processes ∧ q.executes role = true := by
  unfold removesUnheld at held
  split at held
  · rename_i i
    split at held
    · cases held
    · rename_i p found
      obtain ⟨role, -, both⟩ := List.all_eq_false.mp held
      simp only [Bool.or_eq_true, Bool.not_eq_true', not_or, Bool.not_eq_false,
        List.all_eq_true, not_forall] at both
      obtain ⟨removes, q, member, holds⟩ := both
      exact ⟨i, p, role, q, rfl, found, removes, member, holds⟩
  · cases held

/-- After the removal of a name whose role a process has, another one can get the role. -/
theorem not_exclusive_follows {system : System} {s s' : State} {a : Action}
    (run : Reaches platform (fun _ _ => True) (boot system) s)
    (held : removesUnheld s a = false) (next : step platform s a = some s') :
    ∃ t role, Reaches platform (fun _ _ => True) s' t ∧ ¬ Exclusive t role := by
  obtain ⟨i, p, role, q, rfl, found, removes, member, holds⟩ := removesUnheld_false held
  obtain ⟨idle, p', taken⟩ := @runStep_of_removes platform s.system p role removes
  simp only [step, found, move, taken, Option.bind_eq_bind, Option.bind_some, Option.pure_def,
    Option.some.injEq] at next
  subst next
  -- The process that has the role is not the one that removes the name.
  have other : q ∈ s.processes.set i p' := by
    obtain ⟨j, at_j⟩ := List.mem_iff_getElem?.mp member
    have differ : i ≠ j := by
      rintro rfl
      rw [found] at at_j
      cases at_j
      rw [idle] at holds
      cases holds
    rw [← List.getElem?_set_ne differ] at at_j
    exact List.mem_of_getElem? at_j
  obtain ⟨t, run', violated⟩ := @second_holder platform role
    { system := { s.system with mutexes := s.system.mutexes.remove role },
      processes := s.processes.set i p' } q other (passed_of_reaches run q member) holds
    (Function.update_self ..)
  exact ⟨t, role, run', violated⟩

/-- For any number of processes and any interleaving of their steps, with exceptions and with
    SIGINT: in every run in which no mutex name is removed while a process has its role, at most
    one process is client and at most one is server; and after a removal of such a name there is
    always a run in which two processes have the same role. -/
theorem roles_exclusive (platform : Platform) (system : System) :
    (∀ s, Reaches platform (fun s a => removesUnheld s a = true) (boot system) s →
        ∀ role, Exclusive s role) ∧
      ∀ s a s', Reaches platform (fun _ _ => True) (boot system) s →
        removesUnheld s a = false → step platform s a = some s' →
          ∃ t role, Reaches platform (fun _ _ => True) s' t ∧ ¬ Exclusive t role := by
  constructor
  · intro s run role
    have held : Held s role := by
      apply run.invariant (Held.boot system)
      intro t a u inv guard next
      rcases step_cases next with
        ⟨command, rfl, rfl⟩ | ⟨i, what, p, system, p', rfl, found, moved, rfl⟩
      · exact inv.started command
      · exact inv.moved found guard moved
    exact held.exclusive
  · intro s a s' run held next
    exact not_exclusive_follows run held next

/-- Two processes become client and server; and a start without a source, which removes the name
    of the client mutex while a client runs, after which a second client can run. -/
theorem roles_exclusive_small :
    (∃ s, Reaches (.permissive (ascii "/w")) (fun s a => removesUnheld s a = true)
        (boot (.fresh (.single (ascii "a") []))) s ∧
      s.processes.map (·.executes .client) = [true, false] ∧
      s.processes.map (·.executes .server) = [false, true] ∧ ∀ role, Exclusive s role) ∧
    ∃ s s', Reaches (.permissive (ascii "/w")) (fun _ _ => True)
        (boot (.fresh (.single (ascii "a") []))) s ∧
      removesUnheld s (.move 1 .run) = false ∧
      step (.permissive (ascii "/w")) s (.move 1 .run) = some s' ∧
      ∃ t role, Reaches (.permissive (ascii "/w")) (fun _ _ => True) s' t ∧
        ¬ Exclusive t role := by
  let command : SCommand :=
    { sources := some [ascii "a"], dest := some (ascii "b"), sharedMemory := some (ascii "m") }
  constructor
  · have roles : ((Transition.run (fun s a => if removesUnheld s a = true then
        step (.permissive (ascii "/w")) s a else none) (boot (.fresh (.single (ascii "a") [])))
        (.start command :: runs 0 13 ++ .start command :: runs 1 14)).any fun s =>
          s.processes.map (·.executes .client) = [true, false] ∧
            s.processes.map (·.executes .server) = [false, true]) = true := by
      decide
    obtain ⟨s, taken, found⟩ := (Option.any_eq_true _ _).mp roles
    obtain ⟨client, server⟩ := of_decide_eq_true found
    have run := Transition.Reaches.of_checked_run _ taken
    exact ⟨s, run, client, server, (roles_exclusive _ _).1 s run⟩
  · have removal : ((Transition.run (step (.permissive (ascii "/w")))
        (boot (.fresh (.single (ascii "a") [])))
        (.start command :: runs 0 13 ++ .start { command with sources := none } :: runs 1 1)).any
          fun s => removesUnheld s (.move 1 .run) = false ∧
            (step (.permissive (ascii "/w")) s (.move 1 .run)).isSome) = true := by
      decide
    obtain ⟨s, taken, found⟩ := (Option.any_eq_true _ _).mp removal
    obtain ⟨held, enabled⟩ := of_decide_eq_true found
    obtain ⟨s', next⟩ := Option.isSome_iff_exists.mp enabled
    have run : Reaches (.permissive (ascii "/w")) (fun _ _ => True)
        (boot (.fresh (.single (ascii "a") []))) s :=
      .of_run _ taken fun _ _ _ => trivial
    exact ⟨s, s', run, held, next, (roles_exclusive _ _).2 s _ s' run held next⟩

/-- A client runs, a start without a source removes the name of its mutex, and the next start
    is a second client. -/
theorem second_client : ¬ ∀ platform system s role,
    Reaches platform (fun _ _ => True) (boot system) s → Exclusive s role := by
  intro always
  let command : SCommand :=
    { sources := some [ascii "a"], dest := some (ascii "b"), sharedMemory := some (ascii "m") }
  have roles : ((Transition.run (step (.permissive (ascii "/w")))
      (boot (.fresh (.single (ascii "a") [])))
      (.start command :: runs 0 13 ++ .start { command with sources := none } :: runs 1 2 ++
        .start command :: runs 2 13)).any fun s =>
        s.processes.map (·.executes .client) = [true, false, true]) = true := by
    decide
  obtain ⟨s, taken, found⟩ := (Option.any_eq_true _ _).mp roles
  have clients := of_decide_eq_true found
  have run : Reaches (.permissive (ascii "/w")) (fun _ _ => True)
      (boot (.fresh (.single (ascii "a") []))) s :=
    .of_run _ taken fun _ _ _ => trivial
  have holds : ∀ i : Nat, i = 0 ∨ i = 2 → ∃ p, s.processes[i]? = some p ∧
      p.executes .client = true := by
    intro i which
    have found : (s.processes.map (·.executes .client))[i]? = some true := by
      rw [clients]
      rcases which with rfl | rfl
      · rfl
      · rfl
    rw [List.getElem?_map, Option.map_eq_some_iff] at found
    exact found
  obtain ⟨p, first, isClient⟩ := holds 0 (Or.inl rfl)
  obtain ⟨q, third, isClient'⟩ := holds 2 (Or.inr rfl)
  exact absurd (always _ _ s .client run 0 2 p q first third isClient isClient') (by decide)

end FileTransfer.MultiProcessTask
