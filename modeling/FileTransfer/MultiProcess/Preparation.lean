import FileTransfer.MultiProcess.Create
import FileTransfer.MultiProcess.Objects

/-!
# Processes that open the same names

`Create` of several processes on a system where none of their names is there yet, step by step and
in any order. Whoever opens a name first creates the object, the others find it, and as long as nobody
has begun to send the objects have their initial values.
-/

namespace FileTransfer.MultiProcessTask

open Posix NamedObjects

/-- The file of the first source. -/
def SCommand.sourceFile (command : SCommand) : Path := cString (command.source.getD [])

/-- The file of the destination. -/
def SCommand.destFile (command : SCommand) : Path := cString (command.dest.getD [])

/-- What reading the first source delivers. -/
def SCommand.content (platform : Platform) (files : FileSystem) (command : SCommand) :
    List UInt8 :=
  (files.openInput platform.host (command.source.getD [])).getD []

/-- The calls of a sender of the first source. -/
def SCommand.sends (platform : Platform) (files : FileSystem) (command : SCommand) : List Call :=
  callsOf (FileDataReader.create (command.content platform files) defaultChunkSize)

/-- `Create` can open all that the commands name, they name the same shared memory, and no
    destination is a source. -/
structure Suits (platform : Platform) (files : FileSystem) (memory : Path)
    (commands : List SCommand) : Prop where
  creatable : ∀ command ∈ commands, Creatable platform files command
  memory : ∀ command ∈ commands, command.sharedMemory.map cString = some memory
  apart : ∀ command ∈ commands, ∀ other ∈ commands, command.sourceFile ≠ other.destFile

/-- No semaphore has been moved and nothing has been sent; of the files only destinations have
    changed. -/
structure Untouched (files : FileSystem) (memory : Path) (commands : List SCommand)
    (sys : System) : Prop where
  counts : ∀ name id, sys.semaphores.names name = some id →
    sys.semaphores.value id = some name.initial
  separate : sys.semaphores.Separate
  blank : ∀ id, sys.memory.names memory = some id → sys.memory.value id = some []
  kept : ∀ path, (∀ command ∈ commands, path ≠ command.destFile) →
    sys.files.files path = files.files path
  grown : FileDataWriter.Grown files sys.files

/-- Names keep their objects, and empty files stay empty. -/
structure Extends (sys sys' : System) : Prop where
  semaphores : ∀ name id, sys.semaphores.names name = some id →
    sys'.semaphores.names name = some id
  memory : ∀ path id, sys.memory.names path = some id → sys'.memory.names path = some id
  emptied : ∀ path, sys.files.files path = some [] → sys'.files.files path = some []

/-- What the steps of `Create` that are done have given the process. -/
structure Prepared (platform : Platform) (files : FileSystem) (memory : Path) (sys : System)
    (p : Process) (done : List Build) : Prop where
  semaphores : ∀ task name, .openSemaphore task name ∈ done →
    ∃ id, (p.access task).semaphores name = some id ∧ sys.semaphores.names name = some id
  memory : ∀ task, .openMemory task ∈ done →
    ∃ id, (p.access task).memory = some id ∧ sys.memory.names memory = some id
  source : .openSource ∈ done →
    p.calls = p.command.sends platform files
  dest : .openDest ∈ done → ∃ dest, p.dest = some dest ∧ dest.stream.path = p.command.destFile ∧
    dest.Holds sys.files []

/-- The steps of `Create`. -/
def builds : List Build := create.map Prod.fst

/-- The process is in `Create` or before the creation of the client mutex. -/
def Preparing (platform : Platform) (files : FileSystem) (memory : Path) (sys : System)
    (p : Process) : Prop :=
  ∃ done, Prepared platform files memory sys p done ∧
    ((∃ rest, p.pc = .creating rest ∧ done ++ rest.map Prod.fst = builds) ∨
      p.pc = .tryClient ∧ done = builds)

/-- These objects are behind the names. -/
structure Objects.Named (o : Objects) (memory : Path) (sys : System) : Prop where
  stop : sys.semaphores.names .stop = some o.stop
  data : sys.semaphores.names .dataAvailable = some o.data
  space : sys.semaphores.names .spaceAvailable = some o.space
  memory : sys.memory.names memory = some o.memory

variable {platform : Platform} {files : FileSystem} {memory : Path} {commands : List SCommand}
  {sys sys' : System} {p p' : Process} {done : List Build} {build : Build}

theorem Extends.refl (sys : System) : Extends sys sys :=
  ⟨fun _ _ there => there, fun _ _ there => there, fun _ empty => empty⟩

theorem Extends.mutexes (mutexes : Store Mutex Unit) : Extends sys { sys with mutexes } :=
  ⟨fun _ _ there => there, fun _ _ there => there, fun _ empty => empty⟩

theorem Untouched.mutexes (h : Untouched files memory commands sys) (mutexes : Store Mutex Unit) :
    Untouched files memory commands { sys with mutexes } :=
  ⟨h.counts, h.separate, h.blank, h.kept, h.grown⟩

theorem Untouched.fresh (files : FileSystem) :
    Untouched files memory commands (.fresh files) := by
  refine ⟨?_, ?_, ?_, fun _ _ => rfl, .refl _⟩
  · rintro name id ⟨⟩
  · rintro name other id ⟨⟩
  · rintro id ⟨⟩

theorem Prepared.start (command : SCommand) :
    Prepared platform files memory sys (.start command) [] := by
  refine ⟨?_, ?_, ?_, ?_⟩ <;> simp

theorem Preparing.start (command : SCommand) :
    Preparing platform files memory sys (.start command) :=
  ⟨[], .start command, Or.inl ⟨create, rfl, rfl⟩⟩

/-- What another process does in `Create` leaves what has been prepared. -/
theorem Prepared.extends (h : Prepared platform files memory sys p done)
    (more : Extends sys sys') : Prepared platform files memory sys' p done := by
  refine ⟨?_, ?_, h.source, ?_⟩
  · intro task name member
    obtain ⟨id, opened, named⟩ := h.semaphores task name member
    exact ⟨id, opened, more.semaphores name id named⟩
  · intro task member
    obtain ⟨id, opened, named⟩ := h.memory task member
    exact ⟨id, opened, more.memory memory id named⟩
  · intro member
    obtain ⟨dest, opened, path, empty, start⟩ := h.dest member
    exact ⟨dest, opened, path, more.emptied _ empty, start⟩

/-- Only its place has changed. -/
theorem Prepared.moved (h : Prepared platform files memory sys p done)
    (command : p'.command = p.command) (access : p'.access = p.access) (calls : p'.calls = p.calls)
    (dest : p'.dest = p.dest) : Prepared platform files memory sys p' done := by
  refine ⟨?_, ?_, ?_, ?_⟩
  · rw [access]
    exact h.semaphores
  · rw [access]
    exact h.memory
  · rw [calls, command]
    exact h.source
  · rw [dest, command]
    exact h.dest

theorem Preparing.extends (h : Preparing platform files memory sys p)
    (more : Extends sys sys') : Preparing platform files memory sys' p := by
  obtain ⟨done, prepared, place⟩ := h
  exact ⟨done, prepared.extends more, place⟩

/-- Before anything is sent, a source delivers what it did at the start. -/
theorem Untouched.content (h : Untouched files memory commands sys)
    (suits : Suits platform files memory commands) {command : SCommand}
    (member : command ∈ commands) :
    sys.files.openInput platform.host (command.source.getD []) =
      some (command.content platform files) := by
  have same : sys.files.files command.sourceFile = files.files command.sourceFile :=
    h.kept _ fun other isOne => suits.apart command member other isOne
  have opens : succeeds platform files command .openSource = true :=
    suits.creatable command member (.openSource, accessCleaner ++ cleaner) (by decide)
  obtain ⟨content, found⟩ := Option.isSome_iff_exists.mp
    (show (files.openInput platform.host (command.source.getD [])).isSome = true from opens)
  rw [SCommand.content, found, Option.getD_some, ← found]
  simp only [SCommand.sourceFile] at same
  simp only [FileSystem.openInput, h.grown.isDirectory, same]

/-- The names that `open_or_create` of a semaphore leaves. -/
theorem Extends.openSemaphore (p : Process) (task : Task) (name : Semaphore) :
    Extends sys (openSemaphore task name sys p).1 :=
  ⟨fun _ _ there => Store.names_openOrCreate there, fun _ _ there => there, fun _ empty => empty⟩

theorem Untouched.openSemaphore (h : Untouched files memory commands sys) (p : Process)
    (task : Task) (name : Semaphore) :
    Untouched files memory commands (openSemaphore task name sys p).1 := by
  refine ⟨?_, h.separate.openOrCreate, h.blank, h.kept, h.grown⟩
  intro other id there
  rcases Store.names_openOrCreate_cases there with old | ⟨rfl, -, initial⟩
  · exact Store.value_openOrCreate (h.counts other id old)
  · exact initial

theorem Prepared.openSemaphore (h : Prepared platform files memory sys p done) (task : Task)
    (name : Semaphore) :
    Prepared platform files memory (openSemaphore task name sys p).1
      (openSemaphore task name sys p).2 (done ++ [.openSemaphore task name]) := by
  have more : Extends sys (MultiProcessTask.openSemaphore task name sys p).1 :=
    .openSemaphore p task name
  have before := h.extends more
  refine ⟨?_, ?_, ?_, ?_⟩
  · intro task' name' member
    by_cases same : task' = task ∧ name' = name
    · obtain ⟨rfl, rfl⟩ := same
      exact ⟨_, by simp [MultiProcessTask.openSemaphore, Process.open],
        Store.names_openOrCreate_self⟩
    · have old : .openSemaphore task' name' ∈ done := by
        simpa [same] using member
      obtain ⟨id, opened, named⟩ := before.semaphores task' name' old
      refine ⟨id, ?_, named⟩
      rw [← opened]
      by_cases sameTask : task' = task
      · subst sameTask
        have differ : name' ≠ name := fun sameName => same ⟨rfl, sameName⟩
        simp [MultiProcessTask.openSemaphore, Process.open, differ]
      · simp [MultiProcessTask.openSemaphore, Process.open, sameTask]
  · intro task' member
    obtain ⟨id, opened, named⟩ := before.memory task' (by simpa using member)
    refine ⟨id, ?_, named⟩
    rw [← opened]
    by_cases sameTask : task' = task
    · subst sameTask
      simp [MultiProcessTask.openSemaphore, Process.open]
    · simp [MultiProcessTask.openSemaphore, Process.open, sameTask]
  · exact fun member => h.source (by simpa using member)
  · exact fun member => before.dest (by simpa using member)

/-- The object behind the memory's name, opened or created. -/
theorem Prepared.openMemory (h : Prepared platform files memory sys p done) (task : Task) :
    let store := sys.memory.openOrCreate memory []
    Prepared platform files memory { sys with memory := store.2 }
      (p.open task fun access => { access with memory := some store.1 })
      (done ++ [.openMemory task]) := by
  refine ⟨?_, ?_, ?_, ?_⟩
  · intro task' name member
    obtain ⟨id, opened, named⟩ := h.semaphores task' name (by simpa using member)
    refine ⟨id, ?_, named⟩
    rw [← opened]
    by_cases same : task' = task
    · subst same
      simp [Process.open]
    · simp [Process.open, same]
  · intro task' member
    by_cases same : task' = task
    · subst same
      exact ⟨_, by simp [Process.open], Store.names_openOrCreate_self⟩
    · obtain ⟨id, opened, named⟩ := h.memory task' (by simpa [same] using member)
      exact ⟨id, by simpa [Process.open, same] using opened, Store.names_openOrCreate named⟩
  · exact fun member => h.source (by simpa using member)
  · exact fun member => h.dest (by simpa using member)

theorem Untouched.openMemory (h : Untouched files memory commands sys) :
    Untouched files memory commands
      { sys with memory := (sys.memory.openOrCreate memory []).2 } := by
  refine ⟨h.counts, h.separate, ?_, h.kept, h.grown⟩
  intro id there
  rcases Store.names_openOrCreate_cases there with old | ⟨-, -, initial⟩
  · exact Store.value_openOrCreate (h.blank id old)
  · exact initial

/-- A step of `Create` prepares the process, and disturbs no other. -/
theorem Prepared.perform (h : Prepared platform files memory sys p done)
    (untouched : Untouched files memory commands sys)
    (suits : Suits platform files memory commands) (member : p.command ∈ commands)
    (performed : perform platform sys p build = (sys', .ok p')) :
    Untouched files memory commands sys' ∧ Extends sys sys' ∧
      Prepared platform files memory sys' p' (done ++ [build]) := by
  cases build with
  | checkSources =>
    simp only [MultiProcessTask.perform] at performed
    split at performed
    · cases performed
    · cases performed
      refine ⟨untouched, .refl _, ?_, ?_, ?_, ?_⟩
      · exact fun task name member => h.semaphores task name (by simpa using member)
      · exact fun task member => h.memory task (by simpa using member)
      · exact fun member => h.source (by simpa using member)
      · exact fun member => h.dest (by simpa using member)
  | openMemory task =>
    obtain ⟨name, named, rfl⟩ := Option.map_eq_some_iff.mp (suits.memory p.command member)
    simp only [MultiProcessTask.perform, named] at performed
    split at performed
    · cases performed
      refine ⟨untouched.openMemory, ?_, h.openMemory task⟩
      exact ⟨fun _ _ there => there, fun _ _ there => Store.names_openOrCreate there,
        fun _ empty => empty⟩
    · cases performed
  | openSemaphore task name =>
    cases performed
    exact ⟨untouched.openSemaphore p task name, .openSemaphore p task name,
      h.openSemaphore task name⟩
  | openSource =>
    simp only [MultiProcessTask.perform, FileDataReader.open,
      untouched.content suits member] at performed
    cases performed
    refine ⟨untouched, .refl _, ?_, ?_, ?_, ?_⟩
    · exact fun task name member => h.semaphores task name (by simpa using member)
    · exact fun task member => h.memory task (by simpa using member)
    · intro _
      rw [SCommand.sends]
    · exact fun member => h.dest (by simpa using member)
  | openDest =>
    simp only [MultiProcessTask.perform] at performed
    split at performed
    · cases performed
    · rename_i dest set
      have path : p.command.destFile = cString dest := by rw [SCommand.destFile, set]; rfl
      simp only [FileDataWriter.create, FileDataWriter.openFile, FileSystem.openOutput,
        if_true] at performed
      by_cases opens : sys.files.canOpen platform.host dest = true
      · simp only [opens, if_true] at performed
        cases performed
        have emptied : Extends sys { sys with
            files :=
              { sys.files with
                files := Function.update sys.files.files (cString dest) (some []) } } := by
          refine ⟨fun _ _ there => there, fun _ _ there => there, ?_⟩
          intro path empty
          by_cases same : path = cString dest
          · subst same
            exact Function.update_self ..
          · simpa only [Function.update_of_ne same] using empty
        have before := h.extends emptied
        refine ⟨⟨untouched.counts, untouched.separate, untouched.blank, ?_,
          untouched.grown.trans (.update _ _)⟩, emptied, ?_, ?_, ?_, ?_⟩
        · intro other notDest
          have differ : other ≠ cString dest := path ▸ notDest p.command member
          simpa only [Function.update_of_ne differ] using untouched.kept other notDest
        · exact fun task name member => before.semaphores task name (by simpa using member)
        · exact fun task member => before.memory task (by simpa using member)
        · exact fun member => h.source (by simpa using member)
        · exact fun _ => ⟨_, rfl, path.symm, Function.update_self .., rfl⟩
      · simp only [opens, if_false, Bool.false_eq_true] at performed
        split at performed
        · rename_i failed
          split at failed
          · cases failed
          · split at failed <;> cases failed
        · cases performed

/-- A step of a process in `Create`. -/
theorem Preparing.step (h : Preparing platform files memory sys p)
    (untouched : Untouched files memory commands sys)
    (suits : Suits platform files memory commands) (member : p.command ∈ commands)
    (inside : p.pc ≠ .tryClient) (next : runStep platform sys p = some (sys', p')) :
    Untouched files memory commands sys' ∧ Extends sys sys' ∧
      Preparing platform files memory sys' p' ∧ p'.command = p.command ∧
      sys'.mutexes = sys.mutexes := by
  obtain ⟨done, prepared, ⟨rest, pc, whole⟩ | ⟨pc, -⟩⟩ := h
  · cases rest with
    | nil =>
      simp only [runStep, pc] at next
      cases next
      refine ⟨untouched, .refl _, ⟨done, ?_, Or.inr ⟨rfl, ?_⟩⟩, rfl, rfl⟩
      · exact prepared.moved rfl rfl rfl rfl
      · simpa using whole
    | cons first rest =>
      obtain ⟨build, unwinding⟩ := first
      have isStep : build ∈ builds := by
        rw [← whole]
        simp
      obtain ⟨step, isOne, rfl⟩ := List.mem_map.mp isStep
      have succeeds := succeeds_of_grown untouched.grown (suits.creatable _ member step isOne)
      obtain ⟨sys₁, p₁, performed, built⟩ := perform_ok succeeds
      simp only [runStep, pc, performed] at next
      cases next
      obtain ⟨untouched', more, prepared'⟩ :=
        prepared.perform untouched suits member performed
      refine ⟨untouched', more, ⟨done ++ [step.1], ?_, Or.inl ⟨rest, rfl, ?_⟩⟩, built.command,
        built.mutexes⟩
      · exact prepared'.moved rfl rfl rfl rfl
      · rw [← whole, List.map_cons, List.append_assoc]
        rfl
  · exact absurd pc inside

/-- Once `Create` is done, there are objects behind all names. -/
theorem Prepared.named (h : Prepared platform files memory sys p builds)
    (separate : sys.semaphores.Separate) : ∃ o : Objects, o.Named memory sys := by
  obtain ⟨stop, -, stopNamed⟩ := h.semaphores .reader .stop (by decide)
  obtain ⟨data, -, dataNamed⟩ := h.semaphores .reader .dataAvailable (by decide)
  obtain ⟨space, -, spaceNamed⟩ := h.semaphores .reader .spaceAvailable (by decide)
  obtain ⟨id, -, memoryNamed⟩ := h.memory .reader (by decide)
  refine ⟨⟨stop, data, space, id, ?_, ?_, ?_⟩, stopNamed, dataNamed, spaceNamed, memoryNamed⟩
  · rintro rfl
    cases separate _ _ _ stopNamed dataNamed
  · rintro rfl
    cases separate _ _ _ stopNamed spaceNamed
  · rintro rfl
    cases separate _ _ _ dataNamed spaceNamed

/-- Both tasks have those objects open. -/
theorem Prepared.opens {o : Objects} (h : Prepared platform files memory sys p builds)
    (named : o.Named memory sys) (task : Task) : (p.access task).Opens o := by
  have semaphore : ∀ name id, sys.semaphores.names name = some id →
      (p.access task).semaphores name = some id := by
    intro name id there
    have member : Build.openSemaphore task name ∈ builds := by
      cases task <;> cases name <;> decide
    obtain ⟨id', opened, named'⟩ := h.semaphores task name member
    cases there.symm.trans named'
    exact opened
  have member : Build.openMemory task ∈ builds := by cases task <;> decide
  obtain ⟨id, opened, memoryNamed⟩ := h.memory task member
  cases named.memory.symm.trans memoryNamed
  exact ⟨semaphore _ _ named.stop, semaphore _ _ named.data, semaphore _ _ named.space, opened⟩

/-- With the same names and files, and the initial values behind the names. -/
theorem Untouched.of_hold {o : Objects} (h : Untouched files memory commands sys)
    (named : o.Named memory sys) {s : MultiProcess.State} (hold : o.Hold sys' s)
    (initial : s.stop = 0 ∧ s.data = 0 ∧ s.space = 1 ∧ s.memory = [])
    (semaphores : sys'.semaphores.names = sys.semaphores.names)
    (memoryNames : sys'.memory.names = sys.memory.names) (same : sys'.files = sys.files) :
    Untouched files memory commands sys' := by
  obtain ⟨stop, data, space, blank⟩ := initial
  refine ⟨?_, ?_, ?_, same ▸ h.kept, same ▸ h.grown⟩
  · intro name id there
    rw [semaphores] at there
    cases name with
    | stop =>
      cases named.stop.symm.trans there
      rw [hold.stop, stop]
      rfl
    | dataAvailable =>
      cases named.data.symm.trans there
      rw [hold.data, data]
      rfl
    | spaceAvailable =>
      cases named.space.symm.trans there
      rw [hold.space, space]
      rfl
  · intro name other id there there'
    rw [semaphores] at there there'
    exact h.separate name other id there there'
  · intro id there
    rw [memoryNames, named.memory] at there
    cases there
    rw [hold.memory, blank]

/-- The objects behind the names are as at the start of the protocol. -/
theorem Untouched.hold {o : Objects} (h : Untouched files memory commands sys)
    (named : o.Named memory sys) {s : MultiProcess.State} (stop : s.stop = 0) (data : s.data = 0)
    (space : s.space = 1) (blank : s.memory = []) : o.Hold sys s := by
  refine ⟨?_, ?_, ?_, ?_⟩
  · rw [stop]
    exact h.counts _ _ named.stop
  · rw [data]
    exact h.counts _ _ named.data
  · rw [space]
    exact h.counts _ _ named.space
  · rw [blank]
    exact h.blank _ named.memory

end FileTransfer.MultiProcessTask
