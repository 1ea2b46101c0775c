import FileTransfer.MultiProcess.Preparation
import FileTransfer.MultiProcess.Termination

/-!
# A copy by two processes

The machine with two processes, from `Create` to the destructors. Whichever takes the client mutex
receives and the other one sends; on the objects that they have opened their steps are those of the
protocol, and what the protocol delivers is in the client's destination.
-/

namespace FileTransfer.MultiProcessTask

open Posix NamedObjects

/-- A machine on which these have just been started, and no name has been created. -/
def launched (files : FileSystem) (commands : List SCommand) : State :=
  { system := .fresh files, processes := commands.map .start }

/-- The place in `writer_->Run()` of a process that is a client or has been one. -/
def Pc.receiver : Pc → Option MultiProcess.ReceiverPc
  | .client pc => some pc
  | .cleaning _ _ => some .finished
  | .ended _ => some .finished
  | _ => none

/-- What process `j` sees before a step of `reader_->Run()`, with the place of process `i`. -/
def picture (m : State) (i j : Nat) : Option MultiProcess.State := do
  let p ← m.processes[i]?
  let q ← m.processes[j]?
  let receiver ← p.pc.receiver
  match q.pc with
  | .server sender =>
    let (_, s) ← within m.system (q.access .reader) some
      { MultiProcess.start [] q.calls with sender, receiver }
    pure s
  | _ => none

/-- No signal and no failure, and a process takes a step of the sender only where `ok` holds. -/
def Guarded (ok : MultiProcess.State → Prop) (m : State) (a : Action) : Prop :=
  ∃ k, a = .move k .run ∧ ∀ i s, picture m i k = some s → ok s

/-- The same condition on the steps of the protocol. -/
def Paced (ok : MultiProcess.State → Prop) (s : MultiProcess.State) (a : MultiProcess.Action) :
    Prop :=
  MultiProcess.noFault s a ∧ (a = .sender → ok s)

/-- A condition that looks at what the parties share and where they are. -/
def Blind (ok : MultiProcess.State → Prop) : Prop :=
  ∀ s published taken delivered,
    ok { s with published := published, taken := taken, delivered := delivered } ↔ ok s

/-- The machine has these two processes. -/
structure Two (commands : List SCommand) (m : State) (i j : Nat) (p q : Process) : Prop where
  commands : m.processes.map Process.command = commands
  first : m.processes[i]? = some p
  second : m.processes[j]? = some q
  differ : i ≠ j

/-- Nobody has got a mutex. -/
structure Gathering (platform : Platform) (files : FileSystem) (memory : Path)
    (commands : List SCommand) (m : State) (i j : Nat) (p q : Process) : Prop where
  two : Two commands m i j p q
  untouched : Untouched files memory commands m.system
  noClient : m.system.mutexes.names .client = none
  noServer : m.system.mutexes.names .server = none
  first : Preparing platform files memory m.system p
  second : Preparing platform files memory m.system q

/-- One is the client and polls, the other one is not the server yet. -/
structure Polling (platform : Platform) (files : FileSystem) (memory : Path)
    (commands : List SCommand) (m : State) (i j : Nat) (p q : Process) : Prop where
  two : Two commands m i j p q
  untouched : Untouched files memory commands m.system
  client : m.system.mutexes.names .client ≠ none
  noServer : m.system.mutexes.names .server = none
  prepared : Prepared platform files memory m.system p builds
  polls : p.pc = .client .loop ∨ p.pc = .client .tryData
  other : Preparing platform files memory m.system q ∨
    Prepared platform files memory m.system q builds ∧ q.pc = .tryServer

/-- The process has returned from its task. -/
def Pc.returned (pc : Pc) : Prop := (∃ rest, pc = .cleaning rest (.ok ())) ∨ pc = .ended (.ok ())

/-- What a process has still to do when it has returned from its task. -/
def Pc.toEnd : Pc → Nat
  | .client _ => destructor.length + 2
  | .server _ => destructor.length + 2
  | .cleaning rest _ => rest.length + 1
  | _ => 0

/-- Both have their roles, and are where the protocol has got to. -/
structure Running (platform : Platform) (files : FileSystem) (commands : List SCommand)
    (ok : MultiProcess.State → Prop) (m : State) (i j : Nat) (p q : Process) (o : Objects)
    (s : MultiProcess.State) : Prop where
  two : Two commands m i j p q
  hold : o.Hold m.system s
  receives : (p.access .writer).Opens o
  sends : (q.access .reader).Opens o
  client : p.pc = .client s.receiver ∨ s.receiver = .finished ∧ p.pc.returned
  server : q.pc = .server s.sender ∧ q.calls = s.calls ∨ s.sender = .finished ∧ q.pc.returned
  dest : ∃ dest bytes, p.dest = some dest ∧ dest.stream.path = p.command.destFile ∧
    s.delivered.flatten = bytes.map some ∧ dest.Holds m.system.files bytes
  reached : MultiProcess.Reaches platform.page (Paced ok)
    (MultiProcess.start [] (q.command.sends platform files)) s

/-- Where a copy by two processes is. -/
inductive Phase (platform : Platform) (files : FileSystem) (memory : Path)
    (commands : List SCommand) (ok : MultiProcess.State → Prop) (m : State) : Prop
  | gathering {i j : Nat} {p q : Process}
      (h : Gathering platform files memory commands m i j p q) :
      Phase platform files memory commands ok m
  | polling {i j : Nat} {p q : Process}
      (h : Polling platform files memory commands m i j p q) :
      Phase platform files memory commands ok m
  | running {i j : Nat} {p q : Process} {o : Objects} {s : MultiProcess.State}
      (h : Running platform files commands ok m i j p q o s) :
      Phase platform files memory commands ok m

variable {platform : Platform} {files : FileSystem} {memory : Path} {commands : List SCommand}
  {ok : MultiProcess.State → Prop} {m m' : State} {i j k : Nat} {p p' q q' r : Process}
  {sys sys' : System} {o : Objects} {s t : MultiProcess.State}

theorem Two.symm (h : Two commands m i j p q) : Two commands m j i q p :=
  ⟨h.commands, h.second, h.first, h.differ.symm⟩

theorem Two.members (h : Two commands m i j p q) :
    commands[i]? = some p.command ∧ commands[j]? = some q.command := by
  rw [← h.commands, List.getElem?_map, List.getElem?_map, h.first, h.second]
  exact ⟨rfl, rfl⟩

theorem Two.mem (h : Two commands m i j p q) : p.command ∈ commands :=
  List.mem_of_getElem? h.members.1

/-- There are no others. -/
theorem Two.cases (h : Two commands m i j p q) (two : commands.length = 2)
    (found : m.processes[k]? = some r) : (k = i ∧ r = p) ∨ (k = j ∧ r = q) := by
  have length : m.processes.length = 2 := by rw [← two, ← h.commands, List.length_map]
  obtain ⟨first, -⟩ := List.getElem?_eq_some_iff.mp h.first
  obtain ⟨second, -⟩ := List.getElem?_eq_some_iff.mp h.second
  obtain ⟨third, -⟩ := List.getElem?_eq_some_iff.mp found
  have differ := h.differ
  have which : k = i ∨ k = j := by omega
  rcases which with rfl | rfl
  · exact Or.inl ⟨rfl, Option.some.inj (found.symm.trans h.first)⟩
  · exact Or.inr ⟨rfl, Option.some.inj (found.symm.trans h.second)⟩

theorem Two.moved (h : Two commands m i j p q) (command : p'.command = p.command) :
    Two commands { system := sys', processes := m.processes.set i p' } i j p' q := by
  obtain ⟨inside, at_i⟩ := List.getElem?_eq_some_iff.mp h.first
  refine ⟨?_, List.getElem?_set_self inside, ?_, h.differ⟩
  · rw [List.map_set, command, ← List.map_set, ← at_i, List.set_getElem_self, h.commands]
  · rw [List.getElem?_set_ne h.differ]
    exact h.second

theorem Two.moved_second (h : Two commands m i j p q) (command : q'.command = q.command) :
    Two commands { system := sys', processes := m.processes.set j q' } i j p q' :=
  (h.symm.moved command).symm

/-- A step of a process on the machine. -/
theorem step_run (next : step platform m (.move k .run) = some m') :
    ∃ r sys' r', m.processes[k]? = some r ∧ runStep platform m.system r = some (sys', r') ∧
      m' = { system := sys', processes := m.processes.set k r' } := by
  simp only [step, Option.bind_eq_bind, Option.bind_eq_some_iff, Option.pure_def,
    Option.some.injEq] at next
  obtain ⟨r, found, ⟨sys', r'⟩, moved, rfl⟩ := next
  exact ⟨r, sys', r', found, moved, rfl⟩

theorem Gathering.symm (h : Gathering platform files memory commands m i j p q) :
    Gathering platform files memory commands m j i q p :=
  ⟨h.two.symm, h.untouched, h.noClient, h.noServer, h.second, h.first⟩

theorem Preparing.prepared (h : Preparing platform files memory sys p) (pc : p.pc = .tryClient) :
    Prepared platform files memory sys p builds := by
  obtain ⟨done, prepared, ⟨rest, creating, -⟩ | ⟨-, rfl⟩⟩ := h
  · rw [pc] at creating
    cases creating
  · exact prepared

/-- A step before anybody has a mutex. -/
theorem Gathering.step (h : Gathering platform files memory commands m i j p q)
    (suits : Suits platform files memory commands)
    (next : runStep platform m.system p = some (sys', p')) :
    let m' : State := { system := sys', processes := m.processes.set i p' }
    Gathering platform files memory commands m' i j p' q ∨
      Polling platform files memory commands m' i j p' q := by
  by_cases pc : p.pc = .tryClient
  · have free := h.noClient
    simp only [runStep, pc, Store.createOnly, free] at next
    cases next
    right
    refine ⟨h.two.moved rfl, h.untouched.mutexes _, ?_, ?_, ?_, Or.inl rfl, Or.inl ?_⟩
    · rw [Store.names_create_self]
      exact Option.some_ne_none _
    · rw [Store.create]
      have differ : Mutex.server ≠ .client := by decide
      simpa only [Function.update_of_ne differ] using h.noServer
    · exact ((h.first.prepared pc).extends (.mutexes _)).moved rfl rfl rfl rfl
    · exact h.second.extends (.mutexes _)
  · obtain ⟨untouched, more, first, command, mutexes⟩ :=
      h.first.step h.untouched suits h.two.mem pc next
    left
    exact ⟨h.two.moved command, untouched, mutexes ▸ h.noClient, mutexes ▸ h.noServer, first,
      h.second.extends more⟩

/-- A client that finds nothing polls on. -/
theorem Polling.client_step (h : Polling platform files memory commands m i j p q)
    (next : runStep platform m.system p = some (sys', p')) :
    Polling platform files memory commands { system := sys', processes := m.processes.set i p' } i j
      p' q := by
  obtain ⟨o, named⟩ := h.prepared.named h.untouched.separate
  have opens := h.prepared.opens named .writer
  -- The receiver goes to and fro between its two semaphores.
  obtain ⟨receiver, receiver', pc, stepped, pc'⟩ : ∃ receiver receiver',
      p.pc = .client receiver ∧
        MultiProcess.receiverStep platform.page
            { MultiProcess.start [] [] with receiver := receiver } =
          some { MultiProcess.start [] [] with receiver := receiver' } ∧
        (receiver = .loop ∧ receiver' = .tryData ∨ receiver = .tryData ∧ receiver' = .loop) := by
    rcases h.polls with pc | pc
    · exact ⟨.loop, .tryData, pc, rfl, Or.inl ⟨rfl, rfl⟩⟩
    · exact ⟨.tryData, .loop, pc, rfl, Or.inr ⟨rfl, rfl⟩⟩
  have hold : o.Hold m.system { MultiProcess.start [] [] with receiver := receiver } :=
    h.untouched.hold named rfl rfl rfl rfl
  have running : ¬ (receiver = .finished ∨ receiver = .failed) := by
    rcases pc' with ⟨rfl, -⟩ | ⟨rfl, -⟩ <;> simp
  simp only [runStep, pc, if_neg running] at next
  obtain ⟨t, chunk, dest, taken, nothing, opened, rfl, rfl⟩ :=
    (hold.clientStep_eq_some opens).mp next
  cases stepped.symm.trans taken
  obtain rfl : chunk = [] := List.map_eq_nil_iff.mp nothing.symm
  have same : dest.write m.system.files [] = (dest, m.system.files) := if_pos rfl
  have extends' : Extends m.system
      { o.put m.system { MultiProcess.start [] [] with receiver := receiver' } with
        files := (dest.write m.system.files []).2 } := by
    rw [same]
    exact ⟨fun _ _ there => there, fun _ _ there => there, fun _ empty => empty⟩
  refine ⟨h.two.moved rfl, ?_, h.client, h.noServer, ?_, ?_, ?_⟩
  · refine h.untouched.of_hold named
      (s := { MultiProcess.start [] [] with receiver := receiver' }) ?_ ⟨rfl, rfl, rfl, rfl⟩ rfl rfl
      ?_
    · have put := hold.put { MultiProcess.start [] [] with receiver := receiver' }
      exact ⟨put.stop, put.data, put.space, put.memory⟩
    · rw [same]
  · refine (h.prepared.extends extends').moved rfl rfl rfl ?_
    rw [same, opened]
  · rcases pc' with ⟨-, rfl⟩ | ⟨-, rfl⟩
    · exact Or.inr rfl
    · exact Or.inl rfl
  · rcases h.other with preparing | ⟨prepared, tries⟩
    · exact Or.inl (preparing.extends extends')
    · exact Or.inr ⟨prepared.extends extends', tries⟩

/-- The client is where polling has brought the receiver. -/
theorem Polling.polled (h : Polling platform files memory commands m i j p q) (calls : List Call) :
    ∃ receiver, p.pc = .client receiver ∧ MultiProcess.Reaches platform.page (Paced ok)
      (MultiProcess.start [] calls) { MultiProcess.start [] calls with receiver := receiver } := by
  rcases h.polls with pc | pc
  · exact ⟨.loop, pc, .refl⟩
  · have guard : Paced ok (MultiProcess.start [] calls) .receiver :=
      ⟨Or.inr rfl, fun sender => by cases sender⟩
    exact ⟨.tryData, pc, .single guard rfl⟩

/-- The other process goes on, until it is the server. -/
theorem Polling.other_step (h : Polling platform files memory commands m i j p q)
    (suits : Suits platform files memory commands)
    (next : runStep platform m.system q = some (sys', q')) :
    let m' : State := { system := sys', processes := m.processes.set j q' }
    Polling platform files memory commands m' i j p q' ∨
      ∃ o s, Running platform files commands ok m' i j p q' o s ∧ p.pc = .client s.receiver ∧
        q'.pc = .server s.sender ∧ q'.calls = s.calls := by
  rcases h.other with preparing | ⟨prepared, tries⟩
  · by_cases pc : q.pc = .tryClient
    · left
      rcases m.system.mutexes.createOnly_cases .client () with ⟨free, -⟩ | ⟨-, failed⟩
      · exact absurd free h.client
      simp only [runStep, pc, failed] at next
      cases next
      exact ⟨h.two.moved_second rfl, h.untouched, h.client, h.noServer, h.prepared, h.polls,
        Or.inr ⟨(preparing.prepared pc).moved rfl rfl rfl rfl, rfl⟩⟩
    · left
      obtain ⟨untouched, more, other, command, mutexes⟩ :=
        preparing.step h.untouched suits h.two.symm.mem pc next
      exact ⟨h.two.moved_second command, untouched, mutexes ▸ h.client, mutexes ▸ h.noServer,
        h.prepared.extends more, h.polls, Or.inl other⟩
  · right
    have free := h.noServer
    simp only [runStep, tries, Store.createOnly, free] at next
    cases next
    obtain ⟨o, named⟩ := h.prepared.named h.untouched.separate
    obtain ⟨receiver, pc, polled⟩ := h.polled (q.command.sends platform files)
    obtain ⟨dest, opened, path, empty⟩ := h.prepared.dest (by decide)
    have calls : ∀ all, q.calls = all →
        q.calls = { MultiProcess.start [] all with receiver := receiver }.calls :=
      fun _ same => same
    have sending := calls _ (prepared.source (by decide))
    refine ⟨o, { MultiProcess.start [] (q.command.sends platform files) with receiver := receiver },
      ⟨h.two.moved_second rfl, ?_, h.prepared.opens named .writer, prepared.opens named .reader,
        Or.inl pc, Or.inl ⟨rfl, sending⟩, ⟨dest, [], opened, path, rfl, empty⟩, polled⟩, pc, rfl,
      sending⟩
    have hold : ∀ all, o.Hold m.system
        { MultiProcess.start [] all with receiver := receiver } :=
      fun _ => h.untouched.hold named rfl rfl rfl rfl
    exact ⟨(hold _).stop, (hold _).data, (hold _).space, (hold _).memory⟩

/-- The chunks that a sender sends are those of its source. -/
theorem sends_eq (platform : Platform) (files : FileSystem) (command : SCommand) :
    ∃ chunks, command.sends platform files = FileDataTransferTask.callsFor chunks ∧
      chunks.flatten = command.content platform files ∧ ∀ chunk ∈ chunks, chunk ≠ [] := by
  obtain ⟨chunks, last, loop, whole, valid⟩ :=
    FileDataReader.loop_create (command.content platform files) defaultChunkSize (by decide)
  refine ⟨chunks, ?_, whole, fun chunk member => (valid chunk member).1⟩
  unfold SCommand.sends callsOf
  change ((FileDataTransferTask.loop FileDataReader.read
    ((command.content platform files).length + 1) _).map Prod.fst).getD [] = _
  rw [loop]
  rfl

/-- Removing names leaves the objects that are open, and the files. -/
theorem Objects.Hold.clean (h : o.Hold sys s) (command : SCommand) (removal : Clean) :
    o.Hold (clean command sys removal) s ∧ (clean command sys removal).files = sys.files := by
  refine ⟨?_, (names_clean removal).2.2.2⟩
  cases removal with
  | removeMutex mutex => exact ⟨h.stop, h.data, h.space, h.memory⟩
  | removeSemaphore name => exact ⟨h.stop, h.data, h.space, h.memory⟩
  | removeMemory =>
    cases named : command.sharedMemory with
    | none => simpa only [MultiProcessTask.clean, named] using h
    | some path =>
      simp only [MultiProcessTask.clean, named]
      exact ⟨h.stop, h.data, h.space, h.memory⟩

theorem Pc.returned.receiver {pc : Pc} (h : pc.returned) : pc.receiver = some .finished := by
  rcases h with ⟨rest, rfl⟩ | rfl <;> rfl

/-- After the tasks there are the destructors. -/
theorem Pc.returned.step (h : p.pc.returned)
    (next : runStep platform sys p = some (sys', p')) (hold : o.Hold sys s) :
    p'.pc.returned ∧ o.Hold sys' s ∧ sys'.files = sys.files ∧
      ∃ pc, p' = { p with pc := pc } ∧ pc.toEnd < p.pc.toEnd := by
  rcases h with ⟨rest, pc⟩ | pc
  · cases rest with
    | nil =>
      simp only [runStep, pc] at next
      cases next
      exact ⟨Or.inr rfl, hold, rfl, _, rfl, by simp [pc, Pc.toEnd]⟩
    | cons removal rest =>
      simp only [runStep, pc] at next
      cases next
      obtain ⟨hold', same⟩ := hold.clean p.command removal
      exact ⟨Or.inl ⟨rest, rfl⟩, hold', same, _, rfl, by simp [pc, Pc.toEnd]⟩
  · simp only [runStep, pc] at next
    cases next

theorem Running.copying (h : Running platform files commands ok m i j p q o s) :
    ∃ chunks, q.command.sends platform files = FileDataTransferTask.callsFor chunks ∧
      MultiProcess.Copying chunks s := by
  obtain ⟨chunks, calls, -, -⟩ := sends_eq platform files q.command
  have reached := h.reached
  rw [calls] at reached
  exact ⟨chunks, calls, (MultiProcess.Copying.start []).of_reaches
    (fun _ _ guard => guard.1.noThrow) reached⟩

theorem Running.receiver (h : Running platform files commands ok m i j p q o s) :
    p.pc.receiver = some s.receiver := by
  rcases h.client with pc | ⟨finished, returned⟩
  · rw [pc]
    rfl
  · rw [returned.receiver, finished]

/-- What the server sees is where the protocol is. -/
theorem Running.picture (h : Running platform files commands ok m i j p q o s)
    (pc : q.pc = .server s.sender) (calls : q.calls = s.calls) :
    picture m i j = some { s with published := [], taken := 0, delivered := [] } := by
  simp only [MultiProcessTask.picture, h.two.first, h.two.second, h.receiver, pc,
    Option.bind_eq_bind, Option.bind_some, Option.pure_def, calls]
  rw [h.hold.within h.sends]
  rfl

/-- A step of the server is a step of the sender, or takes it nearer to its end. -/
theorem Running.server_step (h : Running platform files commands ok m i j p q o s)
    (blind : Blind ok) (guard : ∀ i s, MultiProcessTask.picture m i j = some s → ok s)
    (next : runStep platform m.system q = some (sys', q')) :
    ∃ t, Running platform files commands ok { system := sys', processes := m.processes.set j q' }
        i j p q' o t ∧
      (MultiProcess.senderStep s = some t ∧ q'.pc.toEnd = q.pc.toEnd ∨
        t = s ∧ q'.pc.toEnd < q.pc.toEnd) := by
  rcases h.server with ⟨pc, calls⟩ | ⟨finished, returned⟩
  · by_cases finished : s.sender = .finished
    · simp only [runStep, pc, if_pos finished] at next
      cases next
      exact ⟨s, ⟨h.two.moved_second rfl, h.hold, h.receives, h.sends, h.client,
        Or.inr ⟨finished, Or.inl ⟨_, rfl⟩⟩, h.dest, h.reached⟩,
        Or.inr ⟨rfl, by simp [pc, Pc.toEnd]⟩⟩
    · simp only [runStep, pc, if_neg finished] at next
      rw [h.hold.serverStep h.sends calls] at next
      obtain ⟨t, stepped, same⟩ := Option.map_eq_some_iff.mp next
      cases same
      obtain ⟨receiver, -, delivered⟩ := MultiProcess.senderStep_frame stepped
      have allowed : ok s := (blind s [] 0 []).mp (guard i _ (h.picture pc calls))
      refine ⟨t, ⟨h.two.moved_second rfl, h.hold.put t, h.receives, h.sends, ?_,
        Or.inl ⟨rfl, rfl⟩, ?_, .tail h.reached ⟨Or.inl rfl, fun _ => allowed⟩ stepped⟩,
        Or.inl ⟨stepped, by simp [pc, Pc.toEnd]⟩⟩
      · rw [receiver]
        exact h.client
      · rw [delivered]
        exact h.dest
  · obtain ⟨returned', hold, same, pc, rfl, less⟩ := returned.step next h.hold
    refine ⟨s, ⟨h.two.moved_second rfl, hold, h.receives, h.sends, h.client,
      Or.inr ⟨finished, returned'⟩, ?_, h.reached⟩, Or.inr ⟨rfl, less⟩⟩
    rw [same]
    exact h.dest

/-- What has been delivered stays. -/
theorem receiverStep_newBytes {page : Nat}
    (stepped : MultiProcess.receiverStep page s = some t) :
    t.delivered.flatten = s.delivered.flatten ++ Objects.newBytes s t := by
  rw [MultiProcess.receiverStep_local] at stepped
  obtain ⟨t', -, rfl⟩ := Option.map_eq_some_iff.mp stepped
  rw [Objects.newBytes, List.drop_left, List.flatten_append]

/-- A step of the client is a step of the receiver with its write, or takes it nearer to its end. -/
theorem Running.client_step (h : Running platform files commands ok m i j p q o s)
    (next : runStep platform m.system p = some (sys', p')) :
    ∃ t, Running platform files commands ok { system := sys', processes := m.processes.set i p' }
        i j p' q o t ∧
      (MultiProcess.receiverStep platform.page s = some t ∧ p'.pc.toEnd = p.pc.toEnd ∨
        t = s ∧ p'.pc.toEnd < p.pc.toEnd) := by
  rcases h.client with pc | ⟨finished, returned⟩
  · obtain ⟨chunks, -, copying⟩ := h.copying
    by_cases left : s.receiver = .finished ∨ s.receiver = .failed
    · simp only [runStep, pc, if_pos left] at next
      cases next
      have finished := left.resolve_right copying.normal.2
      exact ⟨s, ⟨h.two.moved rfl, h.hold, h.receives, h.sends,
        Or.inr ⟨finished, Or.inl ⟨_, rfl⟩⟩, h.server, h.dest, h.reached⟩,
        Or.inr ⟨rfl, by simp [pc, Pc.toEnd]⟩⟩
    · simp only [runStep, pc, if_neg left] at next
      obtain ⟨t, chunk, dest, stepped, whole, opened, rfl, rfl⟩ :=
        (h.hold.clientStep_eq_some h.receives).mp next
      obtain ⟨calls, sender, -, -⟩ := MultiProcess.receiverStep_frame stepped
      obtain ⟨dest', bytes, opened', path, delivered, content⟩ := h.dest
      rw [opened] at opened'
      cases opened'
      have put := h.hold.put t
      refine ⟨t, ⟨h.two.moved rfl, ⟨put.stop, put.data, put.space, put.memory⟩, h.receives, h.sends,
        Or.inl rfl, ?_, ⟨_, bytes ++ chunk, rfl, ?_, ?_, content.write chunk⟩,
        .tail h.reached ⟨Or.inr rfl, fun sender => by cases sender⟩ stepped⟩,
        Or.inl ⟨stepped, by simp [pc, Pc.toEnd]⟩⟩
      · rw [sender, calls]
        exact h.server
      · rw [FileDataWriter.write_path]
        exact path
      · rw [receiverStep_newBytes stepped, delivered, whole, List.map_append]
  · obtain ⟨returned', hold, same, pc, rfl, less⟩ := returned.step next h.hold
    refine ⟨s, ⟨h.two.moved rfl, hold, h.receives, h.sends, Or.inr ⟨finished, returned'⟩, h.server,
      ?_, h.reached⟩, Or.inr ⟨rfl, less⟩⟩
    rw [same]
    exact h.dest

theorem Phase.start (suits : commands.length = 2) :
    Phase platform files memory commands ok (launched files commands) := by
  obtain ⟨a, b, rfl⟩ := List.length_eq_two.mp suits
  refine .gathering (i := 0) (j := 1) (p := .start a) (q := .start b)
    ⟨⟨rfl, rfl, rfl, by decide⟩, .fresh files, rfl, rfl, .start a, .start b⟩

theorem Phase.step (h : Phase platform files memory commands ok m) (two : commands.length = 2)
    (suits : Suits platform files memory commands) (blind : Blind ok) {a : Action}
    (guard : Guarded ok m a) (next : step platform m a = some m') :
    Phase platform files memory commands ok m' := by
  obtain ⟨k, rfl, allowed⟩ := guard
  obtain ⟨r, sys', r', found, moved, rfl⟩ := step_run next
  cases h with
  | @gathering i j p q h =>
    rcases h.two.cases two found with ⟨rfl, rfl⟩ | ⟨rfl, rfl⟩
    · rcases h.step suits moved with gathering | polling
      · exact .gathering gathering
      · exact .polling polling
    · rcases h.symm.step suits moved with gathering | polling
      · exact .gathering gathering
      · exact .polling polling
  | @polling i j p q h =>
    rcases h.two.cases two found with ⟨rfl, rfl⟩ | ⟨rfl, rfl⟩
    · exact .polling (h.client_step moved)
    · rcases h.other_step suits moved with polling | ⟨o, s, running, -⟩
      · exact .polling polling
      · exact .running running
  | @running i j p q o s h =>
    rcases h.two.cases two found with ⟨rfl, rfl⟩ | ⟨rfl, rfl⟩
    · obtain ⟨t, running, -⟩ := h.client_step moved
      exact .running running
    · obtain ⟨t, running, -⟩ := h.server_step blind allowed moved
      exact .running running

theorem Phase.of_reaches (two : commands.length = 2)
    (suits : Suits platform files memory commands) (blind : Blind ok)
    (run : Reaches platform (Guarded ok) (launched files commands) m) :
    Phase platform files memory commands ok m :=
  run.invariant (.start two) fun _ _ _ phase guard next => phase.step two suits blind guard next

/-- Two processes are where the protocol is: what the server sees, and what is in the destination of
    a process that is a client or has been one. -/
structure Follows (m : State) (i j : Nat) (client : SCommand) (s : MultiProcess.State) : Prop where
  sees : ∀ s', picture m i j = some s' →
    s' = { s with published := [], taken := 0, delivered := [] }
  receives : ∀ p receiver, m.processes[i]? = some p → p.pc.receiver = some receiver →
    s.receiver = receiver ∧ ∃ bytes, m.system.files.files client.destFile = some bytes ∧
      s.delivered.flatten = bytes.map some

/-- A process that is not the server takes no step of the sender. -/
theorem picture_eq_none (found : m.processes[j]? = some q)
    (other : ∀ sender, q.pc ≠ .server sender) : picture m i j = none := by
  simp only [picture, found, Option.bind_eq_bind, Option.bind_some]
  cases m.processes[i]? with
  | none => rfl
  | some p =>
    simp only [Option.bind_some]
    cases p.pc.receiver with
    | none => rfl
    | some receiver => simp only [Option.bind_some]

theorem Preparing.pc (h : Preparing platform files memory sys p) :
    p.pc.receiver = none ∧ ∀ sender, p.pc ≠ .server sender := by
  obtain ⟨done, -, ⟨rest, pc, -⟩ | ⟨pc, -⟩⟩ := h <;> simp [pc, Pc.receiver]

/-- In every run of two processes, whatever is asked of the steps of the sender: the protocol has a
    run that meets the same condition and ends where they are. -/
theorem Phase.follows (h : Phase platform files memory commands ok m) :
    ∃ i j client server s, i ≠ j ∧ commands[i]? = some client ∧ commands[j]? = some server ∧
      MultiProcess.Reaches platform.page (Paced ok)
        (MultiProcess.start [] (server.sends platform files)) s ∧
      Follows m i j client s := by
  cases h with
  | @gathering i j p q h =>
    obtain ⟨client, server⟩ := h.two.members
    refine ⟨i, j, p.command, q.command, _, h.two.differ, client, server, .refl, ?_, ?_⟩
    · intro s' seen
      rw [picture_eq_none h.two.second h.second.pc.2] at seen
      cases seen
    · intro r receiver found place
      cases h.two.first.symm.trans found
      rw [h.first.pc.1] at place
      cases place
  | @polling i j p q h =>
    obtain ⟨client, server⟩ := h.two.members
    obtain ⟨receiver, pc, polled⟩ := @Polling.polled _ _ _ _ ok _ _ _ _ _ h
      (q.command.sends platform files)
    obtain ⟨dest, -, path, empty⟩ := h.prepared.dest (by decide)
    refine ⟨i, j, p.command, q.command, _, h.two.differ, client, server, polled, ?_, ?_⟩
    · intro s' seen
      have notServer : ∀ sender, q.pc ≠ .server sender := by
        rcases h.other with preparing | ⟨-, tries⟩
        · exact preparing.pc.2
        · simp [tries]
      rw [picture_eq_none h.two.second notServer] at seen
      cases seen
    · intro r receiver' found place
      cases h.two.first.symm.trans found
      rw [pc] at place
      cases place
      exact ⟨rfl, [], path ▸ empty.1, rfl⟩
  | @running i j p q o s h =>
    obtain ⟨client, server⟩ := h.two.members
    obtain ⟨dest, bytes, -, path, delivered, content⟩ := h.dest
    refine ⟨i, j, p.command, q.command, s, h.two.differ, client, server, h.reached, ?_, ?_⟩
    · intro s' seen
      rcases h.server with ⟨pc, calls⟩ | ⟨-, returned⟩
      · rw [h.picture pc calls] at seen
        exact (Option.some.inj seen).symm
      · have notServer : ∀ sender, q.pc ≠ .server sender := by
          rcases returned with ⟨rest, pc⟩ | pc <;> simp [pc]
        rw [picture_eq_none h.two.second notServer] at seen
        cases seen
    · intro r receiver found place
      cases h.two.first.symm.trans found
      rw [h.receiver] at place
      cases place
      exact ⟨rfl, bytes, path ▸ content.1, delivered⟩

end FileTransfer.MultiProcessTask
