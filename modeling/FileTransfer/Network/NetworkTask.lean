import FileTransfer.Factory.TaskFactory
import FileTransfer.Network.ClientCalls

/-!
# A client with several sources

`NetworkTask` in the role of a client: `Create` makes a task for each source, with an encryption
object and a connection of its own, and `Run` runs one task after the other. A connection that could
not be made is no exception, and neither `Run` nor `main` learns of it. An exception that leaves a
task is caught in `Run`, and `SignalHandler` calls `std::exit(0)`.
-/

namespace FileTransfer

open Posix

/-- A task is only made for a source that can be read. -/
theorem FileTransferTask.create_ok {host : Host} {fs : FileSystem} {source : Path}
    {random : Nat → Vector UInt8 blockSize} {task : FileTransferTask}
    (created : FileTransferTask.create host fs source random = .ok task) :
    ∃ content, source ≠ [] ∧ fs.openInput host source = some content ∧
      task = FileTransferTask.forFile source content random := by
  have named : source ≠ [] := by
    rintro rfl
    cases created
  cases there : fs.openInput host source with
  | none =>
    simp only [FileTransferTask.create] at created
    split at created
    · cases created
    · simp only [FileDataReader.open, there] at created
      split at created
      · cases created
      · rename_i opened
        split at opened
        · cases opened
        · split at opened <;> cases opened
  | some content =>
    rw [FileTransferTask.create_of_openInput named there] at created
    cases created
    exact ⟨content, named, rfl, rfl⟩

namespace NetworkTask

open MultiProcessTask (StartFault)

/-- How the constructor of `TCPClient` (`TCPClient.h:25`) gets on: the server's name is not resolved,
    no endpoint takes the connection, or one does. -/
inductive Connect where
  | unresolved (what : List UInt8)
  | refused
  | connected
  deriving DecidableEq

/-- `is_connected_to_server_` after the constructor, which only throws when the name is not
    resolved. -/
def Connect.result : Connect → Except Fault Bool
  | .unresolved what => .error (.runtimeError (ascii "Failed to connect to server: " ++ what))
  | .refused => .ok false
  | .connected => .ok true

inductive Phase where
  /-- In `ReaderFactory::CreateTask`. -/
  | creating
  /-- In `NetworkTask::Run`. -/
  | running
  | returned
  /-- `Run` has caught an exception and returned (`NetworkTask.cpp:58`). -/
  | caught
  | failed (fault : StartFault)
  /-- In `SignalHandler` (`NetworkTask.cpp:17`). -/
  | interrupted
  deriving DecidableEq

/-- The client process: the sources to come, the tasks of `task_list_` with their connections, how
    the attempts to connect have ended, and how many tasks have returned. -/
structure State where
  rest : List Path
  clients : List TCPClient.State
  attempts : List Connect
  current : Nat
  phase : Phase

inductive Action where
  /-- The task for the next source, whose connection ends up so. -/
  | create (outcome : Connect)
  | run
  /-- `Encrypt` throws. -/
  | encryptThrows
  /-- A send of a client takes its next byte. -/
  | take (client send : Nat)
  | sigint
  deriving DecidableEq

/-- `TaskFactory::Run` at the start of `NetworkTask::Create`, in the role of a client. -/
def start (command : SCommand) : State :=
  { rest := command.sources.getD [], clients := [], attempts := [], current := 0
    phase :=
      if command.sources.getD [] = [] then
        .failed (.logicError (ascii "Source file name is not set"))
      else .creating }

/-- The readers of a source and its connection (`ReaderFactory.h:54`). -/
def createClient (host : Host) (fs : FileSystem) (entropy : Nat → Vector UInt8 blockSize)
    (source : Path) (outcome : Connect) : Except Fault TCPClient.State := do
  let task ← FileTransferTask.create host fs source entropy
  let connected ← outcome.result
  return { TCPClient.start task with connected }

/-- The client is at a `Pack` that calls `Encrypt` (`Serializer.h:37`). -/
def encrypts (keystream : Keystream) (client : TCPClient.State) : Bool :=
  match client.pc with
  | .readName => !(client.task.nameReader.read keystream client.task.encryption).1.isEmpty
  | .readData =>
    !(FileDataSegmentReader.read keystream
      (client.task.dataReader, client.task.encryption)).1.isEmpty
  | _ => false

/-- One step of the process; `entropy` has the random numbers of each encryption object. -/
def step (host : Host) (fs : FileSystem) (entropy : Nat → Nat → Vector UInt8 blockSize)
    (keystream : Keystream) (s : State) : Action → Option State
  | .create outcome =>
    match s.phase, s.rest with
    | .creating, source :: rest =>
      match createClient host fs (entropy s.clients.length) source outcome with
      | .ok client =>
        some { s with
          rest, clients := s.clients ++ [client], attempts := s.attempts ++ [outcome] }
      | .error fault => some { s with phase := .failed (.fault fault) }
    | _, _ => none
  | .run =>
    match s.phase with
    | .creating => if s.rest = [] then some { s with phase := .running } else none
    | .running =>
      match s.clients[s.current]? with
      -- All tasks have returned, and `io_context_.run()` has nothing to do.
      | none => some { s with phase := .returned }
      | some client =>
        match TCPClient.clientStep keystream client with
        | some client => some { s with clients := s.clients.set s.current client }
        | none => some { s with current := s.current + 1 }
    | _ => none
  -- `std::invalid_argument` (`Encryption.cpp:36`), where the tasks only catch `std::runtime_error`.
  | .encryptThrows =>
    if s.phase = .running ∧ s.clients[s.current]?.any (encrypts keystream) then
      some { s with phase := .caught }
    else none
  | .take k send =>
    if s.phase = .running then do
      let client ← s.clients[k]?
      let client ← TCPClient.takeStep client send
      return { s with clients := s.clients.set k client }
    else none
  | .sigint => if s.phase = .interrupted then none else some { s with phase := .interrupted }

/-- What `main` (`main.cpp:5`) returns, or `std::exit` is called with. -/
def exitCode (s : State) : Option Int :=
  match s.phase with
  | .returned => some 0
  | .caught => some 0
  | .interrupted => some 0
  | .failed _ => some (-1)
  | _ => none

/-- Some run of the process leads from `s` to `s'`. -/
abbrev Reaches (host : Host) (fs : FileSystem) (entropy : Nat → Nat → Vector UInt8 blockSize)
    (keystream : Keystream) (s s' : State) : Prop :=
  Transition.Reaches (step host fs entropy keystream) (fun _ _ => True) s s'

/-- The client has written nothing. -/
def Fresh (client : TCPClient.State) : Prop :=
  client.pc = .readName ∧ client.written = [] ∧ client.sends = [] ∧ client.wire = []

/-- Each client runs as it would alone, for the source in its place; those whose turn has not come
    have written nothing. -/
structure Inv (host : Host) (fs : FileSystem) (entropy : Nat → Nat → Vector UInt8 blockSize)
    (keystream : Keystream) (sources : List Path) (s : State) : Prop where
  rest : s.rest = sources.drop s.clients.length
  alone : ∀ (k : Nat) (client : TCPClient.State), s.clients[k]? = some client →
    ∃ source outcome begun, sources[k]? = some source ∧ s.attempts[k]? = some outcome ∧
      createClient host fs (entropy k) source outcome = .ok begun ∧
      TCPClient.Reaches keystream begun client
  attempts : s.attempts.length = s.clients.length
  finished : ∀ (k : Nat) (client : TCPClient.State), s.clients[k]? = some client → k < s.current →
    client.pc = .finished
  waiting : ∀ (k : Nat) (client : TCPClient.State), s.clients[k]? = some client →
    s.current < k ∨ s.phase = .creating ∨ (∃ fault, s.phase = .failed fault) → Fresh client
  creating : s.phase = .creating → s.current = 0
  running : s.phase = .running ∨ s.phase = .returned → s.rest = []
  returned : s.phase = .returned → s.clients.length ≤ s.current
  caught : s.phase = .caught →
    ∃ client, s.clients[s.current]? = some client ∧ client.pc ≠ .finished
  failed : ∀ fault, s.phase = .failed fault →
    sources = [] ∧ fault = .logicError (ascii "Source file name is not set") ∨
      ∃ source outcome e, sources[s.clients.length]? = some source ∧
        createClient host fs (entropy s.clients.length) source outcome = .error e ∧
        fault = .fault e

variable {host : Host} {fs : FileSystem} {entropy : Nat → Nat → Vector UInt8 blockSize}
  {keystream : Keystream} {command : SCommand} {sources : List Path} {s s' : State}

/-- A client that has just been made. -/
theorem createClient_ok {random : Nat → Vector UInt8 blockSize} {source : Path} {outcome : Connect}
    {client : TCPClient.State} (made : createClient host fs random source outcome = .ok client) :
    ∃ task connected, FileTransferTask.create host fs source random = .ok task ∧
      outcome.result = .ok connected ∧ client = { TCPClient.start task with connected } := by
  unfold createClient at made
  cases created : FileTransferTask.create host fs source random with
  | error fault =>
    rw [created] at made
    cases made
  | ok task =>
    rw [created] at made
    cases result : outcome.result with
    | error fault =>
      rw [result] at made
      cases made
    | ok connected =>
      rw [result] at made
      cases made
      exact ⟨task, connected, rfl, rfl, rfl⟩

theorem Fresh.create {random : Nat → Vector UInt8 blockSize} {source : Path} {outcome : Connect}
    {client : TCPClient.State} (made : createClient host fs random source outcome = .ok client) :
    Fresh client := by
  obtain ⟨task, connected, -, -, rfl⟩ := createClient_ok made
  exact ⟨rfl, rfl, rfl, rfl⟩

/-- A client in the place of one that was there, as it was or after a step of its own, which is one of
    its task only if it is its turn. -/
def Moved (keystream : Keystream) (s : State) (action : Action) (k : Nat)
    (client' : TCPClient.State) : Prop :=
  ∃ client, s.clients[k]? = some client ∧ (client' = client ∨
    ∃ own, TCPClient.step keystream client own = some client' ∧
      (own = .client → action = .run ∧ s.phase = .running ∧ k = s.current))

theorem Moved.same {action : Action} {k : Nat} {client : TCPClient.State}
    (there : s.clients[k]? = some client) : Moved keystream s action k client :=
  ⟨client, there, Or.inl rfl⟩

theorem Moved.set {action : Action} {own : TCPClient.Action} {i k : Nat}
    {before after client' : TCPClient.State} (there : s.clients[i]? = some before)
    (took : TCPClient.step keystream before own = some after)
    (turn : own = .client → action = .run ∧ s.phase = .running ∧ i = s.current)
    (found : (s.clients.set i after)[k]? = some client') : Moved keystream s action k client' := by
  obtain ⟨inside, -⟩ := List.getElem?_eq_some_iff.mp there
  by_cases here : k = i
  · subst here
    rw [List.getElem?_set_self inside] at found
    cases found
    exact ⟨before, there, Or.inr ⟨own, took, turn⟩⟩
  · rw [List.getElem?_set_ne (Ne.symm here)] at found
    exact .same found

/-- The clients after a step. -/
theorem step_cases {action : Action} (next : step host fs entropy keystream s action = some s') :
    s.attempts <+: s'.attempts ∧ ∀ (k : Nat) (client' : TCPClient.State),
      s'.clients[k]? = some client' →
        k = s.clients.length ∧ Fresh client' ∨ Moved keystream s action k client' := by
  cases action with
  | create outcome =>
    simp only [step] at next
    split at next
    · split at next
      · rename_i client made
        cases next
        refine ⟨List.prefix_append .., ?_⟩
        intro k client' found
        rcases Nat.lt_trichotomy k s.clients.length with before | rfl | after
        · rw [List.getElem?_append_left before] at found
          exact Or.inr (.same found)
        · rw [List.getElem?_concat_length] at found
          cases found
          exact Or.inl ⟨rfl, .create made⟩
        · rw [List.getElem?_eq_none (by simp; omega)] at found
          cases found
      · cases next
        exact ⟨List.prefix_rfl, fun k client' found => Or.inr (.same found)⟩
    · cases next
  | run =>
    simp only [step] at next
    split at next
    · split at next
      · cases next
        exact ⟨List.prefix_rfl, fun k client' found => Or.inr (.same found)⟩
      · cases next
    · rename_i running
      split at next
      · cases next
        exact ⟨List.prefix_rfl, fun k client' found => Or.inr (.same found)⟩
      · rename_i client there
        split at next
        · rename_i client' took
          cases next
          have took : TCPClient.step keystream client .client = some client' := took
          exact ⟨List.prefix_rfl, fun k other found =>
            Or.inr (.set there took (fun _ => ⟨rfl, running, rfl⟩) found)⟩
        · cases next
          exact ⟨List.prefix_rfl, fun k client' found => Or.inr (.same found)⟩
    · cases next
  | encryptThrows =>
    simp only [step] at next
    split at next
    · cases next
      exact ⟨List.prefix_rfl, fun k client' found => Or.inr (.same found)⟩
    · cases next
  | take k send =>
    simp only [step] at next
    split at next
    · simp only [Option.bind_eq_bind, Option.bind_eq_some_iff, Option.pure_def,
        Option.some.injEq] at next
      obtain ⟨client, there, client', took, rfl⟩ := next
      have took : TCPClient.step keystream client (.take send) = some client' := took
      exact ⟨List.prefix_rfl, fun k other found =>
        Or.inr (.set there took (fun impossible => by cases impossible) found)⟩
    · cases next
  | sigint =>
    simp only [step] at next
    split at next
    · cases next
    · cases next
      exact ⟨List.prefix_rfl, fun k client' found => Or.inr (.same found)⟩

theorem Inv.start (command : SCommand) :
    Inv host fs entropy keystream (command.sources.getD []) (start command) := by
  refine ⟨rfl, ?_, rfl, ?_, ?_, fun _ => rfl, ?_, fun _ => le_rfl, ?_, ?_⟩
  · intro k client there
    cases there
  · intro k client there
    cases there
  · intro k client there
    cases there
  · rintro (running | returned)
    · simp only [NetworkTask.start] at running
      split at running <;> cases running
    · simp only [NetworkTask.start] at returned
      split at returned <;> cases returned
  · intro caught
    simp only [NetworkTask.start] at caught
    split at caught <;> cases caught
  · intro fault failed
    simp only [NetworkTask.start] at failed
    split at failed
    · rename_i none
      cases failed
      exact Or.inl ⟨none, rfl⟩
    · cases failed

/-- A client that has made a step. -/
theorem Inv.moved (h : Inv host fs entropy keystream sources s) {k : Nat}
    {client client' : TCPClient.State} (action : TCPClient.Action)
    (there : s.clients[k]? = some client) (running : s.phase = .running)
    (next : TCPClient.step keystream client action = some client') (turn : k ≤ s.current)
    (kept : k < s.current → client'.pc = .finished) :
    Inv host fs entropy keystream sources { s with clients := s.clients.set k client' } := by
  obtain ⟨inside, -⟩ := List.getElem?_eq_some_iff.mp there
  have cases : ∀ j other, (s.clients.set k client')[j]? = some other →
      j = k ∧ other = client' ∨ j ≠ k ∧ s.clients[j]? = some other := by
    intro j other found
    by_cases same : j = k
    · subst same
      rw [List.getElem?_set_self inside] at found
      exact Or.inl ⟨rfl, (Option.some.inj found).symm⟩
    · rw [List.getElem?_set_ne (Ne.symm same)] at found
      exact Or.inr ⟨same, found⟩
  refine ⟨?_, ?_, ?_, ?_, ?_, h.creating, h.running, ?_,
    fun caught => absurd (running.symm.trans caught) (by simp), ?_⟩
  · simpa using h.rest
  · intro j other found
    rcases cases j other found with ⟨rfl, rfl⟩ | ⟨-, found⟩
    · obtain ⟨source, outcome, begun, isSource, isOutcome, made, run⟩ := h.alone j client there
      exact ⟨source, outcome, begun, isSource, isOutcome, made, .tail run trivial next⟩
    · exact h.alone j other found
  · simpa using h.attempts
  · intro j other found before
    rcases cases j other found with ⟨rfl, rfl⟩ | ⟨-, found⟩
    · exact kept before
    · exact h.finished j other found before
  · intro j other found late
    rcases cases j other found with ⟨rfl, rfl⟩ | ⟨-, found⟩
    · rcases late with later | creating | ⟨fault, failed⟩
      · exact absurd turn (Nat.not_le_of_lt later)
      · exact absurd (running.symm.trans creating) (by simp)
      · exact absurd (running.symm.trans failed) (by simp)
    · exact h.waiting j other found late
  · simpa using h.returned
  · simpa using h.failed

theorem finished_of_stuck {client : TCPClient.State}
    (stuck : TCPClient.clientStep keystream client = none) : client.pc = .finished := by
  unfold TCPClient.clientStep at stuck
  split at stuck
  · dsimp only at stuck
    split at stuck <;> cases stuck
  · cases stuck
  · dsimp only at stuck
    split at stuck <;> cases stuck
  · cases stuck
  · cases stuck
  · assumption

/-- A process that ends before its time. -/
theorem Inv.cut (h : Inv host fs entropy keystream sources s) {phase : Phase}
    (early : phase = .caught ∨ phase = .interrupted)
    (caught : phase = .caught →
      ∃ client, s.clients[s.current]? = some client ∧ client.pc ≠ .finished) :
    Inv host fs entropy keystream sources { s with phase } := by
  have other : phase ≠ .creating ∧ phase ≠ .running ∧ phase ≠ .returned ∧
      ∀ fault, phase ≠ .failed fault := by
    rcases early with rfl | rfl <;> simp
  obtain ⟨creating, running, returned, failed⟩ := other
  refine ⟨h.rest, h.alone, h.attempts, h.finished, ?_, fun is => absurd is creating, ?_,
    fun is => absurd is returned, caught, fun fault is => absurd is (failed fault)⟩
  · intro k client there late
    rcases late with later | is | ⟨fault, is⟩
    · exact h.waiting k client there (Or.inl later)
    · exact absurd is creating
    · exact absurd is (failed fault)
  · rintro (is | is)
    · exact absurd is running
    · exact absurd is returned

theorem Inv.step {action : Action} (h : Inv host fs entropy keystream sources s)
    (next : step host fs entropy keystream s action = some s') :
    Inv host fs entropy keystream sources s' := by
  cases action with
  | create outcome =>
    simp only [NetworkTask.step] at next
    split at next
    · rename_i source rest creating toCome
      have whole := h.rest.symm.trans toCome
      have here : sources[s.clients.length]? = some source := by
        rw [← List.head?_drop, whole, List.head?_cons]
      split at next
      · rename_i client made
        cases next
        have fresh := Fresh.create made
        have cases : ∀ j other, (s.clients ++ [client])[j]? = some other →
            j = s.clients.length ∧ other = client ∨ s.clients[j]? = some other := by
          intro j other found
          rcases Nat.lt_trichotomy j s.clients.length with before | rfl | after
          · rw [List.getElem?_append_left before] at found
            exact Or.inr found
          · rw [List.getElem?_concat_length] at found
            exact Or.inl ⟨rfl, (Option.some.inj found).symm⟩
          · rw [List.getElem?_eq_none (by simp; omega)] at found
            cases found
        refine ⟨?_, ?_, ?_, ?_, ?_, h.creating, ?_, ?_, ?_, ?_⟩
        · rw [List.length_append, List.length_singleton, ← List.drop_drop, whole,
            List.drop_one, List.tail_cons]
        · intro j other found
          rcases cases j other found with ⟨rfl, rfl⟩ | found
          · refine ⟨source, outcome, other, here, ?_, made, .refl⟩
            rw [← h.attempts, List.getElem?_concat_length]
          · obtain ⟨source', outcome', begun, isSource, isOutcome, alone⟩ := h.alone j other found
            obtain ⟨inside, -⟩ := List.getElem?_eq_some_iff.mp isOutcome
            exact ⟨source', outcome', begun, isSource,
              (List.getElem?_append_left inside).trans isOutcome, alone⟩
        · simp [h.attempts]
        · intro j other found before
          rw [h.creating creating] at before
          cases before
        · intro j other found _
          rcases cases j other found with ⟨rfl, rfl⟩ | found
          · exact fresh
          · exact h.waiting j other found (Or.inr (Or.inl creating))
        · simp [creating]
        · simp [creating]
        · simp [creating]
        · simp [creating]
      · rename_i fault refused
        cases next
        refine ⟨h.rest, h.alone, h.attempts, h.finished, ?_,
          (fun impossible => by cases impossible), ?_, (fun impossible => by cases impossible),
          (fun impossible => by cases impossible), ?_⟩
        · intro j other found _
          exact h.waiting j other found (Or.inr (Or.inl creating))
        · simp
        · intro fault' failed
          cases failed
          exact Or.inr ⟨source, outcome, fault, here, refused, rfl⟩
    · cases next
  | run =>
    simp only [NetworkTask.step] at next
    split at next
    · rename_i creating
      split at next
      · rename_i all
        cases next
        refine ⟨h.rest, h.alone, h.attempts, h.finished, ?_, fun _ => h.creating creating,
          fun _ => all, (fun impossible => by cases impossible),
          (fun impossible => by cases impossible), (fun _ impossible => by cases impossible)⟩
        intro j other found _
        exact h.waiting j other found (Or.inr (Or.inl creating))
      · cases next
    · rename_i running
      split at next
      · rename_i none
        cases next
        refine ⟨h.rest, h.alone, h.attempts, h.finished, ?_,
          (fun impossible => by cases impossible), fun _ => h.running (Or.inl running),
          fun _ => List.getElem?_eq_none_iff.mp none,
          (fun impossible => by cases impossible), (fun _ impossible => by cases impossible)⟩
        intro j other found late
        rcases late with later | creating | ⟨fault, failed⟩
        · exact h.waiting j other found (Or.inl later)
        · cases creating
        · cases failed
      · rename_i client there
        split at next
        · rename_i client' moved
          cases next
          exact h.moved .client there running moved le_rfl
            fun impossible => absurd impossible (lt_irrefl _)
        · rename_i stuck
          cases next
          refine ⟨h.rest, h.alone, h.attempts, ?_, ?_,
            fun creating => absurd (running.symm.trans creating) (by simp), h.running,
            fun returned => absurd (running.symm.trans returned) (by simp),
            fun caught => absurd (running.symm.trans caught) (by simp), h.failed⟩
          · intro j other found before
            rcases Nat.lt_succ_iff_lt_or_eq.mp before with earlier | rfl
            · exact h.finished j other found earlier
            · cases there.symm.trans found
              exact finished_of_stuck stuck
          · intro j other found late
            exact h.waiting j other found (late.imp_left fun later => Nat.lt_of_succ_lt later)
    · cases next
  | encryptThrows =>
    simp only [NetworkTask.step] at next
    split at next
    · rename_i throws
      obtain ⟨client, found, encrypts⟩ := (Option.any_eq_true _ _).mp throws.2
      cases next
      refine h.cut (Or.inl rfl) fun _ => ⟨client, found, ?_⟩
      intro finished
      simp only [NetworkTask.encrypts, finished, Bool.false_eq_true] at encrypts
    · cases next
  | take k send =>
    simp only [NetworkTask.step] at next
    split at next
    · rename_i running
      simp only [Option.bind_eq_bind, Option.bind_eq_some_iff, Option.pure_def,
        Option.some.injEq] at next
      obtain ⟨client, there, client', taken, rfl⟩ := next
      obtain ⟨sends, wire, rfl, some_send⟩ := TCPClient.takeStep_frame taken
      refine h.moved (.take send) there running taken ?_ fun before =>
        h.finished k client there before
      by_contra later
      exact some_send (h.waiting k client there (Or.inl (Nat.lt_of_not_le later))).2.2.1
    · cases next
  | sigint =>
    simp only [NetworkTask.step] at next
    split at next
    · cases next
    · cases next
      refine h.cut (Or.inr rfl) ?_
      intro impossible
      cases impossible

theorem inv_of_reaches (run : Reaches host fs entropy keystream (start command) s) :
    Inv host fs entropy keystream (command.sources.getD []) s :=
  run.invariant (.start command) fun _ _ _ inv _ next => inv.step next

/-- What a connection has been given of its source: a beginning of the frames of its name and its
    chunks, and all of them when its task has returned, or nothing if it was refused. -/
def Carries (keystream : Keystream) (random : Nat → Vector UInt8 blockSize) (source : Path)
    (content : List UInt8) (outcome : Connect) (client : TCPClient.State) : Prop :=
  ∃ datas, datas.flatten = content ∧ (∀ data ∈ datas, data ≠ []) ∧
    ((outcome = .connected ∧ client.written <+: framesOf keystream (.create random) source datas ∧
        (client.pc = .finished → client.written = framesOf keystream (.create random) source datas)) ∨
      outcome = .refused ∧ client.written = [] ∧ client.wire = [])

/-- A client whose connection was made makes the calls for the frames of its source. -/
theorem Inv.makes (h : Inv host fs entropy keystream sources s) {k : Nat}
    {client : TCPClient.State} (there : s.clients[k]? = some client)
    (connected : s.attempts[k]? = some .connected) :
    ∃ source content datas, sources[k]? = some source ∧ source ≠ [] ∧
      fs.openInput host source = some content ∧ datas.flatten = content ∧
      (∀ data ∈ datas, data ≠ [] ∧ data.length ≤ defaultChunkSize) ∧
      (FileTransferTask.forFile source content (entropy k)).run keystream (content.length + 1) =
        some (FileDataTransferTask.callsFor
          (framesOf keystream (.create (entropy k)) source datas)) ∧
      TCPClient.Makes keystream (FileDataTransferTask.callsFor
        (framesOf keystream (.create (entropy k)) source datas)) client := by
  obtain ⟨source, outcome, begun, isSource, isOutcome, made, run⟩ := h.alone k client there
  cases connected.symm.trans isOutcome
  obtain ⟨task, connected, created, result, rfl⟩ := createClient_ok made
  cases result
  obtain ⟨content, named, readable, rfl⟩ := FileTransferTask.create_ok created
  obtain ⟨datas, ran, whole, sizes⟩ :=
    @FileTransferTask.run_create keystream source content named (entropy k)
  exact ⟨source, content, datas, isSource, named, readable, whole, sizes, ran, .of_reaches ran run⟩

/-- What a client has written, of the frames whose calls it makes. -/
theorem written_of_makes {client : TCPClient.State} {frames : List (List UInt8)}
    (makes : TCPClient.Makes keystream (FileDataTransferTask.callsFor frames) client) :
    client.written <+: frames ∧ (client.pc = .finished → client.written = frames) := by
  obtain ⟨⟨rest, begins⟩, all⟩ := makes.made
  refine ⟨⟨Call.written rest, ?_⟩, ?_⟩
  · rw [← client.written_made, ← Call.written_append, begins, Call.written_callsFor]
  · intro finished
    rw [← client.written_made, all finished, Call.written_callsFor]

theorem Inv.carries (h : Inv host fs entropy keystream sources s) {k : Nat}
    {client : TCPClient.State} (there : s.clients[k]? = some client) :
    ∃ source content outcome, sources[k]? = some source ∧ s.attempts[k]? = some outcome ∧
      fs.openInput host source = some content ∧
      Carries keystream (entropy k) source content outcome client := by
  obtain ⟨source, outcome, begun, isSource, isOutcome, made, run⟩ := h.alone k client there
  cases outcome with
  | unresolved what =>
    obtain ⟨task, connected, -, result, -⟩ := createClient_ok made
    cases result
  | connected =>
    obtain ⟨source, content, datas, isSource, -, readable, whole, sizes, -, makes⟩ :=
      h.makes there isOutcome
    exact ⟨source, content, .connected, isSource, isOutcome, readable, datas, whole,
      fun data member => (sizes data member).1, Or.inl ⟨rfl, written_of_makes makes⟩⟩
  | refused =>
    obtain ⟨task, connected, created, result, rfl⟩ := createClient_ok made
    cases result
    obtain ⟨content, named, readable, rfl⟩ := FileTransferTask.create_ok created
    obtain ⟨datas, -, whole, sizes⟩ :=
      @FileTransferTask.run_create keystream source content named (entropy k)
    have offline : TCPClient.Offline client :=
      run.invariant ⟨rfl, rfl, rfl, rfl⟩ fun _ _ _ offline _ next => offline.step next
    exact ⟨source, content, .refused, isSource, isOutcome, readable, datas, whole,
      fun data member => (sizes data member).1, Or.inr ⟨rfl, offline.written, offline.wire⟩⟩

/-- For every command, in every run of a client process, whatever becomes of its connections and
    however far its sends are: each connection has been given a beginning of the frames of the source
    in its place, all of them when the task of that source has returned, and nothing while an earlier
    task has not returned or while `Create` is not through. -/
theorem connections_carry_sources (host : Host) (fs : FileSystem)
    (entropy : Nat → Nat → Vector UInt8 blockSize) (keystream : Keystream) (command : SCommand)
    (run : Reaches host fs entropy keystream (start command) s) {k : Nat}
    {client : TCPClient.State} (there : s.clients[k]? = some client) :
    (∃ source content outcome, (command.sources.getD [])[k]? = some source ∧
      s.attempts[k]? = some outcome ∧ fs.openInput host source = some content ∧
      Carries keystream (entropy k) source content outcome client) ∧
    (k < s.current → client.pc = .finished) ∧
    (s.current < k ∨ s.phase = .creating → client.written = [] ∧ client.wire = []) := by
  have inv := inv_of_reaches run
  refine ⟨inv.carries there, inv.finished k client there, ?_⟩
  intro late
  obtain ⟨-, written, -, wire⟩ := inv.waiting k client there (late.imp_right Or.inl)
  exact ⟨written, wire⟩

/-- `-m network -n client -s a a`. -/
def twice : SCommand where
  mode := .network
  network := some .client
  sources := some [ascii "a", ascii "a"]
  dest := none
  sharedMemory := none
  serverName := ascii "localhost"
  port := 12345

/-- The first connection is made and the second one refused; the tasks run to their ends. -/
def twiceRun : List Action :=
  [.create .connected, .create .refused, .run, .run, .run, .take 0 0] ++ .replicate 13 .run

theorem twice_runs : ∃ s, Reaches (.permissive (ascii "/home")) (.single (ascii "a") [7])
      (fun _ _ => .replicate 16 2) (fun _ _ _ => 7) (start twice) s ∧
    s.phase = .returned ∧ s.attempts = [.connected, .refused] ∧
    s.clients.map (·.wire) = [[1], []] := by
  let runs := Transition.run (step (.permissive (ascii "/home")) (.single (ascii "a") [7])
    (fun _ _ => .replicate 16 2) (fun _ _ _ => 7)) (start twice) twiceRun
  have outcome : runs.map (fun s => (s.phase, s.attempts, s.clients.map (·.wire))) =
      some (.returned, [.connected, .refused], [[1], []]) := by
    decide +kernel
  obtain ⟨s, run, same⟩ := Option.map_eq_some_iff.mp outcome
  simp only [Prod.mk.injEq] at same
  exact ⟨s, .of_run twiceRun run fun _ _ _ => trivial, same⟩

/-- The connection that was made has been given a beginning of the frames of `a`. -/
theorem connections_carry_sources_small : ∃ s client datas,
    Reaches (.permissive (ascii "/home")) (.single (ascii "a") [7]) (fun _ _ => .replicate 16 2)
      (fun _ _ _ => 7) (start twice) s ∧ s.clients[0]? = some client ∧ client.wire = [1] ∧
    datas.flatten = [7] ∧ client.written <+: framesOf (fun _ _ _ => 7)
      (.create fun _ => .replicate 16 2) (ascii "a") datas := by
  obtain ⟨s, run, -, attempts, wires⟩ := twice_runs
  obtain ⟨client, rest, clients, wire, -⟩ := List.map_eq_cons_iff.mp wires
  have there : s.clients[0]? = some client := by rw [clients, List.getElem?_cons_zero]
  obtain ⟨⟨source, content, outcome, isSource, isOutcome, readable, datas, whole, -, sent⟩, -⟩ :=
    connections_carry_sources _ _ _ _ twice run there
  cases isSource
  cases readable
  rw [attempts] at isOutcome
  cases isOutcome
  rcases sent with ⟨-, begun, -⟩ | ⟨refused, -⟩
  · exact ⟨s, client, datas, run, there, wire, whole, begun⟩
  · cases refused

/-- The task of the source has returned, and its connection has been given all frames of the source
    or was refused. -/
def Given (host : Host) (fs : FileSystem) (entropy : Nat → Nat → Vector UInt8 blockSize)
    (keystream : Keystream) (s : State) (k : Nat) (source : Path) : Prop :=
  ∃ content outcome client, s.clients[k]? = some client ∧ client.pc = .finished ∧
    s.attempts[k]? = some outcome ∧ fs.openInput host source = some content ∧
    Carries keystream (entropy k) source content outcome client

theorem Inv.given (h : Inv host fs entropy keystream sources s) {k : Nat} {source : Path}
    {client : TCPClient.State} (isSource : sources[k]? = some source)
    (there : s.clients[k]? = some client) (before : k < s.current) :
    Given host fs entropy keystream s k source := by
  obtain ⟨source', content, outcome, isSource', isOutcome, readable, carries⟩ := h.carries there
  cases isSource.symm.trans isSource'
  exact ⟨content, outcome, client, there, h.finished k client there before, isOutcome, readable,
    carries⟩

theorem Inv.given_of_returned (h : Inv host fs entropy keystream sources s)
    (returned : s.phase = .returned) {k : Nat} {source : Path}
    (isSource : sources[k]? = some source) : Given host fs entropy keystream s k source := by
  have all : sources.length ≤ s.clients.length :=
    List.drop_eq_nil_iff.mp (h.rest.symm.trans (h.running (Or.inr returned)))
  obtain ⟨inside, -⟩ := List.getElem?_eq_some_iff.mp isSource
  obtain ⟨client, there⟩ : ∃ client, s.clients[k]? = some client :=
    ⟨_, List.getElem?_eq_getElem (Nat.lt_of_lt_of_le inside all)⟩
  have last := h.returned returned
  exact h.given isSource there (by omega)

/-- An exception leaves the task of one source when those before it have returned. -/
theorem Inv.given_of_caught (h : Inv host fs entropy keystream sources s)
    (caught : s.phase = .caught) :
    ∃ client, s.clients[s.current]? = some client ∧ client.pc ≠ .finished ∧
      ∀ (k : Nat) (source : Path), k < s.current → sources[k]? = some source →
        Given host fs entropy keystream s k source := by
  obtain ⟨client, there, left⟩ := h.caught caught
  refine ⟨client, there, left, ?_⟩
  intro k source before isSource
  obtain ⟨inside, -⟩ := List.getElem?_eq_some_iff.mp there
  exact h.given isSource (List.getElem?_eq_getElem (before.trans inside)) before

/-- The exit code of a client process, for every command and every run, `SIGINT` and exceptions of
    `Encrypt` at any moment: with 0 the process has been interrupted, or an exception has left the
    task of some source when those before it had returned, or the task of every source has returned,
    and where a task has returned its connection has been given all frames of the source or was
    refused; with -1 no connection has been given anything, and it is the first source that has no
    task that could not be read or whose server has no address, if there is a source at all. -/
theorem exit_code_sources (host : Host) (fs : FileSystem)
    (entropy : Nat → Nat → Vector UInt8 blockSize) (keystream : Keystream) (command : SCommand)
    (run : Reaches host fs entropy keystream (start command) s) :
    (exitCode s = some 0 → s.phase = .interrupted ∨
      (s.phase = .caught ∧ ∃ client, s.clients[s.current]? = some client ∧ client.pc ≠ .finished ∧
        ∀ (k : Nat) (source : Path), k < s.current → (command.sources.getD [])[k]? = some source →
          Given host fs entropy keystream s k source) ∨
      (s.phase = .returned ∧
        ∀ (k : Nat) (source : Path), (command.sources.getD [])[k]? = some source →
          Given host fs entropy keystream s k source)) ∧
    (exitCode s = some (-1) → (∀ client ∈ s.clients, client.written = [] ∧ client.wire = []) ∧
      (command.sources.getD [] ≠ [] → ∃ source outcome e,
        (command.sources.getD [])[s.clients.length]? = some source ∧
          createClient host fs (entropy s.clients.length) source outcome = .error e)) := by
  have inv := inv_of_reaches run
  constructor
  · intro zero
    cases phase : s.phase with
    | returned =>
      exact Or.inr (Or.inr ⟨rfl, fun k source isSource => inv.given_of_returned phase isSource⟩)
    | caught => exact Or.inr (Or.inl ⟨rfl, inv.given_of_caught phase⟩)
    | interrupted => exact Or.inl rfl
    | _ => simp [exitCode, phase] at zero
  · intro minus
    obtain ⟨fault, failed⟩ : ∃ fault, s.phase = .failed fault := by
      cases phase : s.phase with
      | failed fault => exact ⟨fault, rfl⟩
      | _ => simp [exitCode, phase] at minus
    refine ⟨?_, ?_⟩
    · intro client member
      obtain ⟨k, there⟩ := List.getElem?_of_mem member
      obtain ⟨-, written, -, wire⟩ := inv.waiting k client there (Or.inr (Or.inr ⟨fault, failed⟩))
      exact ⟨written, wire⟩
    · intro some_source
      rcases inv.failed fault failed with ⟨none, -⟩ | ⟨source, outcome, e, isSource, refused, -⟩
      · exact absurd none some_source
      · exact ⟨source, outcome, e, isSource, refused⟩

/-- When the process has returned with the exit code 0, the first connection has been given all
    frames of `a`. -/
theorem exit_code_sources_small : ∃ s client datas,
    Reaches (.permissive (ascii "/home")) (.single (ascii "a") [7]) (fun _ _ => .replicate 16 2)
      (fun _ _ _ => 7) (start twice) s ∧ exitCode s = some 0 ∧ s.clients[0]? = some client ∧
    datas.flatten = [7] ∧ client.written = framesOf (fun _ _ _ => 7)
      (.create fun _ => .replicate 16 2) (ascii "a") datas := by
  obtain ⟨s, run, returned, attempts, wires⟩ := twice_runs
  have zero : exitCode s = some 0 := by simp only [exitCode, returned]
  rcases (exit_code_sources _ _ _ _ twice run).1 zero with
    interrupted | ⟨caught, -⟩ | ⟨-, given⟩
  · cases returned.symm.trans interrupted
  · cases returned.symm.trans caught
  · obtain ⟨content, outcome, client, there, finished, -, readable, datas, whole, -, sent⟩ :=
      given 0 (ascii "a") rfl
    cases readable
    rcases sent with ⟨-, -, all⟩ | ⟨-, -, wire⟩
    · exact ⟨s, client, datas, run, zero, there, whole, all finished⟩
    · -- Its wire has a byte.
      obtain ⟨client', rest, clients, wire', -⟩ := List.map_eq_cons_iff.mp wires
      rw [clients, List.getElem?_cons_zero] at there
      cases there
      cases wire.symm.trans wire'

/-- Nothing has been sent, and `main` returns 0. -/
example : (Transition.run (step (.permissive (ascii "/home")) (.single (ascii "a") [7])
      (fun _ _ => .replicate 16 2) (fun _ _ _ => 7)) (start twice)
      [.create .connected, .create .connected, .run, .encryptThrows]).map
        (fun s => (exitCode s, s.clients.map (·.written))) = some (some 0, [[], []]) := by
  decide +kernel

end NetworkTask

end FileTransfer
