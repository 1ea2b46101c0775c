import FileTransfer.Network.NetworkCopy
import Mathlib.Data.Prod.Lex

/-!
# A copy over the network that succeeds

What the conditions on the sends and the reads ask for can be had: for all sources that can be sent
there is a run that meets them, ends with exit code 0 and leaves every source on the server.
-/

namespace FileTransfer

open Posix Noninterference

namespace NetworkCopy

/-- The client can read the sources and the server can write them. -/
structure Sendable (clientHost serverHost : Host) (fs : FileSystem) (shared : Shared)
    (sources : List Path) : Prop where
  currentPath : 0 ∉ serverHost.currentPath
  noNul : ∀ source ∈ sources, (0 : UInt8) ∉ source
  readable : ∀ source ∈ sources, source ≠ [] ∧
    ∃ content, fs.openInput clientHost source = some content
  opens : ∀ k source, sources[k]? = some source →
    FileDataWriter.opens serverHost shared.files source (DataHandler.clientFolder (k + 1)) = true
  fits : ∀ source ∈ sources, Serializer.headerSize + source.length ≤ bufferSize

/-- `orderly`, and the connections are accepted one after the other, with no others. -/
def alone (keystream : Keystream) (s : State) (action : Action) : Prop :=
  orderly keystream s action ∧
    match action with
    | .accept k => s.server.currentId = k + 1
    | .other _ => False
    | _ => True

/-- The server is up and has the connections that it has accepted. -/
structure Attended (s : State) : Prop where
  steady : TCPServer.Steady s.server
  numbered : ∀ k id, s.ids k = some id → id = k + 1
  present : ∀ k id, s.ids k = some id → ∃ c ∈ s.server.connections, c.id = id

variable {clientHost serverHost : Host} {fs : FileSystem}
  {entropy : Nat → Nat → Vector UInt8 blockSize} {keystream : Keystream} {command : SCommand}
  {sources : List Path} {shared : Shared} {s s' : State} {trace : List TCPServer.Event}

theorem Attended.start (command : SCommand) (shared : Shared) :
    Attended (start command shared) := by
  refine ⟨.start shared, ?_, ?_⟩
  · intro k id known
    cases known
  · intro k id known
    cases known

theorem Attended.step {action : Action} (h : Attended s)
    (sends : Sends clientHost fs entropy keystream sources s)
    (served : Served serverHost keystream shared s trace)
    (sendable : Sendable clientHost serverHost fs shared sources) (guard : alone keystream s action)
    (next : step clientHost serverHost fs entropy keystream s action = some s') : Attended s' := by
  cases action with
  | client action =>
    obtain ⟨client, -, rfl⟩ := Option.map_eq_some_iff.mp next
    exact ⟨h.steady, h.numbered, h.present⟩
  | accept k =>
    simp only [NetworkCopy.step] at next
    split at next
    · obtain ⟨server, accepted, rfl⟩ := Option.map_eq_some_iff.mp next
      refine ⟨h.steady.step ?_ accepted, ?_, ?_⟩
      · trivial
      · intro j id known
        by_cases here : j = k
        · subst here
          simp only [Function.update_self, Option.some.injEq] at known
          exact known.symm.trans guard.2
        · simp only [Function.update_of_ne here] at known
          exact h.numbered j id known
      intro j id known
      by_cases here : j = k
      · subst here
        obtain ⟨server', accepted', c, member, own⟩ := @TCPServer.Steady.accept serverHost keystream
          _ h.steady
        cases accepted.symm.trans accepted'
        simp only [Function.update_self, Option.some.injEq] at known
        exact ⟨c, member, own.trans known⟩
      · simp only [Function.update_of_ne here] at known
        obtain ⟨c, member, rfl⟩ := h.present j id known
        exact TCPServer.connections_step accepted member fun _ impossible => by cases impossible
    · cases next
  | read k size =>
    have sends' := sends.step guard.1 next
    simp only [NetworkCopy.step, Option.bind_eq_bind, Option.bind_eq_some_iff, Option.pure_def,
      Option.some.injEq] at next
    obtain ⟨id, accepted, client, there, server, taken, rfl⟩ := next
    have served' := served.read accepted there (guard.1 client there) taken
    obtain ⟨u, isSource, -, -, -, arrived, -⟩ := served'.upload sends' sendable.noNul accepted there
    refine ⟨h.steady.step ?_ taken, h.numbered, ?_⟩
    · intro c found
      apply TCPServer.accepts_of_upload sendable.currentPath served.fed found arrived
      rw [h.numbered k id accepted]
      exact sendable.opens k u.name isSource
    · intro j id' known
      obtain ⟨c, member, rfl⟩ := h.present j id' known
      exact TCPServer.connections_step taken member fun _ impossible => by cases impossible
  | other event => exact guard.2.elim

/-- What is known of the states of such a run. -/
structure Going (clientHost serverHost : Host) (fs : FileSystem)
    (entropy : Nat → Nat → Vector UInt8 blockSize) (keystream : Keystream) (shared : Shared)
    (sources : List Path) (s : State) : Prop where
  sends : Sends clientHost fs entropy keystream sources s
  attended : Attended s
  served : ∃ trace, Served serverHost keystream shared s trace

theorem going_of_reaches
    (sendable : Sendable clientHost serverHost fs shared (command.sources.getD []))
    (run : Reaches clientHost serverHost fs entropy keystream (alone keystream)
      (start command shared) s) :
    Going clientHost serverHost fs entropy keystream shared (command.sources.getD []) s := by
  apply run.invariant ⟨.start command shared, .start command shared, [], .start command shared⟩
  rintro s action s' ⟨sends, attended, trace, served⟩ guard next
  exact ⟨sends.step guard.1 next, attended.step sends served sendable guard next,
    served.step sends sendable.currentPath guard.1 next⟩

/-- The task whose turn it is has come to `client`. -/
def State.turn (s : State) (client : TCPClient.State) : State :=
  { s with client := { s.client with clients := s.client.clients.set s.client.current client } }

theorem State.turn_self (client : TCPClient.State)
    (inside : s.client.current < s.client.clients.length) :
    (s.turn client).client.clients[s.client.current]? = some client :=
  List.getElem?_set_self inside

theorem State.turn_of_ne {client : TCPClient.State} {k : Nat} (differs : k ≠ s.client.current) :
    (s.turn client).client.clients[k]? = s.client.clients[k]? :=
  List.getElem?_set_ne (Ne.symm differs)

/-- What a client does when it is its turn, the process does. -/
theorem reaches_of_client {client client' : TCPClient.State}
    (run : Transition.Reaches (TCPClient.step keystream) TCPClient.prompt client client')
    (running : s.client.phase = .running)
    (there : s.client.clients[s.client.current]? = some client) :
    Reaches clientHost serverHost fs entropy keystream (alone keystream) s (s.turn client') := by
  obtain ⟨inside, here⟩ := List.getElem?_eq_some_iff.mp there
  induction run with
  | refl =>
    rw [State.turn, ← here, List.set_getElem_self]
    exact .refl
  | @tail before after action _ guard next ih =>
    have found : (s.turn before).client.clients[s.client.current]? = some before :=
      State.turn_self _ inside
    cases action with
    | client =>
      have next : TCPClient.clientStep keystream before = some after := next
      refine .tail (a := .client .run) ih ⟨?_, trivial⟩ ?_
      · intro _ other found'
        cases found.symm.trans found'
        exact guard
      · simp only [State.turn] at found ⊢
        simp only [step, NetworkTask.step, running, found, next, Option.map_some, List.set_set]
    | take send =>
      have next : TCPClient.takeStep before send = some after := next
      refine .tail (a := .client (.take s.client.current send)) ih ⟨trivial, trivial⟩ ?_
      simp only [State.turn] at found ⊢
      simp [step, NetworkTask.step, running, found, next]

/-- The calls of the task for a source. -/
def callsOf (clientHost : Host) (fs : FileSystem) (entropy : Nat → Nat → Vector UInt8 blockSize)
    (keystream : Keystream) (sources : List Path) (k : Nat) : List Call :=
  match sources[k]? with
  | none => []
  | some source =>
    let content := (fs.openInput clientHost source).getD []
    ((FileTransferTask.forFile source content (entropy k)).run keystream
      (content.length + 1)).getD []

/-- The tasks that have not returned, and what the first of them has still to do. -/
def rank (clientHost : Host) (fs : FileSystem) (entropy : Nat → Nat → Vector UInt8 blockSize)
    (keystream : Keystream) (sources : List Path) (s : State) : Nat ×ₗ Nat :=
  toLex (s.client.clients.length - s.client.current,
    (if s.ids s.client.current = none then 1 else 0) +
      match s.client.clients[s.client.current]? with
      | none => 0
      | some client => TCPClient.left
          (callsOf clientHost fs entropy keystream sources s.client.current) client)

theorem makes_callsOf (inv : NetworkTask.Inv clientHost fs entropy keystream sources s.client)
    {k : Nat} {client : TCPClient.State} (there : s.client.clients[k]? = some client)
    (connected : s.client.attempts[k]? = some .connected) :
    TCPClient.Makes keystream (callsOf clientHost fs entropy keystream sources k) client := by
  obtain ⟨source, content, datas, isSource, -, readable, -, -, ran, makes⟩ :=
    inv.makes there connected
  simp only [callsOf, isSource, readable, Option.getD_some, ran]
  exact makes

/-- A frame of an upload is not longer than its longest part and a header. -/
theorem length_frame_le {u : Upload} {bound : Nat} (named : u.name.length ≤ bound)
    (datas : ∀ data ∈ u.datas, data.length ≤ bound) {frame : List UInt8}
    (member : frame ∈ u.frames keystream) : frame.length ≤ Serializer.headerSize + bound := by
  have packed := @Serializer.framesOf_packs keystream u.encryption _ _ u.named u.valid
  obtain ⟨payload, carried, -, -, iv, rfl⟩ := DataHandler.exists_of_forall₂ packed member
  rw [Serializer.length_frame]
  apply Nat.add_le_add_left
  rcases List.mem_cons.mp carried with rfl | later
  · exact named
  · obtain ⟨data, there, rfl⟩ := List.mem_map.mp later
    exact datas data there

/-- Between two steps of a task, with nothing on its way. -/
structure Ready (clientHost serverHost : Host) (fs : FileSystem)
    (entropy : Nat → Nat → Vector UInt8 blockSize) (keystream : Keystream) (command : SCommand)
    (shared : Shared) (s : State) : Prop where
  reached : Reaches clientHost serverHost fs entropy keystream (alone keystream)
    (start command shared) s
  running : s.client.phase = .running
  connected : ∀ k < s.client.clients.length, s.client.attempts[k]? = some .connected
  settled : ∀ k client, s.client.clients[k]? = some client →
    TCPClient.idle client ∧ s.received k = client.wire.length
  accepted : ∀ k < s.client.current, s.ids k ≠ none
  later : ∀ k, s.client.current < k → s.ids k = none
  counted : s.server.currentId =
    s.client.current + 1 + if s.ids s.client.current = none then 0 else 1

/-- The task whose turn it is has come nearer to its end. -/
theorem Ready.moved (h : Ready clientHost serverHost fs entropy keystream command shared s)
    {client client' : TCPClient.State} {received : Nat → Nat} {server : TCPServer.State}
    (there : s.client.clients[s.client.current]? = some client)
    (run : Reaches clientHost serverHost fs entropy keystream (alone keystream) s
      { s.turn client' with server, received })
    (counted : server.currentId = s.server.currentId) (quiet : TCPClient.idle client')
    (everything : received s.client.current = client'.wire.length)
    (others : ∀ k, k ≠ s.client.current → received k = s.received k)
    (less : TCPClient.left
        (callsOf clientHost fs entropy keystream (command.sources.getD []) s.client.current) client' <
      TCPClient.left
        (callsOf clientHost fs entropy keystream (command.sources.getD []) s.client.current) client) :
    ∃ t, Reaches clientHost serverHost fs entropy keystream (alone keystream) s t ∧
      Ready clientHost serverHost fs entropy keystream command shared t ∧
      rank clientHost fs entropy keystream (command.sources.getD []) t <
        rank clientHost fs entropy keystream (command.sources.getD []) s := by
  obtain ⟨inside, -⟩ := List.getElem?_eq_some_iff.mp there
  refine ⟨_, run, ⟨h.reached.trans run, h.running, ?_, ?_, h.accepted, h.later,
    counted.trans h.counted⟩, ?_⟩
  · intro k before
    exact h.connected k (List.length_set ▸ before)
  · intro k other found
    by_cases here : k = s.client.current
    · subst here
      cases (State.turn_self _ inside).symm.trans found
      exact ⟨quiet, everything⟩
    · obtain ⟨quiet', everything'⟩ := h.settled k other ((State.turn_of_ne here).symm.trans found)
      exact ⟨quiet', (others k here).trans everything'⟩
  · apply Prod.Lex.toLex_lt_toLex.mpr
    refine Or.inr ⟨by simp only [State.turn, List.length_set], ?_⟩
    simp only [State.turn, List.getElem?_set_self inside, there]
    exact Nat.add_lt_add_left less _

/-- The task whose turn it is goes on, and what it sends is read. -/
theorem Ready.send
    (h : Ready clientHost serverHost fs entropy keystream command shared s)
    (sendable : Sendable clientHost serverHost fs shared (command.sources.getD [])) {id : Nat}
    {client : TCPClient.State} (there : s.client.clients[s.client.current]? = some client)
    (known : s.ids s.client.current = some id) (short : client.pc ≠ .finished) :
    ∃ t, Reaches clientHost serverHost fs entropy keystream (alone keystream) s t ∧
      Ready clientHost serverHost fs entropy keystream command shared t ∧
      rank clientHost fs entropy keystream (command.sources.getD []) t <
        rank clientHost fs entropy keystream (command.sources.getD []) s := by
  obtain ⟨sends, -, -⟩ := going_of_reaches sendable h.reached
  obtain ⟨inside, -⟩ := List.getElem?_eq_some_iff.mp there
  have makes := makes_callsOf sends.client there (h.connected _ inside)
  obtain ⟨quiet, everything⟩ := h.settled _ client there
  obtain ⟨client', run, quiet', less, wire⟩ :=
    makes.advance (sends.inOrder _ client there) quiet short
  have run := @reaches_of_client clientHost serverHost fs entropy keystream _ _ _ run h.running there
  rcases wire with same | ⟨frame, written, more⟩
  · exact h.moved there run rfl quiet' (everything.trans (congrArg _ same.symm)) (fun _ _ => rfl) less
  · -- A frame has been sent, and the server reads it.
    obtain ⟨sends', attended, trace, served⟩ := going_of_reaches sendable (h.reached.trans run)
    have here := State.turn_self client' inside
    have frame_unread : (unread (s.turn client') s.client.current client').take frame.length =
        frame := by
      have received : (s.turn client').received = s.received := rfl
      simp only [unread, received, everything, more, List.drop_left, List.take_length]
    obtain ⟨u, isSource, -, sizes, begun, -⟩ := served.upload sends' sendable.noNul known here
    have member := begun.subset written
    have codeword := Serializer.mem_codewords (Serializer.framesOf_packs u.encryption u.named u.valid)
      frame member
    have bounded : frame.length ≤ bufferSize := by
      have named := sendable.fits u.name (List.mem_of_getElem? isSource)
      have frame_le := @length_frame_le keystream u
        (max u.name.length defaultChunkSize) (Nat.le_max_left ..)
        (fun data member => (sizes data member).trans (Nat.le_max_right ..)) frame member
      have chunk : Serializer.headerSize + defaultChunkSize ≤ bufferSize := by decide
      omega
    have filled : frame ≠ [] := by
      rintro rfl
      exact Serializer.nil_notMem_codewords codeword
    obtain ⟨server, taken⟩ := @TCPServer.Steady.chunk serverHost keystream _ id attended.steady
      (attended.present _ id known) frame filled bounded
    have read : step clientHost serverHost fs entropy keystream (s.turn client')
        (.read s.client.current frame.length) = some { s.turn client' with
          server
          received := Function.update s.received s.client.current
            (s.received s.client.current + frame.length) } := by
      have known : (s.turn client').ids s.client.current = some id := known
      simp only [step, known, here, frame_unread, taken, Option.bind_eq_bind, Option.bind_some,
        Option.pure_def]
      rfl
    have counted : server.currentId = s.server.currentId := by
      rcases TCPServer.currentId_step taken with ⟨impossible, -⟩ | ⟨-, same⟩
      · cases impossible
      · exact same
    refine h.moved there (.tail (a := .read s.client.current frame.length) run ⟨?_, trivial⟩ read)
      counted quiet' ?_ ?_ less
    · intro other found
      cases here.symm.trans found
      rw [frame_unread]
      exact codeword
    · rw [Function.update_self, everything, more, List.length_append]
    · intro k differs
      exact Function.update_of_ne differs ..

/-- As long as a task has not returned, the process goes on. -/
theorem Ready.advance
    (h : Ready clientHost serverHost fs entropy keystream command shared s)
    (sendable : Sendable clientHost serverHost fs shared (command.sources.getD []))
    (short : ¬ s.client.clients.length ≤ s.client.current) :
    ∃ t, Reaches clientHost serverHost fs entropy keystream (alone keystream) s t ∧
      Ready clientHost serverHost fs entropy keystream command shared t ∧
      rank clientHost fs entropy keystream (command.sources.getD []) t <
        rank clientHost fs entropy keystream (command.sources.getD []) s := by
  have inside := Nat.lt_of_not_le short
  obtain ⟨client, there⟩ : ∃ client, s.client.clients[s.client.current]? = some client :=
    ⟨_, List.getElem?_eq_getElem inside⟩
  cases known : s.ids s.client.current with
  | none =>
    obtain ⟨-, attended, -⟩ := going_of_reaches sendable h.reached
    obtain ⟨server, accepted, -⟩ := @TCPServer.Steady.accept serverHost keystream _ attended.steady
    have counted := h.counted
    rw [if_pos known] at counted
    have run : Reaches clientHost serverHost fs entropy keystream (alone keystream) s
        { s with
          server, ids := Function.update s.ids s.client.current (some s.server.currentId) } := by
      apply Transition.Reaches.single (a := .accept s.client.current) ⟨trivial, counted⟩
      simp [step, known, h.connected _ inside, accepted]
    refine ⟨_, run, ⟨h.reached.trans run, h.running, h.connected, h.settled, ?_, ?_, ?_⟩, ?_⟩
    · intro k before
      have differs : k ≠ s.client.current := Nat.ne_of_lt before
      simp only [Function.update_of_ne differs]
      exact h.accepted k before
    · intro k after
      have differs : k ≠ s.client.current := Nat.ne_of_gt after
      simp only [Function.update_of_ne differs]
      exact h.later k after
    · rcases TCPServer.currentId_step accepted with ⟨-, more⟩ | ⟨other, -⟩
      · simp only [Function.update_self, more, counted, reduceCtorEq, if_false]
      · exact absurd rfl other
    · apply Prod.Lex.toLex_lt_toLex.mpr
      refine Or.inr ⟨rfl, ?_⟩
      simp [there, known]
  | some id =>
    by_cases through : client.pc = .finished
    · have run : Reaches clientHost serverHost fs entropy keystream (alone keystream) s
          { s with client := { s.client with current := s.client.current + 1 } } := by
        refine Transition.Reaches.single (a := .client .run) ⟨?_, trivial⟩ ?_
        · intro _ other found reading
          cases there.symm.trans found
          cases through.symm.trans reading
        · simp [step, NetworkTask.step, h.running, there, TCPClient.clientStep, through]
      have counted := h.counted
      rw [if_neg (by simp [known])] at counted
      refine ⟨_, run, ⟨h.reached.trans run, h.running, h.connected, h.settled, ?_, ?_, ?_⟩, ?_⟩
      · intro k before
        rcases Nat.lt_succ_iff_lt_or_eq.mp before with earlier | rfl
        · exact h.accepted k earlier
        · simp [known]
      · intro k after
        exact h.later k (Nat.lt_of_succ_lt after)
      · simp only [h.later _ (Nat.lt_succ_self _), if_true]
        exact counted
      · apply Prod.Lex.toLex_lt_toLex.mpr
        refine Or.inl ?_
        simp only
        omega
    · exact h.send sendable there known through

/-- In `Create`, with every connection made so far. -/
structure Preparing (clientHost serverHost : Host) (fs : FileSystem)
    (entropy : Nat → Nat → Vector UInt8 blockSize) (keystream : Keystream) (command : SCommand)
    (shared : Shared) (s : State) : Prop where
  reached : Reaches clientHost serverHost fs entropy keystream (alone keystream)
    (start command shared) s
  creating : s.client.phase = .creating
  connected : ∀ k < s.client.clients.length, s.client.attempts[k]? = some .connected
  untouched : s = { start command shared with client := s.client }

/-- The task for the next source can be made. -/
theorem Preparing.create
    (h : Preparing clientHost serverHost fs entropy keystream command shared s)
    (sendable : Sendable clientHost serverHost fs shared (command.sources.getD []))
    (short : s.client.rest ≠ []) :
    ∃ action t, alone keystream s action ∧
      step clientHost serverHost fs entropy keystream s action = some t ∧
      Preparing clientHost serverHost fs entropy keystream command shared t ∧
      t.client.rest.length < s.client.rest.length := by
  obtain ⟨sends, -, -⟩ := going_of_reaches sendable h.reached
  obtain ⟨source, rest, toCome⟩ := List.exists_cons_of_ne_nil short
  have member : source ∈ command.sources.getD [] := by
    apply List.mem_of_mem_drop
    rw [← sends.client.rest, toCome]
    exact List.mem_cons_self
  obtain ⟨named, content, readable⟩ := sendable.readable source member
  have made : ∃ client, NetworkTask.createClient clientHost fs
      (entropy s.client.clients.length) source .connected = .ok client :=
    ⟨_, by rw [NetworkTask.createClient, FileTransferTask.create_of_openInput named readable]; rfl⟩
  obtain ⟨client, made⟩ := made
  have next : step clientHost serverHost fs entropy keystream s (.client (.create .connected)) =
      some { s with client := { s.client with
        rest
        clients := s.client.clients ++ [client]
        attempts := s.client.attempts ++ [.connected] } } := by
    simp only [step, NetworkTask.step, h.creating, toCome, made, Option.map_some]
  have guard : alone keystream s (.client (.create .connected)) := ⟨trivial, trivial⟩
  refine ⟨_, _, guard, next, ⟨.tail h.reached guard next, h.creating, ?_, ?_⟩, ?_⟩
  · intro k before
    have lengths := sends.client.attempts
    simp only [List.length_append, List.length_singleton] at before
    rcases Nat.lt_succ_iff_lt_or_eq.mp before with earlier | rfl
    · exact (List.getElem?_append_left (by omega)).trans (h.connected k earlier)
    · rw [← lengths, List.getElem?_concat_length]
  · rw [h.untouched]
  · rw [toCome]
    exact Nat.lt_succ_self _

/-- When `Create` is through, `Run` starts. -/
theorem Preparing.run (h : Preparing clientHost serverHost fs entropy keystream command shared s)
    (sendable : Sendable clientHost serverHost fs shared (command.sources.getD []))
    (through : s.client.rest = []) :
    ∃ t, Ready clientHost serverHost fs entropy keystream command shared t := by
  obtain ⟨sends, -, -⟩ := going_of_reaches sendable h.reached
  have next : step clientHost serverHost fs entropy keystream s (.client .run) =
      some { s with client := { s.client with phase := .running } } := by
    simp only [step, NetworkTask.step, h.creating, through, if_true, Option.map_some]
  have guard : alone keystream s (.client .run) := by
    refine ⟨?_, trivial⟩
    intro running
    cases h.creating.symm.trans running
  have none : s.ids = fun _ => none := congrArg State.ids h.untouched
  have unread : s.received = fun _ => 0 := congrArg State.received h.untouched
  have first := sends.client.creating h.creating
  refine ⟨_, .tail h.reached guard next, rfl, h.connected, ?_, ?_, ?_, ?_⟩
  · intro k client there
    obtain ⟨-, -, sent, wire⟩ := sends.client.waiting k client there (Or.inr (Or.inl h.creating))
    refine ⟨by simp [TCPClient.idle, sent], ?_⟩
    rw [unread, wire]
    rfl
  · intro k before
    have before : k < s.client.current := before
    omega
  · intro k _
    exact congrFun none k
  · simp only [none, first, if_true]
    exact congrArg (fun s : State => s.server.currentId) h.untouched

/-- What has been read of a task that has returned is not nothing. -/
theorem Served.received_ne_zero (h : Served serverHost keystream shared s trace)
    (sends : Sends clientHost fs entropy keystream sources s)
    (noNul : ∀ source ∈ sources, (0 : UInt8) ∉ source) {k id : Nat} {client : TCPClient.State}
    (accepted : s.ids k = some id) (there : s.client.clients[k]? = some client)
    (finished : client.pc = .finished) (everything : s.received k = client.wire.length) :
    s.received k ≠ 0 := by
  intro zero
  obtain ⟨u, -, -, -, -, -, all⟩ := h.upload sends noNul accepted there
  obtain ⟨-, bytes⟩ := h.bytes k id client accepted there
  have some_frame : 0 < (u.frames keystream).length := by
    rw [Upload.length_frames]
    exact Nat.succ_pos _
  obtain ⟨frame, member⟩ := List.exists_mem_of_length_pos some_frame
  rw [all finished everything, zero, List.take_zero, List.flatten_eq_nil_iff] at bytes
  have codeword := Serializer.mem_codewords (Serializer.framesOf_packs u.encryption u.named u.valid)
    frame member
  rw [bytes frame member] at codeword
  exact Serializer.nil_notMem_codewords codeword

/-- Every source that can be sent can arrive: for any number of sources, at least one, there is a run
    of the process and the server in which the sends keep up, each read returns a frame, the process
    returns with exit code 0, the server goes on, and each source is in the folder of its connection. -/
theorem network_copy_can_succeed
    (sendable : Sendable clientHost serverHost fs shared (command.sources.getD []))
    (some_source : command.sources.getD [] ≠ []) :
    ∃ s, Reaches clientHost serverHost fs entropy keystream (orderly keystream)
        (start command shared) s ∧
      s.client.phase = .returned ∧ NetworkTask.exitCode s.client = some 0 ∧
      s.server.running = true ∧
      ∀ (k : Nat) (source : Path), (command.sources.getD [])[k]? = some source →
        ∃ id content, s.ids k = some id ∧ fs.openInput clientHost source = some content ∧
          s.server.shared.files.files
            (DataHandler.clientPath serverHost id ++ separator :: filename source) =
              some content := by
  have preparing : Preparing clientHost serverHost fs entropy keystream command shared
      (start command shared) := by
    refine ⟨.refl, ?_, ?_, rfl⟩
    · simp only [start, NetworkTask.start, if_neg some_source]
    · intro k before
      exact absurd before (Nat.not_lt_zero k)
  obtain ⟨created, -, prepared, through⟩ := Transition.Reaches.of_rank
    (fun s : State => s.client.rest.length)
    (fun _ h short => h.create sendable short) _ preparing
  obtain ⟨ready, begun⟩ := prepared.run sendable through
  obtain ⟨s, -, h, returned⟩ := Transition.Reaches.of_progress
    (rank clientHost fs entropy keystream (command.sources.getD []))
    (fun _ h short => h.advance sendable short) _ begun
  have none : s.client.clients[s.client.current]? = none := List.getElem?_eq_none_iff.mpr returned
  have next : step clientHost serverHost fs entropy keystream s (.client .run) =
      some { s with client := { s.client with phase := .returned } } := by
    simp only [step, NetworkTask.step, h.running, none, Option.map_some]
  have run := h.reached.mono fun _ _ guard => guard.1
  obtain ⟨sends, attended, trace, served⟩ := going_of_reaches sendable h.reached
  refine ⟨_, .tail run ?_ next, rfl, rfl, attended.steady.running, ?_⟩
  · intro _ client found
    cases none.symm.trans found
  · intro k source isSource
    have all : (command.sources.getD []).length ≤ s.client.clients.length :=
      List.drop_eq_nil_iff.mp (sends.client.rest.symm.trans (sends.client.running (Or.inl h.running)))
    obtain ⟨inside, -⟩ := List.getElem?_eq_some_iff.mp isSource
    obtain ⟨client, there⟩ : ∃ client, s.client.clients[k]? = some client :=
      ⟨_, List.getElem?_eq_getElem (Nat.lt_of_lt_of_le inside all)⟩
    have before : k < s.client.current := by omega
    obtain ⟨id, known⟩ := Option.ne_none_iff_exists'.mp (h.accepted k before)
    have finished := sends.client.finished k client there before
    obtain ⟨-, everything⟩ := h.settled k client there
    obtain ⟨source', content, isSource', readable, stored⟩ := served.stored sends
      sendable.currentPath sendable.noNul known there
    cases isSource.symm.trans isSource'
    obtain rfl := attended.numbered k id known
    obtain ⟨bytes, file, -, whole⟩ := stored (sendable.opens k source isSource)
      (served.received_ne_zero sends sendable.noNul known there finished everything)
    refine ⟨k + 1, content, known, readable, ?_⟩
    rw [← whole finished everything]
    exact file

/-- A file that is sent twice arrives twice, in two folders. -/
theorem network_copy_can_succeed_small : ∃ s : State,
    NetworkTask.exitCode s.client = some 0 ∧
    ∃ id id', s.ids 0 = some id ∧ s.ids 1 = some id' ∧
      s.server.shared.files.files
        (DataHandler.clientPath (.permissive (ascii "/srv")) id ++ ascii "/a") = some [7] ∧
      s.server.shared.files.files
        (DataHandler.clientPath (.permissive (ascii "/srv")) id' ++ ascii "/a") = some [7] := by
  have sources : NetworkTask.twice.sources.getD [] = [ascii "a", ascii "a"] := rfl
  have sendable : Sendable (.permissive (ascii "/home")) (.permissive (ascii "/srv"))
      (.single (ascii "a") [7])
      { encryption := .create fun _ => .replicate 16 1, files := .empty }
      (NetworkTask.twice.sources.getD []) := by
    refine ⟨by decide, by decide, ?_, ?_, by decide⟩
    · intro source member
      have own : source = ascii "a" := by simpa [sources] using member
      subst own
      exact ⟨by decide, [7], by decide⟩
    · intro k source isSource
      match k with
      | 0 =>
        cases isSource
        decide +kernel
      | 1 =>
        cases isSource
        decide +kernel
      | k + 2 => cases isSource
  obtain ⟨s, -, -, zero, -, arrived⟩ := @network_copy_can_succeed _ _ _
    (fun _ _ => .replicate 16 2) (fun _ _ _ => 7) _ _ sendable (by decide)
  obtain ⟨id, content, known, readable, file⟩ := arrived 0 (ascii "a") rfl
  obtain ⟨id', content', known', readable', file'⟩ := arrived 1 (ascii "a") rfl
  cases readable
  cases readable'
  exact ⟨s, zero, id, id', known, known', file, file'⟩

end NetworkCopy

end FileTransfer
