import FileTransfer.Network.NetworkTask
import FileTransfer.Network.PromptSends
import FileTransfer.Network.Uploads
import FileTransfer.Network.WireFormat

/-!
# A client process and its server

The two sides of the network mode together: the tasks of a client process, the bytes on their
connections, and the event loop of the server, which takes these bytes in reads of any size while
other clients do what they like.
-/

namespace FileTransfer

open Posix Noninterference

namespace NetworkCopy

/-- `ids` has the connections that the server has accepted, with their IDs there, and `received` how
    much the server has read of each. -/
structure State where
  client : NetworkTask.State
  server : TCPServer.State
  ids : Nat → Option Nat
  received : Nat → Nat

inductive Action where
  | client (action : NetworkTask.Action)
  /-- The server accepts the connection of a task. -/
  | accept (k : Nat)
  /-- A read of that connection returns, with at most so many bytes. -/
  | read (k size : Nat)
  /-- Other clients, and failures. -/
  | other (event : TCPServer.Event)

def start (command : SCommand) (shared : Shared) : State :=
  { client := NetworkTask.start command, server := TCPServer.start shared, ids := fun _ => none
    received := fun _ => 0 }

/-- What has been put on a connection and not been read. -/
def unread (s : State) (k : Nat) (client : TCPClient.State) : List UInt8 :=
  client.wire.drop (s.received k)

/-- The bytes of the client's connections are not made up by others. -/
def foreign (s : State) : TCPServer.Event → Bool
  | .chunk id _ => decide (∀ k < s.client.clients.length, s.ids k ≠ some id)
  | _ => true

def step (clientHost serverHost : Host) (fs : FileSystem)
    (entropy : Nat → Nat → Vector UInt8 blockSize) (keystream : Keystream) (s : State) :
    Action → Option State
  | .client action =>
    (NetworkTask.step clientHost fs entropy keystream s.client action).map fun client =>
      { s with client }
  | .accept k =>
    if s.ids k = none ∧ s.client.attempts[k]? = some .connected then
      (TCPServer.step serverHost keystream s.server .accept).map fun server =>
        { s with server, ids := Function.update s.ids k (some s.server.currentId) }
    else none
  | .read k size => do
    let id ← s.ids k
    let client ← s.client.clients[k]?
    let data := (unread s k client).take size
    let server ← TCPServer.step serverHost keystream s.server (.chunk id data)
    return { s with
      server, received := Function.update s.received k (s.received k + data.length) }
  | .other event =>
    if foreign s event then
      (TCPServer.step serverHost keystream s.server event).map fun server => { s with server }
    else none

/-- The sends keep up with the tasks, and a read returns a frame. -/
def orderly (keystream : Keystream) (s : State) : Action → Prop
  | .client .run => s.client.phase = .running →
      ∀ client ∈ s.client.clients[s.client.current]?, TCPClient.prompt client .client
  | .read k size => ∀ client ∈ s.client.clients[k]?,
      (unread s k client).take size ∈ Serializer.codewords keystream
  | _ => True

instance (keystream : Keystream) (s : State) : ∀ action, Decidable (orderly keystream s action)
  | .client .run => inferInstanceAs (Decidable (s.client.phase = .running →
      ∀ client ∈ s.client.clients[s.client.current]?, TCPClient.prompt client .client))
  | .client (.create _) => isTrue trivial
  | .client .encryptThrows => isTrue trivial
  | .client (.take _ _) => isTrue trivial
  | .client .sigint => isTrue trivial
  | .read k size => inferInstanceAs (Decidable (∀ client ∈ s.client.clients[k]?,
      (unread s k client).take size ∈ Serializer.codewords keystream))
  | .accept _ => isTrue trivial
  | .other _ => isTrue trivial

/-- Some run leads from `s` to `s'`, each of its steps meeting `ok`. -/
abbrev Reaches (clientHost serverHost : Host) (fs : FileSystem)
    (entropy : Nat → Nat → Vector UInt8 blockSize) (keystream : Keystream)
    (ok : State → Action → Prop) (s s' : State) : Prop :=
  Transition.Reaches (step clientHost serverHost fs entropy keystream) ok s s'

/-- What the server has taken of the client's connections in `trace`: of each, frames whose bytes are
    the first on its wire. -/
structure Served (serverHost : Host) (keystream : Keystream) (shared : Shared) (s : State)
    (trace : List TCPServer.Event) : Prop where
  fed : TCPServer.feed serverHost keystream (TCPServer.start shared) trace = some s.server
  fresh : ∀ id, s.server.currentId ≤ id → Sessions.chunksOf id (TCPServer.chunks trace) = []
  known : ∀ k id, s.ids k = some id → id < s.server.currentId
  apart : ∀ j k id, s.ids j = some id → s.ids k = some id → j = k
  connected : ∀ k id, s.ids k = some id → s.client.attempts[k]? = some .connected
  unaccepted : ∀ k, s.ids k = none → s.received k = 0
  frames : ∀ k id, s.ids k = some id → ∀ word ∈ Sessions.chunksOf id (TCPServer.chunks trace),
    word ∈ Serializer.codewords keystream
  bytes : ∀ k id client, s.ids k = some id → s.client.clients[k]? = some client →
    s.received k ≤ client.wire.length ∧
      (Sessions.chunksOf id (TCPServer.chunks trace)).flatten = client.wire.take (s.received k)

/-- The client process runs as it would alone, with sends that keep up. -/
structure Sends (clientHost : Host) (fs : FileSystem) (entropy : Nat → Nat → Vector UInt8 blockSize)
    (keystream : Keystream) (sources : List Path) (s : State) : Prop where
  client : NetworkTask.Inv clientHost fs entropy keystream sources s.client
  inOrder : ∀ (k : Nat) (client : TCPClient.State), s.client.clients[k]? = some client →
    TCPClient.InOrder client

variable {clientHost serverHost : Host} {fs : FileSystem}
  {entropy : Nat → Nat → Vector UInt8 blockSize} {keystream : Keystream} {command : SCommand}
  {sources : List Path} {shared : Shared} {s s' : State} {trace : List TCPServer.Event}

theorem Sends.start (command : SCommand) (shared : Shared) :
    Sends clientHost fs entropy keystream (command.sources.getD []) (start command shared) := by
  refine ⟨.start command, ?_⟩
  intro k client there
  cases there

theorem Sends.step {action : Action} (h : Sends clientHost fs entropy keystream sources s)
    (guard : orderly keystream s action)
    (next : step clientHost serverHost fs entropy keystream s action = some s') :
    Sends clientHost fs entropy keystream sources s' := by
  cases action with
  | client action =>
    obtain ⟨client, moved, rfl⟩ := Option.map_eq_some_iff.mp next
    refine ⟨h.client.step moved, ?_⟩
    intro k client' there
    rcases (NetworkTask.step_cases moved).2 k client' there with ⟨-, fresh⟩ |
      ⟨client, before, rfl | ⟨own, took, turn⟩⟩
    · obtain ⟨pc, written, sends, wire⟩ := fresh
      exact .fresh pc written sends wire
    · exact h.inOrder k client' before
    · refine (h.inOrder k client before).step ?_ took
      cases own with
      | client =>
        obtain ⟨rfl, running, rfl⟩ := turn rfl
        exact guard running client before
      | take send => trivial
  | accept k =>
    simp only [NetworkCopy.step] at next
    split at next
    · obtain ⟨server, -, rfl⟩ := Option.map_eq_some_iff.mp next
      exact ⟨h.client, h.inOrder⟩
    · cases next
  | read k size =>
    simp only [NetworkCopy.step, Option.bind_eq_bind, Option.bind_eq_some_iff, Option.pure_def,
      Option.some.injEq] at next
    obtain ⟨id, -, client, -, server, -, rfl⟩ := next
    exact ⟨h.client, h.inOrder⟩
  | other event =>
    simp only [NetworkCopy.step] at next
    split at next
    · obtain ⟨server, -, rfl⟩ := Option.map_eq_some_iff.mp next
      exact ⟨h.client, h.inOrder⟩
    · cases next

theorem Served.start (command : SCommand) (shared : Shared) :
    Served serverHost keystream shared (start command shared) [] := by
  refine ⟨rfl, fun _ _ => rfl, ?_, ?_, ?_, fun _ _ => rfl, ?_, ?_⟩
  · intro k id accepted
    cases accepted
  · intro j k id accepted
    cases accepted
  · intro k id accepted
    cases accepted
  · intro k id accepted
    cases accepted
  · intro k id client accepted
    cases accepted

/-- The clients go on. -/
theorem Served.client (h : Served serverHost keystream shared s trace)
    (sends : Sends clientHost fs entropy keystream sources s) {action : NetworkTask.Action}
    {client : NetworkTask.State}
    (next : NetworkTask.step clientHost fs entropy keystream s.client action = some client) :
    Served serverHost keystream shared { s with client } trace := by
  obtain ⟨attempts, cases⟩ := NetworkTask.step_cases next
  refine ⟨h.fed, h.fresh, h.known, h.apart, ?_, h.unaccepted, h.frames, ?_⟩
  · intro k id accepted
    have before := h.connected k id accepted
    obtain ⟨rest, same⟩ := attempts
    obtain ⟨inside, -⟩ := List.getElem?_eq_some_iff.mp before
    rw [← same, List.getElem?_append_left inside]
    exact before
  · intro k id client' accepted there
    rcases cases k client' there with ⟨new, -⟩ | ⟨client, before, rfl | ⟨own, took, -⟩⟩
    · obtain ⟨inside, -⟩ := List.getElem?_eq_some_iff.mp (h.connected k id accepted)
      have lengths := sends.client.attempts
      omega
    · exact h.bytes k id client' accepted before
    · obtain ⟨within, taken⟩ := h.bytes k id client accepted before
      obtain ⟨rest, more⟩ := TCPClient.wire_step took
      refine ⟨?_, ?_⟩
      · rw [← more, List.length_append]
        exact within.trans (Nat.le_add_right ..)
      · rw [← more, List.take_append_of_le_length within]
        exact taken

/-- An event that brings nothing from the client's connections. -/
theorem Served.event (h : Served serverHost keystream shared s trace)
    (currentPath : 0 ∉ serverHost.currentPath) {event : TCPServer.Event} {server : TCPServer.State}
    (next : TCPServer.step serverHost keystream s.server event = some server)
    (foreign : ∀ k id data, s.ids k = some id → event ≠ .chunk id data) :
    Served serverHost keystream shared { s with server } (trace ++ [event]) := by
  have later := TCPServer.currentId_le_step next
  have same : ∀ k id, s.ids k = some id →
      Sessions.chunksOf id (TCPServer.chunks (trace ++ [event])) =
        Sessions.chunksOf id (TCPServer.chunks trace) := by
    intro k id accepted
    rcases TCPServer.chunksOf_snoc id trace event with ⟨data, isChunk, -⟩ | ⟨-, same⟩
    · exact absurd isChunk (foreign k id data accepted)
    · exact same
  refine ⟨TCPServer.feed_snoc h.fed next, ?_, ?_, h.apart, h.connected, h.unaccepted, ?_, ?_⟩
  · intro id bound
    rcases TCPServer.chunksOf_snoc id trace event with ⟨data, rfl, -⟩ | ⟨-, same⟩
    · have accepted := TCPServer.chunk_accepted currentPath h.fed next
      have bound : server.currentId ≤ id := bound
      omega
    · exact same.trans (h.fresh id (later.trans bound))
  · intro k id accepted
    exact Nat.lt_of_lt_of_le (h.known k id accepted) later
  · intro k id accepted
    rw [same k id accepted]
    exact h.frames k id accepted
  · intro k id client accepted there
    rw [same k id accepted]
    exact h.bytes k id client accepted there

/-- One of the connections is accepted. -/
theorem Served.accept (h : Served serverHost keystream shared s trace)
    (currentPath : 0 ∉ serverHost.currentPath) {k : Nat} {server : TCPServer.State}
    (fresh : s.ids k = none) (connected : s.client.attempts[k]? = some .connected)
    (next : TCPServer.step serverHost keystream s.server .accept = some server) :
    Served serverHost keystream shared
      { s with server, ids := Function.update s.ids k (some s.server.currentId) }
      (trace ++ [.accept]) := by
  have before := h.event currentPath next fun _ _ _ _ impossible => by cases impossible
  have none := before.fresh
  have counted : server.currentId = s.server.currentId + 1 := by
    rcases TCPServer.currentId_step next with ⟨-, more⟩ | ⟨other, -⟩
    · exact more
    · exact absurd rfl other
  have cases : ∀ j id, Function.update s.ids k (some s.server.currentId) j = some id →
      j = k ∧ id = s.server.currentId ∨ j ≠ k ∧ s.ids j = some id := by
    intro j id accepted
    by_cases here : j = k
    · subst here
      rw [Function.update_self] at accepted
      exact Or.inl ⟨rfl, (Option.some.inj accepted).symm⟩
    · rw [Function.update_of_ne here] at accepted
      exact Or.inr ⟨here, accepted⟩
  have empty : Sessions.chunksOf s.server.currentId (TCPServer.chunks (trace ++ [.accept])) = [] := by
    rcases TCPServer.chunksOf_snoc s.server.currentId trace .accept with ⟨data, impossible, -⟩ |
      ⟨-, same⟩
    · cases impossible
    · exact same.trans (h.fresh _ le_rfl)
  refine ⟨before.fed, before.fresh, ?_, ?_, ?_, ?_, ?_, ?_⟩
  · intro j id accepted
    rcases cases j id accepted with ⟨-, rfl⟩ | ⟨-, accepted⟩
    · exact counted ▸ Nat.lt_succ_self _
    · exact before.known j id accepted
  · intro i j id accepted accepted'
    rcases cases i id accepted with ⟨rfl, rfl⟩ | ⟨-, earlier⟩
    · rcases cases j _ accepted' with ⟨rfl, -⟩ | ⟨-, earlier'⟩
      · rfl
      · exact absurd (h.known j _ earlier') (Nat.lt_irrefl _)
    · rcases cases j id accepted' with ⟨rfl, rfl⟩ | ⟨-, earlier'⟩
      · exact absurd (h.known i _ earlier) (Nat.lt_irrefl _)
      · exact h.apart i j id earlier earlier'
  · intro j id accepted
    rcases cases j id accepted with ⟨rfl, -⟩ | ⟨-, accepted⟩
    · exact connected
    · exact h.connected j id accepted
  · intro j unaccepted
    by_cases here : j = k
    · subst here
      exact h.unaccepted j fresh
    · exact h.unaccepted j ((Function.update_of_ne here ..).symm.trans unaccepted)
  · intro j id accepted
    rcases cases j id accepted with ⟨-, rfl⟩ | ⟨-, accepted⟩
    · rw [empty]
      intro word impossible
      cases impossible
    · exact before.frames j id accepted
  · intro j id client accepted there
    rcases cases j id accepted with ⟨rfl, rfl⟩ | ⟨-, accepted⟩
    · have nothing := h.unaccepted j fresh
      refine ⟨?_, ?_⟩
      · exact nothing ▸ Nat.zero_le _
      · rw [empty]
        exact nothing ▸ rfl
    · exact before.bytes j id client accepted there

/-- A read of one of the connections returns a frame. -/
theorem Served.read (h : Served serverHost keystream shared s trace) {k id size : Nat}
    {client : TCPClient.State}
    {server : TCPServer.State} (accepted : s.ids k = some id)
    (there : s.client.clients[k]? = some client)
    (frame : (unread s k client).take size ∈ Serializer.codewords keystream)
    (next : TCPServer.step serverHost keystream s.server
      (.chunk id ((unread s k client).take size)) = some server) :
    Served serverHost keystream shared
      { s with
        server
        received := Function.update s.received k
          (s.received k + ((unread s k client).take size).length) }
      (trace ++ [.chunk id ((unread s k client).take size)]) := by
  have later := TCPServer.currentId_le_step next
  have own : Sessions.chunksOf id
      (TCPServer.chunks (trace ++ [.chunk id ((unread s k client).take size)])) =
        Sessions.chunksOf id (TCPServer.chunks trace) ++ [(unread s k client).take size] := by
    rcases TCPServer.chunksOf_snoc id trace (.chunk id ((unread s k client).take size)) with
      ⟨data, same, more⟩ | ⟨other, -⟩
    · cases same
      exact more
    · exact absurd rfl (other _)
  have others : ∀ other, other ≠ id → Sessions.chunksOf other
      (TCPServer.chunks (trace ++ [.chunk id ((unread s k client).take size)])) =
        Sessions.chunksOf other (TCPServer.chunks trace) := by
    intro other differs
    rcases TCPServer.chunksOf_snoc other trace (.chunk id ((unread s k client).take size)) with
      ⟨data, same, -⟩ | ⟨-, same⟩
    · cases same
      exact absurd rfl differs
    · exact same
  have differ : ∀ j id', s.ids j = some id' → j ≠ k → id' ≠ id := by
    rintro j id' accepted' differs rfl
    exact differs (h.apart j k id' accepted' accepted)
  refine ⟨TCPServer.feed_snoc h.fed next, ?_, ?_, h.apart, h.connected, ?_, ?_, ?_⟩
  · intro other bound
    have known := Nat.lt_of_lt_of_le (h.known k id accepted) later
    have bound : server.currentId ≤ other := bound
    rw [others other (by omega)]
    exact h.fresh other (later.trans bound)
  · intro j id' accepted'
    exact Nat.lt_of_lt_of_le (h.known j id' accepted') later
  · intro j unaccepted
    have differs : j ≠ k := by
      rintro rfl
      cases accepted.symm.trans unaccepted
    exact (Function.update_of_ne differs ..).trans (h.unaccepted j unaccepted)
  · intro j id' accepted' word member
    by_cases here : j = k
    · subst here
      cases accepted.symm.trans accepted'
      rw [own] at member
      rcases List.mem_append.mp member with before | new
      · exact h.frames j id accepted word before
      · exact List.mem_singleton.mp new ▸ frame
    · rw [others id' (differ j id' accepted' here)] at member
      exact h.frames j id' accepted' word member
  · intro j id' client' accepted' there'
    by_cases here : j = k
    · subst here
      cases accepted.symm.trans accepted'
      cases there.symm.trans there'
      obtain ⟨within, taken⟩ := h.bytes j id client accepted there
      simp only [Function.update_self]
      have length : ((unread s j client).take size).length ≤
          client.wire.length - s.received j := by
        rw [unread, List.length_take, List.length_drop]
        exact Nat.min_le_right ..
      refine ⟨by omega, ?_⟩
      rw [own, List.flatten_concat, taken, List.take_add]
      congr 1
      exact (List.prefix_iff_eq_take.mp (List.take_prefix _ _))
    · rw [others id' (differ j id' accepted' here)]
      simp only [Function.update_of_ne here]
      exact h.bytes j id' client' accepted' there'

theorem Served.step {action : Action} (h : Served serverHost keystream shared s trace)
    (sends : Sends clientHost fs entropy keystream sources s)
    (currentPath : 0 ∉ serverHost.currentPath) (guard : orderly keystream s action)
    (next : step clientHost serverHost fs entropy keystream s action = some s') :
    ∃ trace', Served serverHost keystream shared s' trace' := by
  cases action with
  | client action =>
    obtain ⟨client, moved, rfl⟩ := Option.map_eq_some_iff.mp next
    exact ⟨trace, h.client sends moved⟩
  | accept k =>
    simp only [NetworkCopy.step] at next
    split at next
    · rename_i free
      obtain ⟨server, accepted, rfl⟩ := Option.map_eq_some_iff.mp next
      exact ⟨_, h.accept currentPath free.1 free.2 accepted⟩
    · cases next
  | read k size =>
    simp only [NetworkCopy.step, Option.bind_eq_bind, Option.bind_eq_some_iff, Option.pure_def,
      Option.some.injEq] at next
    obtain ⟨id, accepted, client, there, server, taken, rfl⟩ := next
    exact ⟨_, h.read accepted there (guard client there) taken⟩
  | other event =>
    simp only [NetworkCopy.step] at next
    split at next
    · rename_i others
      obtain ⟨server, handled, rfl⟩ := Option.map_eq_some_iff.mp next
      refine ⟨_, h.event currentPath handled ?_⟩
      rintro k id data accepted rfl
      obtain ⟨inside, -⟩ := List.getElem?_eq_some_iff.mp (h.connected k id accepted)
      have lengths := sends.client.attempts
      exact of_decide_eq_true others k (by omega) accepted
    · cases next

/-- What the server has read of a connection are the first frames of the upload of its source, and all
    of them once the task has returned and everything has been read. -/
theorem Served.upload (h : Served serverHost keystream shared s trace)
    (sends : Sends clientHost fs entropy keystream sources s)
    (noNul : ∀ source ∈ sources, (0 : UInt8) ∉ source) {k id : Nat} {client : TCPClient.State}
    (accepted : s.ids k = some id) (there : s.client.clients[k]? = some client) :
    ∃ u : Upload, sources[k]? = some u.name ∧
      fs.openInput clientHost u.name = some u.datas.flatten ∧
      (∀ data ∈ u.datas, data.length ≤ defaultChunkSize) ∧
      client.written <+: u.frames keystream ∧
      Sessions.chunksOf id (TCPServer.chunks trace) <+: u.frames keystream ∧
      (client.pc = .finished → s.received k = client.wire.length →
        Sessions.chunksOf id (TCPServer.chunks trace) = u.frames keystream) := by
  obtain ⟨source, content, datas, isSource, named, readable, rfl, sizes, -, makes⟩ :=
    sends.client.makes there (h.connected k id accepted)
  have noNul := noNul source (List.mem_of_getElem? isSource)
  have short : source.length < 2 ^ 32 := by
    have bound := FileSystem.length_lt_of_openInput readable
    rw [(Argument.mk source noNul).cString] at bound
    exact bound
  have valid : ∀ data ∈ datas, data ≠ [] ∧ data.length < 2 ^ 32 := by
    intro data member
    obtain ⟨filled, le⟩ := sizes data member
    exact ⟨filled, Nat.lt_of_le_of_lt le (by decide)⟩
  let u : Upload := ⟨source, datas, .create (entropy k), ⟨named, short⟩, valid⟩
  obtain ⟨written, all⟩ := NetworkTask.written_of_makes makes
  obtain ⟨-, bytes⟩ := h.bytes k id client accepted there
  have inOrder := sends.inOrder k client there
  have codewords : ∀ word ∈ u.frames keystream, word ∈ Serializer.codewords keystream :=
    Serializer.mem_codewords (Serializer.framesOf_packs u.encryption u.named u.valid)
  refine ⟨u, isSource, readable, fun data member => (sizes data member).2, written, ?_, ?_⟩
  · apply Serializer.codewords_prefixFree.prefix_of_flatten Serializer.nil_notMem_codewords
      (h.frames k id accepted) codewords
    rw [bytes]
    exact (List.take_prefix _ _).trans
      (inOrder.wire_prefix.trans (List.IsPrefix.flatten written))
  · intro finished everything
    apply Serializer.codewords_prefixFree.uniquelyDecodable Serializer.nil_notMem_codewords _ _
      (h.frames k id accepted) codewords
    rw [bytes, everything, List.take_length, inOrder.wire_idle (inOrder.calm (by simp [finished])),
      all finished]
    rfl

/-- What the server has of a source, from what it has read of its connection. -/
theorem Served.stored (h : Served serverHost keystream shared s trace)
    (sends : Sends clientHost fs entropy keystream sources s)
    (currentPath : 0 ∉ serverHost.currentPath) (noNul : ∀ source ∈ sources, (0 : UInt8) ∉ source)
    {k id : Nat} {client : TCPClient.State} (accepted : s.ids k = some id)
    (there : s.client.clients[k]? = some client) :
    ∃ source content, sources[k]? = some source ∧ fs.openInput clientHost source = some content ∧
      (FileDataWriter.opens serverHost shared.files source (DataHandler.clientFolder id) = true →
        s.received k ≠ 0 → ∃ bytes, s.server.shared.files.files
          (DataHandler.clientPath serverHost id ++ separator :: filename source) = some bytes ∧
          bytes <+: content ∧
          (client.pc = .finished → s.received k = client.wire.length → bytes = content)) := by
  obtain ⟨u, isSource, readable, -, -, arrived, all⟩ := h.upload sends noNul accepted there
  refine ⟨u.name, u.datas.flatten, isSource, readable, ?_⟩
  intro opens some_read
  have member : u.name ∈ sources := List.mem_of_getElem? isSource
  have begun : Sessions.chunksOf id (TCPServer.chunks trace) ≠ [] := by
    intro none
    obtain ⟨within, bytes⟩ := h.bytes k id client accepted there
    rw [none, List.flatten_nil] at bytes
    have length := congrArg List.length bytes
    rw [List.length_nil, List.length_take] at length
    omega
  have cString : cString (filename u.name) = filename u.name :=
    cString_of_noNul fun nul => noNul u.name member (mem_of_mem_filename nul)
  have stored := TCPServer.feed_upload currentPath h.fed opens begun arrived
  rw [cString] at stored
  refine ⟨_, stored, List.IsPrefix.flatten (List.take_prefix _ _), ?_⟩
  intro finished everything
  rw [all finished everything, Upload.length_frames, Nat.add_sub_cancel, List.take_length]

theorem inv_of_reaches (currentPath : 0 ∉ serverHost.currentPath)
    (run : Reaches clientHost serverHost fs entropy keystream (orderly keystream)
      (start command shared) s) :
    Sends clientHost fs entropy keystream (command.sources.getD []) s ∧
      ∃ trace, Served serverHost keystream shared s trace := by
  apply run.invariant (I := fun s => Sends clientHost fs entropy keystream
    (command.sources.getD []) s ∧ ∃ trace, Served serverHost keystream shared s trace)
    ⟨.start command shared, [], .start command shared⟩
  rintro s action s' ⟨sends, trace, served⟩ guard next
  exact ⟨sends.step guard next, served.step sends currentPath guard next⟩

/-- A client process with any number of sources, its server, and any other clients of this server
    that do anything at all: in every run in which the sends keep up with the tasks and each read of
    the client's connections returns a frame, the server has at every moment a beginning of each
    source that it has read anything of, in the folder of that connection, and the whole source as
    soon as its task has returned and everything on the connection has been read. -/
theorem network_copies (currentPath : 0 ∉ serverHost.currentPath)
    (noNul : ∀ source ∈ command.sources.getD [], (0 : UInt8) ∉ source)
    (run : Reaches clientHost serverHost fs entropy keystream (orderly keystream)
      (start command shared) s) :
    ∀ k id client, s.ids k = some id → s.client.clients[k]? = some client →
      ∃ source content, (command.sources.getD [])[k]? = some source ∧
        fs.openInput clientHost source = some content ∧
        (FileDataWriter.opens serverHost shared.files source (DataHandler.clientFolder id) = true →
          s.received k ≠ 0 → ∃ bytes, s.server.shared.files.files
            (DataHandler.clientPath serverHost id ++ separator :: filename source) = some bytes ∧
            bytes <+: content ∧
            (client.pc = .finished → s.received k = client.wire.length → bytes = content)) := by
  obtain ⟨sends, trace, served⟩ := inv_of_reaches currentPath run
  intro k id client accepted there
  exact served.stored sends currentPath noNul accepted there

/-- `-m network -n client -s a`. -/
def once : SCommand where
  mode := .network
  network := some .client
  sources := some [ascii "a"]
  dest := none
  sharedMemory := none
  serverName := ascii "localhost"
  port := 12345

/-- Another client is there first; the name and the byte of the source are read as they are sent. -/
def onceRun : List Action :=
  let send : List Action := .replicate 22 (.client (.take 0 0))
  let more : List Action := .replicate 22 (.client (.take 0 1))
  [.client (.create .connected), .other .accept, .client .run, .accept 0, .client .run,
    .client .run] ++ send ++ [.read 0 22, .client .run, .client .run] ++ more ++
    [.read 0 22, .client .run, .client .run]

/-- The source has arrived when its task has returned. -/
theorem network_copies_small : ∃ s,
    Reaches (.permissive (ascii "/home")) (.permissive (ascii "/srv")) (.single (ascii "a") [7])
      (fun _ _ => .replicate 16 2) (fun _ _ _ => 7) (orderly fun _ _ _ => 7)
      (start once { encryption := .create fun _ => .replicate 16 1, files := .empty }) s ∧
    s.server.shared.files.files (ascii "/srv/client_2/a") = some [7] := by
  let shared : Shared := { encryption := .create fun _ => .replicate 16 1, files := .empty }
  let checked (s : State) (action : Action) : Option State :=
    if orderly (fun _ _ _ => 7) s action then
      step (.permissive (ascii "/home")) (.permissive (ascii "/srv")) (.single (ascii "a") [7])
        (fun _ _ => .replicate 16 2) (fun _ _ _ => 7) s action
    else none
  have outcome : (Transition.run checked (start once shared) onceRun).map (fun s =>
      (s.ids 0, s.received 0, s.client.clients.map fun client => (client.pc, client.wire.length))) =
        some (some 2, 44, [(.finished, 44)]) := by
    decide +kernel
  obtain ⟨s, ran, same⟩ := Option.map_eq_some_iff.mp outcome
  simp only [Prod.mk.injEq] at same
  obtain ⟨known, received, clients⟩ := same
  obtain ⟨client, rest, whole, here, -⟩ := List.map_eq_cons_iff.mp clients
  simp only [Prod.mk.injEq] at here
  obtain ⟨finished, length⟩ := here
  have there : s.client.clients[0]? = some client := by rw [whole, List.getElem?_cons_zero]
  have run := Transition.Reaches.of_checked_run onceRun ran
  obtain ⟨source, content, isSource, readable, stored⟩ :=
    network_copies (by decide) (by decide) run 0 2 client known there
  cases isSource
  cases readable
  obtain ⟨bytes, file, -, all⟩ := stored (by decide) (by rw [received]; decide)
  rw [all finished (received.trans length.symm)] at file
  exact ⟨s, run, file⟩

end NetworkCopy

end FileTransfer
