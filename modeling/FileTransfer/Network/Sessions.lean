import FileTransfer.Network.Isolation
import FileTransfer.Network.TCPServer

/-!
# Two runs of a server

The handlers of all connections, one for each ID, take frames in some order. What a connection
sees of a run, its handler and its client's folder, is what it sees when its own frames are
handled alone.
-/

namespace FileTransfer

open Posix Noninterference

/-- The handler of each ID, and what the handlers share. The working directory has no NUL, and
    each open file is in its client's folder. -/
structure Sessions (host : Host) where
  handlers : Nat → DataHandler
  shared : Shared
  currentPath : 0 ∉ host.currentPath
  ids : ∀ id, (handlers id).id = id
  placed : ∀ id, (handlers id).Placed host

namespace Sessions

variable {host : Host} {keystream : Keystream}

/-- A fresh server. -/
def start (currentPath : 0 ∉ host.currentPath) (shared : Shared) : Sessions host where
  handlers := DataHandler.create
  shared
  currentPath
  ids _ := rfl
  placed _ _ opened := by cases opened

/-- A frame of a connection is handled. -/
def step (keystream : Keystream) (s : Sessions host) (id : Nat) (data : List UInt8) :
    Except Fault (DataType × List UInt8) × Sessions host :=
  let written := (s.handlers id).write host keystream s.shared data
  (written.1,
    { s with
      handlers := Function.update s.handlers id written.2.1
      shared := written.2.2
      ids := by
        intro other
        by_cases same : other = id
        · subst same
          rw [Function.update_self,
            (DataHandler.write_confined s.currentPath (s.placed _) data).2.1, s.ids]
        · rw [Function.update_of_ne same, s.ids]
      placed := by
        intro other
        by_cases same : other = id
        · subst same
          rw [Function.update_self]
          exact (DataHandler.write_confined s.currentPath (s.placed _) data).2.2
        · rw [Function.update_of_ne same]
          exact s.placed other })

/-- The connection has the same handler and the same files. -/
def Alike (id : Nat) (s t : Sessions host) : Prop :=
  s.handlers id = t.handlers id ∧
    AgreeIn (DataHandler.clientPath host id) s.shared.files t.shared.files

/-- A connection sees nothing of the others. -/
theorem separated : Separated (@step host keystream) Alike where
  refl _ _ := ⟨rfl, AgreeIn.refl _⟩
  symm _ _ _ alike := ⟨alike.1.symm, alike.2.symm⟩
  trans _ _ _ _ alike alike' := ⟨alike.1.trans alike'.1, alike.2.trans alike'.2⟩
  confined := by
    intro s other data id differ
    obtain ⟨outside, -, -⟩ := @DataHandler.write_confined host keystream _ s.shared
      s.currentPath (s.placed other) data
    rw [s.ids] at outside
    refine ⟨(Function.update_of_ne differ _ _).symm, ?_⟩
    exact outside.agreeIn (DataHandler.clientPath_apart s.currentPath differ)
  consistent := by
    intro s t id data alike
    obtain ⟨handler, files⟩ := alike
    have agree : AgreeIn (DataHandler.clientPath host (s.handlers id).id) s.shared.files
        t.shared.files := by
      rw [s.ids]
      exact files
    obtain ⟨outcome, handler', files'⟩ :=
      @DataHandler.write_congr host keystream _ _ t.shared s.currentPath (s.placed id) agree data
    rw [s.ids] at files'
    simp only [step, Alike, Function.update_self, ← handler]
    exact ⟨outcome, handler', files'⟩

/-- What the handlers of a fresh server share after the frames. -/
def handled (currentPath : 0 ∉ host.currentPath) (keystream : Keystream) (shared : Shared)
    (frames : List (Nat × List UInt8)) : Shared :=
  (run (step keystream) (start currentPath shared) frames).2.shared

end Sessions

namespace TCPServer

/-- The server takes one event after the other. -/
def feed (host : Host) (keystream : Keystream) : State → List Event → Option State
  | s, [] => some s
  | s, event :: rest => (step host keystream s event).bind fun s => feed host keystream s rest

/-- The chunks among the events. -/
def chunks : List Event → List (Nat × List UInt8)
  | [] => []
  | .chunk id data :: rest => (id, data) :: chunks rest
  | _ :: rest => chunks rest

variable {host : Host} {keystream : Keystream} {s s' : State} {t : Sessions host}

/-- The open connections have the handlers of their IDs; the IDs to come have new ones. -/
structure Follows (s : State) (t : Sessions host) : Prop where
  shared : s.shared = t.shared
  handlers : ∀ c ∈ s.connections, c.handler = t.handlers c.id
  accepted : ∀ c ∈ s.connections, c.id < s.currentId
  fresh : ∀ id, s.currentId ≤ id → t.handlers id = .create id

theorem Follows.settle (h : Follows s t) : Follows (settle s) t :=
  ⟨h.shared, h.handlers, h.accepted, h.fresh⟩

theorem Follows.accept (h : Follows s t) : Follows (acceptHandler s) t := by
  refine ⟨h.shared, ?_, ?_, ?_⟩
  · intro c member
    rcases List.mem_append.mp member with before | new
    · exact h.handlers c before
    · rw [List.mem_singleton.mp new]
      exact (h.fresh s.currentId le_rfl).symm
  · intro c member
    rcases List.mem_append.mp member with before | new
    · exact Nat.lt_succ_of_lt (h.accepted c before)
    · rw [List.mem_singleton.mp new]
      exact Nat.lt_succ_self _
  · intro id later
    exact h.fresh id (Nat.le_of_succ_le later)

/-- The connection whose read completes is open and has the ID. -/
theorem reader_spec {id : Nat} {c : Connection} (found : reader s id = some c) :
    c ∈ s.connections ∧ c.id = id := by
  have chosen := List.find?_some found
  rw [decide_eq_true_eq] at chosen
  exact ⟨List.mem_of_find?_eq_some found, chosen.1⟩

/-- After a chunk, the connections with its ID have a new handler. -/
theorem Follows.written (h : Follows s t) {id : Nat} {data : List UInt8} {running : Bool}
    {f : Connection → Connection} (known : id < s.currentId) (kept : ∀ c, (f c).id = c.id)
    (handler : ∀ c, (f c).handler = ((t.handlers id).write host keystream t.shared data).2.1) :
    Follows { s with
      running
      connections := update s.connections id f
      shared := ((t.handlers id).write host keystream t.shared data).2.2 }
      (t.step keystream id data).2 := by
  refine ⟨rfl, ?_, ?_, ?_⟩
  · intro c member
    obtain ⟨before, isThere, rfl⟩ := List.mem_map.mp member
    by_cases own : before.id = id
    · rw [if_pos own, handler, kept, own]
      exact (Function.update_self id _ t.handlers).symm
    · rw [if_neg own, h.handlers before isThere]
      exact (Function.update_of_ne own ..).symm
  · intro c member
    obtain ⟨before, isThere, rfl⟩ := List.mem_map.mp member
    by_cases own : before.id = id
    · rw [if_pos own, kept]
      exact h.accepted before isThere
    · rw [if_neg own]
      exact h.accepted before isThere
  · intro other later
    have differs : other ≠ id := by
      have bound : s.currentId ≤ other := later
      omega
    have unchanged := h.fresh other later
    rw [← unchanged]
    exact Function.update_of_ne differs ..

theorem Follows.chunk (h : Follows s t) {id : Nat} {c : Connection} {data : List UInt8}
    (found : reader s id = some c) :
    Follows (chunkHandler host keystream s c data) (t.step keystream id data).2 := by
  obtain ⟨member, own⟩ := reader_spec found
  have known : id < s.currentId := own ▸ h.accepted c member
  have handler : c.handler = t.handlers id := own ▸ h.handlers c member
  unfold chunkHandler
  rw [handler, h.shared, own]
  have written := @Follows.written host keystream s t h id data
  revert written
  rcases (t.handlers id).write host keystream t.shared data with ⟨result, handler', shared'⟩
  intro written
  cases result with
  | ok dispatched => exact written known (fun _ => rfl) fun _ => rfl
  | error fault => exact written known (fun _ => rfl) fun _ => rfl

/-- What an event leaves, the frames of its chunk leave. -/
theorem Follows.step (h : Follows s t) {event : Event}
    (next : TCPServer.step host keystream s event = some s') :
    Follows s' (run (Sessions.step keystream) t (chunks [event])).2 := by
  unfold TCPServer.step at next
  split at next
  · cases event with
    | accept =>
      simp only at next
      split at next
      · cases next
        exact h.accept.settle
      · cases next
    | acceptFails =>
      simp only at next
      split at next
      · cases next
        exact Follows.settle ⟨h.shared, h.handlers, h.accepted, h.fresh⟩
      · cases next
    | chunk id data =>
      simp only at next
      split at next
      · obtain ⟨c, found, rfl⟩ := Option.map_eq_some_iff.mp next
        exact (h.chunk found).settle
      · cases next
    | readFails id error =>
      obtain ⟨c, -, rfl⟩ := Option.map_eq_some_iff.mp next
      refine Follows.settle ⟨h.shared, ?_, ?_, h.fresh⟩
      · intro c member
        exact h.handlers c (List.mem_of_mem_filter member)
      · intro c member
        exact h.accepted c (List.mem_of_mem_filter member)
  · cases next

theorem Follows.start (currentPath : 0 ∉ host.currentPath) (shared : Shared) :
    Follows (start shared) (Sessions.start currentPath shared) := by
  refine ⟨rfl, ?_, ?_, fun _ _ => rfl⟩
  · intro c member
    cases member
  · intro c member
    cases member

theorem Follows.feed (trace : List Event) :
    ∀ (s : State) (t : Sessions host), Follows s t → ∀ s',
      TCPServer.feed host keystream s trace = some s' →
      Follows s' (run (Sessions.step keystream) t (chunks trace)).2 := by
  induction trace with
  | nil =>
    intro s t h s' fed
    cases fed
    exact h
  | cons event rest ih =>
    intro s t h s' fed
    obtain ⟨middle, next, fed'⟩ := Option.bind_eq_some_iff.mp fed
    have followed := ih middle _ (h.step next) s' fed'
    cases event with
    | accept => exact followed
    | acceptFails => exact followed
    | chunk id data => exact followed
    | readFails id error => exact followed

/-- The server's handlers do with its chunks what the handlers of the IDs do. -/
theorem shared_of_feed (currentPath : 0 ∉ host.currentPath) {shared : Shared}
    {trace : List Event} (fed : feed host keystream (start shared) trace = some s) :
    s.shared = Sessions.handled currentPath keystream shared (chunks trace) := by
  exact (Follows.feed trace _ _ (.start currentPath shared) s fed).shared

end TCPServer

namespace Sessions

variable {host : Host} {keystream : Keystream}

/-- For any connections and any bytes as their frames, in any two orders that keep the order of a
    connection's own frames: the files of the connection are the same in the end, and the same
    as when its frames are handled alone, whatever the state of the encryption object and
    whatever the file systems have outside the client's folder. What a server does with the
    chunks that it takes is such a run. -/
theorem clients_isolated (currentPath : 0 ∉ host.currentPath) {shared shared' : Shared} {id : Nat}
    (begun : AgreeIn (DataHandler.clientPath host id) shared.files shared'.files)
    {frames frames' : List (Nat × List UInt8)}
    (order : ofDomain id frames = ofDomain id frames') :
    (∀ path, InFolder (DataHandler.clientPath host id) path →
      (handled currentPath keystream shared frames).files.files path =
          (handled currentPath keystream shared' frames').files.files path ∧
        (handled currentPath keystream shared frames).files.files path =
          (handled currentPath keystream shared' (ofDomain id frames)).files.files path) ∧
      ∀ trace s, TCPServer.feed host keystream (TCPServer.start shared) trace = some s →
        TCPServer.chunks trace = frames →
        s.shared = handled currentPath keystream shared frames := by
  have alike : Alike id (start currentPath shared) (start currentPath shared') := ⟨rfl, begun⟩
  obtain ⟨-, -, both⟩ := (@separated host keystream).run_eq id order alike
  obtain ⟨-, -, alone⟩ := (@separated host keystream).run_ofDomain id frames _ _ alike
  refine ⟨?_, ?_⟩
  · intro path inside
    exact ⟨(both path inside).1, (alone path inside).1⟩
  · intro trace s fed taken
    rw [← taken]
    exact TCPServer.shared_of_feed currentPath fed

/-- Two clients send a name and a byte each, in two orders. -/
theorem clients_isolated_small : ∃ frames frames' : List (Nat × List UInt8),
    frames.map Prod.fst = [1, 2, 2, 1] ∧ frames'.map Prod.fst = [2, 1, 1, 2] ∧
    ∃ (currentPath : 0 ∉ (Host.permissive (ascii "/srv")).currentPath) (shared : Shared),
      (handled currentPath (fun _ _ _ => 7) shared frames).files.files
          (ascii "/srv/client_1/a") =
        (handled currentPath (fun _ _ _ => 7) shared frames').files.files
          (ascii "/srv/client_1/a") := by
  let frame (type : DataType) (payload : List UInt8) :=
    Serializer.frame (fun _ _ _ => 7) type (.replicate 16 2) payload
  let name := frame .typeFileName (ascii "a")
  let content (byte : UInt8) := frame .typeFileData [byte]
  refine ⟨[(1, name), (2, name), (2, content 5), (1, content 6)],
    [(2, name), (1, name), (1, content 6), (2, content 5)], rfl, rfl, by decide,
    { encryption := .create fun _ => .replicate 16 1, files := .empty }, ?_⟩
  clear_value name content
  have inside : InFolder (DataHandler.clientPath (.permissive (ascii "/srv")) 1)
      (ascii "/srv/client_1/a") := Or.inr ⟨ascii "a", by decide⟩
  have order : ofDomain 1 [(1, name), (2, name), (2, content 5), (1, content 6)] =
      ofDomain 1 [(2, name), (1, name), (1, content 6), (2, content 5)] := rfl
  exact ((clients_isolated _ (AgreeIn.refl _) order).1 _ inside).1

end Sessions

end FileTransfer
