import FileTransfer.FileStream.FileDataReader
import FileTransfer.Lib.Transition
import FileTransfer.Network.DataHandler

/-!
# The server's event loop

`NetworkTask::Run` (`NetworkTask.cpp:48`) starts one accept (`TCPServer::Run`,
`TCPServer.h:33`) and runs the `io_context`. Each completion handler starts its own operation
again, if it gets so far; what it throws goes through `io_context::run` to the handlers of
`NetworkTask::Run`, which return.
-/

namespace FileTransfer

open Posix

namespace TCPServer

/-- An open `TCPConnection`, and whether its `async_read_some` is outstanding. -/
structure Connection where
  id : Nat
  handler : DataHandler
  reading : Bool

/-- The server in `io_context_.run()`. `accepting` counts the outstanding accepts, each for the
    connection with the latest ID. -/
structure State where
  running : Bool
  accepting : Nat
  currentId : Nat
  connections : List Connection
  shared : Shared

/-- The error codes that the handler of a read tells apart (`TCPConnection.h:66`). -/
inductive ReadError where
  | eof
  | operationAborted
  | other
  deriving DecidableEq

inductive Event where
  | accept
  | acceptFails
  | chunk (id : Nat) (data : List UInt8)
  | readFails (id : Nat) (error : ReadError)

/-- `TCPServer::Run`. -/
def startAccept (s : State) : State :=
  { s with currentId := s.currentId + 1, accepting := s.accepting + 1 }

/-- `io_context::run` also returns when nothing is outstanding. -/
def settle (s : State) : State :=
  { s with running := s.running && (0 < s.accepting || s.connections.any (·.reading)) }

/-- `NetworkTask::Run` at its `io_context_.run()`. -/
def start (shared : Shared) : State :=
  startAccept { running := true, accepting := 0, currentId := 0, connections := [], shared }

/-- Replace the connection with this ID. -/
def update (connections : List Connection) (id : Nat) (f : Connection → Connection) :
    List Connection := connections.map fun c => if c.id = id then f c else c

/-- The connection whose read completes. -/
def reader (s : State) (id : Nat) : Option Connection :=
  s.connections.find? fun c => c.id = id ∧ c.reading = true

/-- The handler of `async_accept` (`TCPServer.h:42`). -/
def acceptHandler (s : State) : State :=
  startAccept { s with
    accepting := s.accepting - 1
    connections := s.connections ++
      [{ id := s.currentId, handler := .create s.currentId, reading := true }] }

/-- The handler of `async_read_some` for a chunk (`TCPConnection.h:56`). -/
def chunkHandler (host : Host) (keystream : Keystream) (s : State) (c : Connection)
    (data : List UInt8) : State :=
  match c.handler.write host keystream s.shared data with
  | (.ok _, handler, shared) =>
    { s with
      connections := update s.connections c.id fun c => { c with handler, reading := true }
      shared }
  -- The exception ends the loop, a null dereference the process.
  | (.error _, handler, shared) =>
    { s with
      running := false
      connections := update s.connections c.id fun c => { c with handler, reading := false }
      shared }

/-- The event loop. A connection whose read fails is not read again, and its handler held the
    last pointer to it. -/
def step (host : Host) (keystream : Keystream) (s : State) (event : Event) : Option State :=
  if s.running then
    match event with
    | .accept => if 0 < s.accepting then some (settle (acceptHandler s)) else none
    | .acceptFails =>
      if 0 < s.accepting then some (settle { s with accepting := s.accepting - 1 }) else none
    | .chunk id data =>
      if data ≠ [] ∧ data.length ≤ bufferSize then
        (reader s id).map fun c => settle (chunkHandler host keystream s c data)
      else none
    | .readFails id _ =>
      (reader s id).map fun _ =>
        settle { s with connections := s.connections.filter fun c => c.id ≠ id }
  else none

/-- The connection that an event is about. -/
def Event.about : Event → Option Nat
  | .chunk id _ => some id
  | .readFails id _ => some id
  | _ => none

/-- After the event the loop runs, one accept is outstanding, and every open connection other
    than the event's is being read. -/
structure Serving (event : Event) (s : State) : Prop where
  running : s.running = true
  accepting : s.accepting = 1
  reading : ∀ c ∈ s.connections, event.about ≠ some c.id → c.reading = true

/-- Accepts do not fail, and a chunk is a whole frame whose handler has what it needs. -/
def harmless (host : Host) (keystream : Keystream) (s : State) : Event → Prop
  | .accept => True
  | .acceptFails => False
  | .chunk id data => ∀ c, reader s id = some c →
      c.handler.accepts host keystream s.shared.files data
  | .readFails _ _ => True

/-- Some sequence of events leads from `s` to `s'`, each meeting `ok`. -/
abbrev Reaches (host : Host) (keystream : Keystream) (ok : State → Event → Prop)
    (s s' : State) : Prop :=
  Transition.Reaches (step host keystream) ok s s'

variable {host : Host} {keystream : Keystream} {shared : Shared} {s s' : State} {event : Event}

/-- Every open connection is being read. -/
structure Steady (s : State) : Prop where
  running : s.running = true
  accepting : s.accepting = 1
  reading : ∀ c ∈ s.connections, c.reading = true

theorem Steady.settle (h : Steady s) : Steady (settle s) :=
  ⟨by simp [TCPServer.settle, h.running, h.accepting], h.accepting, h.reading⟩

theorem reading_update {connections : List Connection} {id : Nat} {f : Connection → Connection}
    (all : ∀ c ∈ connections, c.reading = true) (kept : ∀ c, (f c).reading = true) :
    ∀ c ∈ update connections id f, c.reading = true := by
  intro c member
  obtain ⟨before, isThere, rfl⟩ := List.mem_map.mp member
  split
  · exact kept before
  · exact all before isThere

/-- An accepted chunk leaves every connection being read. -/
theorem Steady.chunkHandler {c : Connection} {data : List UInt8} (h : Steady s)
    (accepted : c.handler.accepts host keystream s.shared.files data) :
    Steady (chunkHandler host keystream s c data) := by
  obtain ⟨dispatched, returned⟩ : ∃ dispatched,
      (c.handler.write host keystream s.shared data).1 = .ok dispatched :=
    ⟨_, (DataHandler.write_returns_iff _).mpr ⟨accepted, rfl⟩⟩
  unfold TCPServer.chunkHandler
  revert returned
  obtain ⟨result, handler, shared⟩ := c.handler.write host keystream s.shared data
  rintro rfl
  exact ⟨h.running, h.accepting, reading_update h.reading fun _ => rfl⟩

/-- A chunk that is not accepted ends the loop. -/
theorem chunkHandler_ends {c : Connection} {data : List UInt8}
    (rejected : ¬ c.handler.accepts host keystream s.shared.files data) :
    (chunkHandler host keystream s c data).running = false := by
  have thrown : ∀ dispatched,
      (c.handler.write host keystream s.shared data).1 ≠ .ok dispatched :=
    fun dispatched returned => rejected ((DataHandler.write_returns_iff dispatched).mp returned).1
  unfold TCPServer.chunkHandler
  revert thrown
  obtain ⟨result, handler, shared⟩ := c.handler.write host keystream s.shared data
  cases result with
  | ok dispatched => intro thrown; exact absurd rfl (thrown dispatched)
  | error fault => intro _; rfl

theorem Steady.step (h : Steady s) (safe : harmless host keystream s event)
    (next : step host keystream s event = some s') : Steady s' := by
  unfold TCPServer.step at next
  rw [if_pos h.running] at next
  cases event with
  | accept =>
    rw [if_pos (by rw [h.accepting]; decide)] at next
    cases next
    refine Steady.settle ⟨h.running, by simp [acceptHandler, startAccept, h.accepting], ?_⟩
    intro c member
    rcases List.mem_append.mp member with member | member
    · exact h.reading c member
    · rw [List.mem_singleton.mp member]
  | acceptFails => exact absurd safe id
  | chunk id data =>
    simp only at next
    split at next
    · obtain ⟨c, found, rfl⟩ := Option.map_eq_some_iff.mp next
      exact (h.chunkHandler (safe c found)).settle
    · cases next
  | readFails id error =>
    obtain ⟨c, -, rfl⟩ := Option.map_eq_some_iff.mp next
    exact Steady.settle ⟨h.running, h.accepting, fun c member =>
      h.reading c (List.mem_of_mem_filter member)⟩

theorem Steady.serving (h : Steady s) : Serving event s :=
  ⟨h.running, h.accepting, fun c member _ => h.reading c member⟩

theorem Steady.start (shared : Shared) : Steady (start shared) :=
  ⟨rfl, rfl, by simp [TCPServer.start, startAccept]⟩

/-- An event that is not harmless ends the loop, or leaves no accept outstanding. -/
theorem Steady.harmless_of_serving (h : Steady s)
    (next : TCPServer.step host keystream s event = some s') (serving : Serving event s') :
    harmless host keystream s event := by
  unfold TCPServer.step at next
  rw [if_pos h.running] at next
  cases event with
  | accept => trivial
  | acceptFails =>
    have outstanding : 0 < s.accepting := by rw [h.accepting]; decide
    simp only [outstanding, if_true, Option.some.injEq] at next
    have one := serving.accepting
    rw [← next] at one
    simp [TCPServer.settle, h.accepting] at one
  | chunk id data =>
    simp only at next
    split at next
    · obtain ⟨c, found, rfl⟩ := Option.map_eq_some_iff.mp next
      intro c' found'
      obtain rfl : c = c' := Option.some.inj (found.symm.trans found')
      by_contra rejected
      have running := serving.running
      simp [TCPServer.settle, chunkHandler_ends rejected] at running
    · cases next
  | readFails id error => trivial

/-- In every run of harmless events, for any clients and any bytes: after each event the loop
    runs, exactly one accept is outstanding and the other connections are being read, if and
    only if that event was harmless, too. -/
theorem serving_iff_harmless (run : Reaches host keystream (harmless host keystream)
      (start shared) s) (next : step host keystream s event = some s') :
    Serving event s' ↔ harmless host keystream s event := by
  have steady : Steady s := run.invariant (.start shared) fun _ _ _ steady safe next =>
    steady.step safe next
  exact ⟨steady.harmless_of_serving next, fun safe => (steady.step safe next).serving⟩

/-- A client connects and sends a name frame. -/
theorem serving_iff_harmless_small : ∃ s s' chunk,
    Reaches (.permissive (ascii "/srv")) (fun _ _ _ => 7)
      (harmless (.permissive (ascii "/srv")) fun _ _ _ => 7)
      (start { encryption := .create fun _ => .replicate 16 1, files := .empty }) s ∧
    step (.permissive (ascii "/srv")) (fun _ _ _ => 7) s (.chunk 1 chunk) = some s' ∧
    Serving (.chunk 1 chunk) s' := by
  let shared : Shared := { encryption := .create fun _ => .replicate 16 1, files := .empty }
  let s := settle (acceptHandler (start shared))
  let frame := Serializer.frame (fun _ _ _ => 7) .typeFileName (.replicate 16 2) (ascii "a")
  have run : Reaches (.permissive (ascii "/srv")) (fun _ _ _ => 7)
      (harmless (.permissive (ascii "/srv")) fun _ _ _ => 7) (start shared) s :=
    .single (a := .accept) trivial rfl
  obtain ⟨s', next⟩ : ∃ s', step (.permissive (ascii "/srv")) (fun _ _ _ => 7) s
      (.chunk 1 frame) = some s' := ⟨_, rfl⟩
  refine ⟨s, s', frame, run, next, (serving_iff_harmless run next).mpr fun c found => ?_⟩
  obtain rfl := Option.some.inj found
  decide

/-- A client connects and sends one byte. -/
theorem short_chunk_ends_loop : ¬ ∀ host keystream shared s event s',
    Reaches host keystream (fun _ _ => True) (start shared) s →
    step host keystream s event = some s' → Serving event s' := by
  intro always
  let shared : Shared := { encryption := .create fun _ => .replicate 16 1, files := .empty }
  let s := settle (acceptHandler (start shared))
  have run : Reaches (.permissive (ascii "/srv")) (fun _ _ _ => 7) (fun _ _ => True)
      (start shared) s := .single (a := .accept) trivial rfl
  obtain ⟨s', next⟩ : ∃ s', step (.permissive (ascii "/srv")) (fun _ _ _ => 7) s
      (.chunk 1 [0]) = some s' := ⟨_, rfl⟩
  have ended : s'.running = false := by
    obtain rfl := Option.some.inj next
    decide
  exact absurd (always _ _ _ _ _ _ run next).running (by rw [ended]; decide)

end TCPServer

end FileTransfer
