import FileTransfer.Network.Inboxes
import FileTransfer.Network.Transfer
import Mathlib.Data.List.Infix

/-!
# Uploads side by side

A client that sends one file, its frames arriving whole, among any other clients of the server. What
its frames say to its inbox is the name and then the data, so that the file in its folder grows with
each frame to the content of the source.
-/

namespace FileTransfer

open Posix Noninterference

/-- A file to send: a name and the data in pieces, each with a payload that fits a frame. -/
structure Upload where
  name : List UInt8
  datas : List (List UInt8)
  encryption : Encryption
  named : name ≠ [] ∧ name.length < 2 ^ 32
  valid : ∀ data ∈ datas, data ≠ [] ∧ data.length < 2 ^ 32

namespace Upload

def frames (keystream : Keystream) (u : Upload) : List (List UInt8) :=
  framesOf keystream u.encryption u.name u.datas

variable {keystream : Keystream} {u : Upload} {received : List (List UInt8)}

theorem length_frames : (u.frames keystream).length = u.datas.length + 1 := by
  have packed := @framesOf_payloadsOf keystream u.encryption _ _ u.named.1 fun data member =>
    (u.valid data member).1
  simpa [frames, payloadsOf] using packed.length_eq

/-- The frames that come first are a name frame and data frames. -/
theorem cases_prefix (begun : received ≠ []) (arrived : received <+: u.frames keystream) :
    ∃ iv rest, received = Serializer.frame keystream .typeFileName iv u.name :: rest ∧
      List.Forall₂ (fun frame data => ∃ iv, frame = Serializer.frame keystream .typeFileData iv data)
        rest (u.datas.take rest.length) := by
  have packed := @framesOf_payloadsOf keystream u.encryption _ _ u.named.1 fun data member =>
    (u.valid data member).1
  unfold framesOf payloadsOf at packed
  unfold frames framesOf at arrived
  cases received with
  | nil => exact absurd rfl begun
  | cons first rest =>
    obtain ⟨rfl, others⟩ := List.cons_prefix_cons.mp arrived
    cases packed with
    | cons frame datas =>
      obtain ⟨iv, frame⟩ := frame
      rw [List.forall₂_map_right_iff] at datas
      have soFar := List.forall₂_take rest.length datas
      rw [← List.prefix_iff_eq_take.mp others] at soFar
      exact ⟨iv, rest, by rw [frame], soFar⟩

end Upload

namespace DataHandler

variable {host : Host} {keystream : Keystream} {files : FileSystem} {id : Nat}
  {iv : Vector UInt8 blockSize} {payload : List UInt8}

theorem message_fileName (filled : payload ≠ []) (fits : payload.length < 2 ^ 32)
    (opens : FileDataWriter.opens host files payload (clientFolder id) = true) :
    message host keystream files id (Serializer.frame keystream .typeFileName iv payload) =
      some (.name (cString (filename payload))) := by
  obtain ⟨sized, some_data⟩ := @wellSized_of_frame keystream .typeFileName iv _ filled fits
  have named : names host keystream files id
      (Serializer.frame keystream .typeFileName iv payload) := by
    refine ⟨⟨sized, some_data, Serializer.typeOf_frame⟩, ?_⟩
    rw [Serializer.payloadOf_frame fits]
    exact opens
  rw [message, if_pos named, Serializer.payloadOf_frame fits]

theorem message_fileData (filled : payload ≠ []) (fits : payload.length < 2 ^ 32) :
    message host keystream files id (Serializer.frame keystream .typeFileData iv payload) =
      some (.data payload) := by
  obtain ⟨sized, some_data⟩ := @wellSized_of_frame keystream .typeFileData iv _ filled fits
  have notNames : ¬ names host keystream files id
      (Serializer.frame keystream .typeFileData iv payload) := by
    intro named
    exact absurd (Serializer.typeOf_frame.symm.trans named.1.2.2) (by decide)
  have carried : carries .typeFileData (Serializer.frame keystream .typeFileData iv payload) :=
    ⟨sized, some_data, Serializer.typeOf_frame⟩
  rw [message, if_neg notNames, if_pos carried, Serializer.payloadOf_frame fits]

theorem exists_of_forall₂ {α β : Type*} {R : α → β → Prop} {l : List α} {l' : List β}
    (related : List.Forall₂ R l l') {a : α} (member : a ∈ l) : ∃ b ∈ l', R a b := by
  induction related with
  | nil => cases member
  | @cons first first' rest rest' holds _ ih =>
    rcases List.mem_cons.mp member with rfl | later
    · exact ⟨first', List.mem_cons_self, holds⟩
    · obtain ⟨b, there, holds'⟩ := ih later
      exact ⟨b, List.mem_cons_of_mem _ there, holds'⟩

/-- Data frames say their data. -/
theorem messages_fileData {frames datas : List (List UInt8)}
    (packed : List.Forall₂ (fun frame data =>
      ∃ iv, frame = Serializer.frame keystream .typeFileData iv data) frames datas)
    (valid : ∀ data ∈ datas, data ≠ [] ∧ data.length < 2 ^ 32) :
    messages host keystream files id frames = datas.map .data := by
  induction packed with
  | nil => rfl
  | @cons _ data _ datas frame _ ih =>
    obtain ⟨iv, rfl⟩ := frame
    obtain ⟨filled, fits⟩ := valid data List.mem_cons_self
    have rest := ih fun data member => valid data (List.mem_cons_of_mem _ member)
    rw [messages, List.flatMap_cons, message_fileData filled fits, ← messages, rest]
    rfl

/-- What the frames of an upload say that have arrived so far. -/
theorem messages_upload {u : Upload} {received : List (List UInt8)}
    (opens : FileDataWriter.opens host files u.name (clientFolder id) = true)
    (begun : received ≠ []) (arrived : received <+: u.frames keystream) :
    messages host keystream files id received = .name (cString (filename u.name)) ::
      (u.datas.take (received.length - 1)).map .data := by
  obtain ⟨iv, rest, rfl, packed⟩ := Upload.cases_prefix begun arrived
  have said := @messages_fileData host keystream files id _ _ packed fun data member =>
    u.valid data (List.mem_of_mem_take member)
  rw [messages, List.flatMap_cons, message_fileName u.named.1 u.named.2 opens, ← messages, said]
  rfl

/-- The next frame of an upload is accepted. -/
theorem Holding.accepts {h : DataHandler} {start : FileSystem} {box : Inbox Path UInt8}
    {u : Upload} {received : List (List UInt8)} {chunk : List UInt8}
    (holds : Holding host h files (box.receive (messages host keystream start id received)))
    (started : Started host id start h files)
    (opens : FileDataWriter.opens host start u.name (clientFolder id) = true)
    (next : received ++ [chunk] <+: u.frames keystream) :
    accepts host keystream h files chunk := by
  obtain ⟨iv, rest, whole, packed⟩ := Upload.cases_prefix (by simp) next
  cases received with
  | nil =>
    obtain ⟨rfl, -⟩ := List.cons.inj whole
    obtain ⟨sized, some_data⟩ :=
      @wellSized_of_frame keystream .typeFileName iv _ u.named.1 u.named.2
    refine ⟨sized, some_data, ?_, ?_⟩
    · intro _
      rw [Serializer.payloadOf_frame u.named.2, started.id_eq, started.opens]
      exact opens
    · intro type
      exact absurd (Serializer.typeOf_frame.symm.trans type) (by decide)
  | cons first received =>
    obtain ⟨-, rfl⟩ := List.cons.inj whole
    obtain ⟨data, member, iv', rfl⟩ := exists_of_forall₂ packed
      (List.mem_append_right received (List.mem_singleton_self chunk))
    obtain ⟨filled, fits⟩ := u.valid data (List.mem_of_mem_take member)
    obtain ⟨sized, some_data⟩ := @wellSized_of_frame keystream .typeFileData iv' _ filled fits
    refine ⟨sized, some_data, ?_, ?_⟩
    · intro type
      exact absurd (Serializer.typeOf_frame.symm.trans type) (by decide)
    · intro _
      -- The name frame has opened the file.
      apply Option.isSome_iff_ne_none.mpr
      intro missing
      have closed := holds.closed missing
      rw [messages_upload opens (List.cons_ne_nil _ _) ((List.prefix_append _ _).trans next),
        Inbox.receive_upload] at closed
      cases closed

end DataHandler

namespace TCPServer

variable {server : Host} {keystream : Keystream} {shared : Shared} {trace : List Event} {s : State}
  {id : Nat} {u : Upload}

/-- The file of an upload holds the data of the frames that have arrived. -/
theorem feed_upload (currentPath : 0 ∉ server.currentPath)
    (fed : feed server keystream (start shared) trace = some s)
    (opens : FileDataWriter.opens server shared.files u.name (DataHandler.clientFolder id) = true)
    (begun : Sessions.chunksOf id (chunks trace) ≠ [])
    (arrived : Sessions.chunksOf id (chunks trace) <+: u.frames keystream) :
    s.shared.files.files (DataHandler.clientPath server id ++
      separator :: cString (filename u.name)) =
        some (u.datas.take ((Sessions.chunksOf id (chunks trace)).length - 1)).flatten := by
  have said := @DataHandler.messages_upload server keystream shared.files id u _ opens begun arrived
  rw [feed_contents currentPath fed, inboxAfter, said, Inbox.receive_upload]
  exact Function.update_self ..

/-- The reads of the connections hand over the frames of uploads, each for a file that the server
    can open. -/
def Uploading (server : Host) (keystream : Keystream) (shared : Shared) (trace : List Event) :
    Prop :=
  ∀ id, Sessions.chunksOf id (chunks trace) ≠ [] →
    ∃ u : Upload, Sessions.chunksOf id (chunks trace) <+: u.frames keystream ∧
      FileDataWriter.opens server shared.files u.name (DataHandler.clientFolder id) = true

theorem chunks_append (trace rest : List Event) :
    chunks (trace ++ rest) = chunks trace ++ chunks rest := by
  induction trace with
  | nil => rfl
  | cons event trace ih => cases event <;> simp only [List.cons_append, chunks, ih]

theorem feed_append {host : Host} (trace rest : List Event) :
    ∀ s, feed host keystream s (trace ++ rest) =
      (feed host keystream s trace).bind fun s => feed host keystream s rest := by
  induction trace with
  | nil => exact fun _ => rfl
  | cons event trace ih =>
    intro s
    simp only [List.cons_append, feed, Option.bind_assoc]
    congr
    funext s'
    exact ih s'

theorem chunksOf_append (id : Nat) (trace rest : List Event) :
    Sessions.chunksOf id (chunks (trace ++ rest)) =
      Sessions.chunksOf id (chunks trace) ++ Sessions.chunksOf id (chunks rest) := by
  rw [chunks_append, Sessions.chunksOf, ofDomain, List.filter_append, List.map_append]
  rfl

/-- An accept uses up an ID; no other event does. -/
theorem currentId_step {s s' : State} {event : Event}
    (next : step server keystream s event = some s') :
    event = .accept ∧ s'.currentId = s.currentId + 1 ∨
      event ≠ .accept ∧ s'.currentId = s.currentId := by
  unfold step at next
  split at next
  · cases event with
    | accept =>
      simp only at next
      split at next
      · cases next
        exact Or.inl ⟨rfl, rfl⟩
      · cases next
    | acceptFails =>
      simp only at next
      split at next
      · cases next
        exact Or.inr ⟨(fun impossible => by cases impossible), rfl⟩
      · cases next
    | chunk id data =>
      simp only at next
      split at next
      · obtain ⟨c, -, rfl⟩ := Option.map_eq_some_iff.mp next
        refine Or.inr ⟨(fun impossible => by cases impossible), ?_⟩
        unfold chunkHandler settle
        split <;> rfl
      · cases next
    | readFails id error =>
      obtain ⟨c, -, rfl⟩ := Option.map_eq_some_iff.mp next
      exact Or.inr ⟨(fun impossible => by cases impossible), rfl⟩
  · cases next

theorem currentId_le_step {s s' : State} {event : Event}
    (next : step server keystream s event = some s') : s.currentId ≤ s'.currentId := by
  rcases currentId_step next with ⟨-, more⟩ | ⟨-, same⟩ <;> omega

/-- What is read comes from a connection that has been accepted. -/
theorem chunk_accepted {s' : State} {data : List UInt8} (currentPath : 0 ∉ server.currentPath)
    (fed : feed server keystream (start shared) trace = some s)
    (next : step server keystream s (.chunk id data) = some s') : id < s.currentId := by
  have follows := Follows.feed trace _ _ (.start currentPath shared) s fed
  unfold step at next
  split at next
  · simp only at next
    split at next
    · obtain ⟨c, found, rfl⟩ := Option.map_eq_some_iff.mp next
      obtain ⟨member, rfl⟩ := reader_spec found
      exact follows.accepted c member
    · cases next
  · cases next

theorem feed_snoc {s' : State} {event : Event}
    (fed : feed server keystream (start shared) trace = some s)
    (next : step server keystream s event = some s') :
    feed server keystream (start shared) (trace ++ [event]) = some s' := by
  rw [feed_append, fed, Option.bind_some, feed, next]
  rfl

/-- The chunks of an ID after one more event. -/
theorem chunksOf_snoc (id : Nat) (trace : List Event) (event : Event) :
    (∃ data, event = .chunk id data ∧ Sessions.chunksOf id (chunks (trace ++ [event])) =
      Sessions.chunksOf id (chunks trace) ++ [data]) ∨
    (∀ data, event ≠ .chunk id data) ∧
      Sessions.chunksOf id (chunks (trace ++ [event])) = Sessions.chunksOf id (chunks trace) := by
  rw [chunksOf_append]
  cases event with
  | chunk other data =>
    by_cases same : other = id
    · subst same
      exact Or.inl ⟨data, rfl, by simp [Sessions.chunksOf, ofDomain, chunks]⟩
    · refine Or.inr ⟨fun data impossible => same (by cases impossible; rfl), ?_⟩
      simp [Sessions.chunksOf, ofDomain, chunks, same]
  | accept =>
    exact Or.inr ⟨(fun _ impossible => by cases impossible), List.append_nil _⟩
  | acceptFails =>
    exact Or.inr ⟨(fun _ impossible => by cases impossible), List.append_nil _⟩
  | readFails other error =>
    exact Or.inr ⟨(fun _ impossible => by cases impossible), List.append_nil _⟩

/-- A server at which nothing has failed can accept, and then has a connection more. -/
theorem Steady.accept (h : Steady s) :
    ∃ s', TCPServer.step server keystream s .accept = some s' ∧
      ∃ c ∈ s'.connections, c.id = s.currentId := by
  have accepts : 0 < s.accepting := by
    rw [h.accepting]
    exact Nat.one_pos
  refine ⟨_, by rw [TCPServer.step, if_pos h.running, if_pos accepts], ?_⟩
  exact ⟨_, List.mem_append_right _ (List.mem_singleton_self _), rfl⟩

/-- And it reads what arrives. -/
theorem Steady.chunk (h : Steady s) (present : ∃ c ∈ s.connections, c.id = id) {data : List UInt8}
    (filled : data ≠ []) (fits : data.length ≤ bufferSize) :
    ∃ s', TCPServer.step server keystream s (.chunk id data) = some s' := by
  obtain ⟨c, member, own⟩ := present
  obtain ⟨c', found⟩ : ∃ c', reader s id = some c' := by
    apply Option.isSome_iff_exists.mp
    apply List.find?_isSome.mpr
    exact ⟨c, member, decide_eq_true ⟨own, h.reading c member⟩⟩
  simp only [TCPServer.step, if_pos h.running, if_pos (And.intro filled fits), found,
    Option.map_some]
  exact ⟨_, rfl⟩

/-- A connection stays there until its read fails. -/
theorem connections_step {s' : State} {event : Event}
    (next : step server keystream s event = some s') {c : Connection} (member : c ∈ s.connections)
    (reads : ∀ error, event ≠ .readFails c.id error) : ∃ c' ∈ s'.connections, c'.id = c.id := by
  unfold step at next
  split at next
  · cases event with
    | accept =>
      simp only at next
      split at next
      · cases next
        exact ⟨c, List.mem_append_left _ member, rfl⟩
      · cases next
    | acceptFails =>
      simp only at next
      split at next
      · cases next
        exact ⟨c, member, rfl⟩
      · cases next
    | chunk id data =>
      simp only at next
      split at next
      · obtain ⟨reading, -, rfl⟩ := Option.map_eq_some_iff.mp next
        unfold chunkHandler
        split
        · refine ⟨_, List.mem_map_of_mem member, ?_⟩
          split <;> rfl
        · refine ⟨_, List.mem_map_of_mem member, ?_⟩
          split <;> rfl
      · cases next
    | readFails id error =>
      obtain ⟨reading, -, rfl⟩ := Option.map_eq_some_iff.mp next
      refine ⟨c, List.mem_filter.mpr ⟨member, ?_⟩, rfl⟩
      exact decide_eq_true fun same => reads error (same ▸ rfl)
  · cases next

theorem Uploading.before {event : Event} (h : Uploading server keystream shared (trace ++ [event])) :
    Uploading server keystream shared trace := by
  intro id begun
  have more := h id
  rw [chunksOf_append] at more
  obtain ⟨u, arrived, opens⟩ := more (List.append_ne_nil_of_left_ne_nil begun _)
  exact ⟨u, (List.prefix_append _ _).trans arrived, opens⟩

/-- A chunk that is the next frame of an upload is accepted. -/
theorem accepts_of_upload (currentPath : 0 ∉ server.currentPath)
    (fed : feed server keystream (start shared) trace = some s) {chunk : List UInt8}
    {c : Connection} (found : reader s id = some c)
    (next : Sessions.chunksOf id (chunks (trace ++ [.chunk id chunk])) <+: u.frames keystream)
    (opens : FileDataWriter.opens server shared.files u.name (DataHandler.clientFolder id) = true) :
    c.handler.accepts server keystream s.shared.files chunk := by
  have follows := Follows.feed trace _ _ (.start currentPath shared) s fed
  obtain ⟨member, rfl⟩ := reader_spec found
  have own : Sessions.chunksOf c.id (chunks [.chunk c.id chunk]) = [chunk] := by
    simp [Sessions.chunksOf, ofDomain, chunks]
  rw [chunksOf_append, own] at next
  obtain ⟨alone, agree, holds, started⟩ :=
    @Sessions.handled_alone server keystream currentPath shared (chunks trace) c.id
  have accepted := holds.accepts started opens next
  rw [follows.handlers c member, follows.shared]
  -- The handler answers as it would alone.
  let t := (run (Sessions.step keystream) (Sessions.start currentPath shared) (chunks trace)).2
  rw [← t.ids c.id] at agree
  obtain ⟨same, -⟩ := @DataHandler.write_congr server keystream _ alone t.shared currentPath
    (t.placed c.id) agree chunk
  have returned := (@DataHandler.write_returns_iff server keystream _ alone chunk _).mpr
    ⟨accepted, rfl⟩
  exact ((DataHandler.write_returns_iff _).mp (same.symm.trans returned)).1

/-- The chunk that arrives next is accepted. -/
theorem Uploading.accepts (currentPath : 0 ∉ server.currentPath)
    (fed : feed server keystream (start shared) trace = some s) {chunk : List UInt8}
    (h : Uploading server keystream shared (trace ++ [.chunk id chunk])) {c : Connection}
    (found : reader s id = some c) :
    c.handler.accepts server keystream s.shared.files chunk := by
  have some_chunk : Sessions.chunksOf id (chunks (trace ++ [.chunk id chunk])) ≠ [] := by
    rw [chunksOf_append]
    simp [Sessions.chunksOf, ofDomain, chunks]
  obtain ⟨u, next, opens⟩ := h id some_chunk
  exact accepts_of_upload currentPath fed found next opens

/-- As long as no accept fails and what arrives are the frames of uploads, in any order among the
    clients, the server goes on: the loop runs, one accept is outstanding, and every connection is
    being read. -/
theorem uploads_keep_serving (currentPath : 0 ∉ server.currentPath)
    (fed : feed server keystream (start shared) trace = some s)
    (accepts : ∀ event ∈ trace, event ≠ .acceptFails)
    (uploading : Uploading server keystream shared trace) :
    s.running = true ∧ s.accepting = 1 ∧ ∀ c ∈ s.connections, c.reading = true := by
  have steady : Steady s := by
    induction trace using List.reverseRecOn generalizing s with
    | nil =>
      cases fed
      exact .start shared
    | append_singleton trace event ih =>
      obtain ⟨s', fed', next⟩ : ∃ s', feed server keystream (start shared) trace = some s' ∧
          step server keystream s' event = some s := by
        rw [feed_append] at fed
        obtain ⟨s', fed', rest⟩ := Option.bind_eq_some_iff.mp fed
        obtain ⟨s'', next, done⟩ := Option.bind_eq_some_iff.mp rest
        cases done
        exact ⟨s', fed', next⟩
      have before := ih fed' (fun other member => accepts other (List.mem_append_left _ member))
        uploading.before
      refine before.step ?_ next
      cases event with
      | accept => trivial
      | acceptFails => exact accepts _ (List.mem_append_right _ (List.mem_singleton_self _)) rfl
      | chunk id data => exact fun c found => uploading.accepts currentPath fed' found
      | readFails id error => trivial
  exact ⟨steady.running, steady.accepting, steady.reading⟩

/-- Two clients, one of them half-way. -/
theorem uploads_keep_serving_small : ∃ trace s,
    feed (.permissive (ascii "/srv")) (fun _ _ _ => 7)
      (start { encryption := .create fun _ => .replicate 16 1, files := .empty }) trace = some s ∧
    s.connections.length = 2 ∧ s.running = true ∧ ∀ c ∈ s.connections, c.reading = true := by
  let u : Upload := ⟨ascii "a", [[1], [2]], .create fun _ => .replicate 16 2, by decide, by decide⟩
  let frames := u.frames fun _ _ _ => 7
  let shared : Shared := { encryption := .create fun _ => .replicate 16 1, files := .empty }
  obtain ⟨s, fed⟩ : ∃ s, feed (.permissive (ascii "/srv")) (fun _ _ _ => 7) (start shared)
      [.accept, .accept, .chunk 2 (frames.getD 0 []), .chunk 1 (frames.getD 0 []),
        .chunk 2 (frames.getD 1 [])] = some s := Option.isSome_iff_exists.mp (by decide +kernel)
  have two : s.connections.length = 2 := by
    have counted := congrArg (Option.map (·.connections.length)) fed
    exact Option.some.inj (counted.symm.trans (by decide +kernel))
  have uploading : Uploading (.permissive (ascii "/srv")) (fun _ _ _ => 7) shared
      [.accept, .accept, .chunk 2 (frames.getD 0 []), .chunk 1 (frames.getD 0 []),
        .chunk 2 (frames.getD 1 [])] := by
    intro id begun
    by_cases first : id = 1
    · subst first
      exact ⟨u, by decide +kernel, by decide⟩
    · by_cases second : id = 2
      · subst second
        exact ⟨u, by decide +kernel, by decide⟩
      · refine absurd ?_ begun
        simp [Sessions.chunksOf, ofDomain, chunks, Ne.symm first, Ne.symm second]
  obtain ⟨running, -, reading⟩ := uploads_keep_serving (by decide) fed (by simp) uploading
  exact ⟨_, s, fed, two, running, reading⟩

/-- A client that runs `FileTransferTask` on a source that it can read, its frames arriving whole,
    and whatever else happens at the server, as long as it lives: at every moment the file in the
    client's folder holds what the frames so far carried, a beginning of the source, and once all
    frames are in, the bytes of the source. -/
theorem upload_stored (client server : Host) (currentPath : 0 ∉ server.currentPath)
    (fs : FileSystem) (source : Argument) (content : List UInt8)
    (entropy : Nat → Vector UInt8 blockSize) (shared : Shared) (named : source.bytes ≠ [])
    (there : fs.openInput client source.bytes = some content)
    (opens : FileDataWriter.opens server shared.files source.bytes
      (DataHandler.clientFolder id) = true) :
    ∃ task calls, FileTransferTask.create client fs source.bytes entropy = .ok task ∧
      task.run keystream (content.length + 1) = some calls ∧
      ∀ trace s, feed server keystream (start shared) trace = some s →
        Sessions.chunksOf id (chunks trace) ≠ [] →
        Sessions.chunksOf id (chunks trace) <+: Call.written calls →
        ∃ bytes, s.shared.files.files (DataHandler.clientPath server id ++
            separator :: filename source.bytes) = some bytes ∧ bytes <+: content ∧
          (Sessions.chunksOf id (chunks trace) = Call.written calls → bytes = content) := by
  obtain ⟨datas, ran, whole, sizes⟩ :=
    @FileTransferTask.run_create keystream source.bytes content named entropy
  have short : source.bytes.length < 2 ^ 32 := by
    have bound := FileSystem.length_lt_of_openInput there
    rw [source.cString] at bound
    exact bound
  have valid : ∀ data ∈ datas, data ≠ [] ∧ data.length < 2 ^ 32 := by
    intro data member
    obtain ⟨filled, le⟩ := sizes data member
    exact ⟨filled, Nat.lt_of_le_of_lt le (by decide)⟩
  let u : Upload := ⟨source.bytes, datas, .create entropy, ⟨named, short⟩, valid⟩
  have noNul : cString (filename source.bytes) = filename source.bytes :=
    cString_of_noNul fun nul => source.noNul (mem_of_mem_filename nul)
  refine ⟨_, _, FileTransferTask.create_of_openInput named there entropy, ran, ?_⟩
  intro trace s fed begun arrived
  rw [Call.written_callsFor] at arrived ⊢
  have stored := feed_upload (u := u) currentPath fed opens begun arrived
  rw [show u.name = source.bytes from rfl, noNul] at stored
  refine ⟨_, stored, ?_, ?_⟩
  · rw [← whole]
    exact List.IsPrefix.flatten (List.take_prefix _ _)
  · intro all
    rw [all, show framesOf keystream (.create entropy) source.bytes datas = u.frames keystream from
      rfl, Upload.length_frames, Nat.add_sub_cancel, List.take_length]
    exact whole

/-- A client sends three bytes while another one opens a file. -/
theorem upload_stored_small : ∃ trace s,
    feed (.permissive (ascii "/srv")) (fun _ _ _ => 7)
      (start { encryption := .create fun _ => .replicate 16 1, files := .empty }) trace = some s ∧
    s.shared.files.files (ascii "/srv/client_2/a") = some [1, 2, 3] := by
  let frame (type : DataType) (payload : List UInt8) :=
    Serializer.frame (fun _ _ _ => 7) type (.replicate 16 2) payload
  obtain ⟨task, calls, created, ran, stored⟩ := @upload_stored (fun _ _ _ => 7) 2
    (.permissive (ascii "/home")) (.permissive (ascii "/srv")) (by decide)
    (.single (ascii "d/a") [1, 2, 3]) ⟨ascii "d/a", by decide⟩ [1, 2, 3] (fun _ => .replicate 16 2)
    { encryption := .create fun _ => .replicate 16 1, files := .empty } (by decide) (by decide)
    (by decide)
  have written : Call.written calls =
      [frame .typeFileName (ascii "d/a"), frame .typeFileData [1, 2, 3]] := by
    cases created
    have both := congrArg (Option.map Call.written) ran
    exact Option.some.inj (both.symm.trans (by decide +kernel))
  obtain ⟨s, fed⟩ : ∃ s, feed (.permissive (ascii "/srv")) (fun _ _ _ => 7)
      (start { encryption := .create fun _ => .replicate 16 1, files := .empty })
      [.accept, .accept, .chunk 2 (frame .typeFileName (ascii "d/a")),
        .chunk 1 (frame .typeFileName (ascii "a")), .chunk 2 (frame .typeFileData [1, 2, 3])] =
        some s := Option.isSome_iff_exists.mp (by decide +kernel)
  obtain ⟨bytes, content, -, all⟩ := stored _ s fed (by simp [chunks, Sessions.chunksOf, ofDomain])
    (by rw [written]; exact List.prefix_rfl)
  rw [all written.symm] at content
  exact ⟨_, s, fed, content⟩

end TCPServer

end FileTransfer
