import FileTransfer.Lib.Inbox
import FileTransfer.Network.ClientFiles
import FileTransfer.Network.Messages

/-!
# What the server is for

Each client has an inbox. What its chunks say goes there and nowhere else, and the folder of the
client is that inbox: whatever bytes arrive, from however many clients and in whatever order, the
files in the folder are the contents of the inbox, and the file that is open is its current name.
-/

namespace FileTransfer

open Posix Noninterference

namespace DataHandler

/-- What a chunk says to the handler of this ID: the name of a file that can be opened, or data. -/
def message (host : Host) (keystream : Keystream) (files : FileSystem) (id : Nat)
    (data : List UInt8) : Option (Inbox.Message Path UInt8) :=
  if names host keystream files id data then
    some (.name (cString (filename (Serializer.payloadOf keystream data))))
  else if carries .typeFileData data then some (.data (Serializer.payloadOf keystream data))
  else none

/-- The inbox that the folder of a client is at the start. -/
def inbox (host : Host) (files : FileSystem) (id : Nat) : Inbox Path UInt8 :=
  { contents := fun name => files.files (clientPath host id ++ separator :: name), current := none }

/-- The folder of the client is the inbox, and the stream is at the end of the current file. -/
structure Holding (host : Host) (h : DataHandler) (files : FileSystem) (box : Inbox Path UInt8) :
    Prop where
  contents : ∀ name,
    files.files (clientPath host h.id ++ separator :: name) = box.contents name
  closed : h.dataWriter = none → box.current = none
  current : ∀ writer, h.dataWriter = some writer → ∃ name content, box.current = some name ∧
    writer.stream.path = clientPath host h.id ++ separator :: name ∧ writer.Holds files content

variable {host : Host} {keystream : Keystream} {h : DataHandler} {sh : Shared}
  {data recovered : List UInt8} {type : DataType} {id : Nat} {box : Inbox Path UInt8}
  {start files : FileSystem}

theorem Holding.create (host : Host) (files : FileSystem) (id : Nat) :
    Holding host (create id) files (inbox host files id) :=
  ⟨fun _ => rfl, fun _ => rfl, fun _ opened => by cases opened⟩

/-- One file of the folder changes. -/
theorem Holding.update {name : Path} {content : List UInt8} (holds : Holding host h sh.files box)
    (stored : files.files (clientPath host h.id ++ separator :: name) = some content)
    (others : ∀ path, path ≠ clientPath host h.id ++ separator :: name →
      files.files path = sh.files.files path) (other : Path) :
    files.files (clientPath host h.id ++ separator :: other) =
      Function.update box.contents name (some content) other := by
  by_cases same : other = name
  · rw [same, stored, Function.update_self]
  · rw [Function.update_of_ne same, ← holds.contents]
    apply others
    intro equal
    exact same (List.cons.inj (List.append_cancel_left equal)).2

/-- A name frame whose file can be opened. -/
theorem Holding.opened (holds : Holding host h sh.files box) (currentPath : 0 ∉ host.currentPath)
    (nonempty : recovered ≠ [])
    (opens : FileDataWriter.opens host sh.files recovered (clientFolder h.id) = true) :
    Holding host (handleFileName host h sh recovered).2.1
      (handleFileName host h sh recovered).2.2.files
      (box.take (.name (cString (filename recovered)))) := by
  obtain ⟨writer, files, created, empty, path⟩ :=
    FileDataWriter.create_of_opens (clientFolder_ne_nil h.id) opens
  obtain ⟨-, others⟩ := create_clientFile currentPath created
  have place : writer.stream.path =
      clientPath host h.id ++ separator :: cString (filename recovered) :=
    path.trans ((clientFolder_oneComponent currentPath h.id).cString_pathIn recovered)
  have stored := empty.1
  rw [place] at stored others
  simp only [handleFileName, if_neg nonempty, created]
  refine ⟨holds.update stored others, (fun closed => by cases closed), ?_⟩
  intro writer' opened
  cases opened
  exact ⟨_, [], rfl, place, empty⟩

/-- A name frame whose file cannot be opened. -/
theorem Holding.refused (holds : Holding host h sh.files box) (nonempty : recovered ≠ [])
    (refused : FileDataWriter.opens host sh.files recovered (clientFolder h.id) = false) :
    Holding host (handleFileName host h sh recovered).2.1
      (handleFileName host h sh recovered).2.2.files box := by
  obtain ⟨fault, thrown⟩ :=
    FileDataWriter.create_of_not_opens (clientFolder_ne_nil h.id) refused
  rcases created : FileDataWriter.create host sh.files recovered (clientFolder h.id) with
    ⟨result, files⟩
  rw [created] at thrown
  cases thrown
  have unchanged := FileDataWriter.create_error created
  simp only [handleFileName, if_neg nonempty, created]
  refine ⟨?_, holds.closed, ?_⟩
  · rw [unchanged]
    exact holds.contents
  · intro writer opened
    obtain ⟨name, content, named, place, full⟩ := holds.current writer opened
    refine ⟨name, content, named, place, ?_, full.2⟩
    rw [unchanged]
    exact full.1

/-- A data frame goes to the current file, if there is one. -/
theorem Holding.appended (holds : Holding host h sh.files box) (recovered : List UInt8) :
    Holding host (handleFileData h sh recovered).2.1 (handleFileData h sh recovered).2.2.files
      (box.take (.data recovered)) := by
  unfold handleFileData
  cases opened : h.dataWriter with
  | none =>
    simp only [Inbox.take, holds.closed opened]
    exact holds
  | some writer =>
    obtain ⟨name, content, named, place, full⟩ := holds.current writer opened
    have there : box.contents name = some content := by
      rw [← holds.contents, ← place]
      exact full.1
    have longer := full.write recovered
    have stored := longer.1
    rw [FileDataWriter.write_path, place] at stored
    rw [Inbox.take_data named there]
    refine ⟨holds.update stored ?_, (fun closed => by cases closed), ?_⟩
    · intro path apart
      rw [← place] at apart
      exact FileDataWriter.write_of_ne apart recovered
    · intro writer' opened'
      cases opened'
      exact ⟨name, _, named, (FileDataWriter.write_path recovered).trans place, longer⟩

/-- A chunk with any bytes: the inbox takes what it says. -/
theorem Holding.written (holds : Holding host h sh.files box)
    (started : Started host id start h sh.files) (currentPath : 0 ∉ host.currentPath)
    (data : List UInt8) :
    Holding host (write host keystream h sh data).2.1
      (write host keystream h sh data).2.2.files
      (box.receive (message host keystream start id data).toList) := by
  by_cases payload : Serializer.wellSized data ∧ 0 < Serializer.dataSizeOf data
  · obtain ⟨fits, filled⟩ := payload
    obtain ⟨serializer, encryption, wrote⟩ := @write_of_payload host keystream h sh data fits filled
    have nonempty := @Serializer.payloadOf_ne_nil keystream data fits filled
    -- The handlers get a state that differs only in the serializer and the cipher.
    have holds' : Holding host { h with serializer } ({ sh with encryption } : Shared).files box :=
      ⟨holds.contents, holds.closed, holds.current⟩
    have opens := started.opens (Serializer.payloadOf keystream data)
    rw [← started.id_eq] at opens
    rw [wrote _ rfl]
    simp only [dispatch, message, names, carries, fits, filled, true_and]
    by_cases name : Serializer.typeOf data = .typeFileName
    · have notData : ¬ DataType.typeFileName = DataType.typeFileData := by decide
      simp only [name, if_true, true_and, notData, if_false, ← started.id_eq, ← opens]
      cases can : FileDataWriter.opens host sh.files (Serializer.payloadOf keystream data)
          (clientFolder h.id) with
      | true =>
        rw [if_pos rfl]
        exact holds'.opened currentPath nonempty can
      | false =>
        rw [if_neg (by decide)]
        exact holds'.refused nonempty can
    · simp only [name, if_false, false_and]
      by_cases fileData : Serializer.typeOf data = .typeFileData
      · simp only [fileData, if_true]
        exact holds'.appended _
      · simp only [fileData, if_false]
        exact holds'
  · obtain ⟨what, serializer, encryption, thrown⟩ :=
      @write_of_no_payload host keystream h sh data payload
    have nothing : message host keystream start id data = none := by
      have notNames : ¬ names host keystream start id data :=
        fun named => payload ⟨named.1.1, named.1.2.1⟩
      have notData : ¬ carries .typeFileData data :=
        fun carried => payload ⟨carried.1, carried.2.1⟩
      rw [message, if_neg notNames, if_neg notData]
    rw [thrown, nothing]
    exact ⟨holds.contents, holds.closed, holds.current⟩

/-- What the chunks say, one after the other. -/
def messages (host : Host) (keystream : Keystream) (files : FileSystem) (id : Nat)
    (chunks : List (List UInt8)) : List (Inbox.Message Path UInt8) :=
  chunks.flatMap fun chunk => (message host keystream files id chunk).toList

/-- Only the folder of the client is looked at. -/
theorem Holding.congr {files' : FileSystem} (holds : Holding host h files box)
    (agree : AgreeIn (clientPath host h.id) files files') : Holding host h files' box := by
  have inside : ∀ name, InFolder (clientPath host h.id)
      (clientPath host h.id ++ separator :: name) := fun name => Or.inr ⟨name, rfl⟩
  refine ⟨?_, holds.closed, ?_⟩
  · intro name
    rw [← (agree _ (inside name)).1]
    exact holds.contents name
  · intro writer opened
    obtain ⟨name, content, named, place, full⟩ := holds.current writer opened
    refine ⟨name, content, named, place, ?_, full.2⟩
    rw [← (agree _ (place ▸ inside name)).1]
    exact full.1

end DataHandler

namespace Sessions

open DataHandler (Holding Started inbox messages message)

variable {host : Host} {keystream : Keystream} {id : Nat} {box : Inbox Path UInt8}
  {files : FileSystem}

/-- The chunks of one connection. -/
def chunksOf (id : Nat) (frames : List (Nat × List UInt8)) : List (List UInt8) :=
  (ofDomain id frames).map Prod.snd

theorem ofDomain_eq (id : Nat) (frames : List (Nat × List UInt8)) :
    ofDomain id frames = (chunksOf id frames).map fun chunk => (id, chunk) := by
  induction frames with
  | nil => rfl
  | cons frame rest ih =>
    obtain ⟨other, chunk⟩ := frame
    by_cases own : other = id
    · subst own
      have first : ofDomain other ((other, chunk) :: rest) = (other, chunk) :: ofDomain other rest :=
        List.filter_cons_of_pos (by simp)
      rw [chunksOf, first, List.map_cons, List.map_cons, ← chunksOf, ← ih]
    · have first : ofDomain id ((other, chunk) :: rest) = ofDomain id rest :=
        List.filter_cons_of_neg (by simpa using own)
      rw [chunksOf, first, ← chunksOf, ih]

/-- A connection on its own. -/
theorem run_alone (chunks : List (List UInt8)) : ∀ (s : Sessions host) (box : Inbox Path UInt8),
    Holding host (s.handlers id) s.shared.files box →
    Started host id files (s.handlers id) s.shared.files →
    let t := (run (step keystream) s (chunks.map fun chunk => (id, chunk))).2
    Holding host (t.handlers id) t.shared.files
        (box.receive (messages host keystream files id chunks)) ∧
      Started host id files (t.handlers id) t.shared.files := by
  induction chunks with
  | nil =>
    intro s box holds started
    exact ⟨holds, started⟩
  | cons chunk rest ih =>
    intro s box holds started
    have holds' := @Holding.written host keystream _ _ id box files holds started s.currentPath chunk
    obtain ⟨-, started', -⟩ :=
      @DataHandler.write_step host keystream _ _ chunk id files started
    have next := ih (step keystream s id chunk).2
      (box.receive (message host keystream files id chunk).toList)
    simp only [step, Function.update_self] at next
    rw [messages, List.flatMap_cons, Inbox.receive_append]
    exact next holds' started'

/-- A connection among others has the handler that it has on its own, with the same in its folder. -/
theorem handled_alone (currentPath : 0 ∉ host.currentPath) (shared : Shared)
    (frames : List (Nat × List UInt8)) (id : Nat) :
    let t := (run (step keystream) (start currentPath shared) frames).2
    ∃ alone : Shared, AgreeIn (DataHandler.clientPath host id) alone.files t.shared.files ∧
      Holding host (t.handlers id) alone.files ((inbox host shared.files id).receive
        (messages host keystream shared.files id (chunksOf id frames))) ∧
      Started host id shared.files (t.handlers id) alone.files := by
  intro t
  obtain ⟨-, handler, files⟩ := (@separated host keystream).run_ofDomain id frames
    (start currentPath shared) _ ⟨rfl, AgreeIn.refl _⟩
  rw [ofDomain_eq] at handler files
  have alone := @run_alone host keystream id shared.files (chunksOf id frames)
    (start currentPath shared) (inbox host shared.files id) (.create host shared.files id)
    (.create shared.files)
  refine ⟨_, files.symm, ?_⟩
  rw [show t.handlers id = _ from handler]
  exact alone

theorem handled_holding (currentPath : 0 ∉ host.currentPath) (shared : Shared)
    (frames : List (Nat × List UInt8)) (id : Nat) :
    Holding host ((run (step keystream) (start currentPath shared) frames).2.handlers id)
      (handled currentPath keystream shared frames).files
      ((inbox host shared.files id).receive
        (messages host keystream shared.files id (chunksOf id frames))) := by
  obtain ⟨alone, agree, holds, -⟩ :=
    @handled_alone host keystream currentPath shared frames id
  apply holds.congr
  rw [ids]
  exact agree

end Sessions

namespace TCPServer

variable {host : Host} {keystream : Keystream} {shared : Shared} {trace : List Event} {s : State}

/-- What the inbox of a client is after the events of a server. -/
def inboxAfter (host : Host) (keystream : Keystream) (shared : Shared) (trace : List Event)
    (id : Nat) : Inbox Path UInt8 :=
  (DataHandler.inbox host shared.files id).receive
    (DataHandler.messages host keystream shared.files id (Sessions.chunksOf id (chunks trace)))

theorem feed_contents (currentPath : 0 ∉ host.currentPath)
    (fed : feed host keystream (start shared) trace = some s) (id : Nat) (name : Path) :
    s.shared.files.files (DataHandler.clientPath host id ++ separator :: name) =
      (inboxAfter host keystream shared trace id).contents name := by
  have follows := Follows.feed trace _ _ (.start currentPath shared) s fed
  have holds := @Sessions.handled_holding host keystream currentPath shared (chunks trace) id
  have contents := holds.contents name
  rw [Sessions.ids] at contents
  rw [follows.shared]
  exact contents

end TCPServer

end FileTransfer
