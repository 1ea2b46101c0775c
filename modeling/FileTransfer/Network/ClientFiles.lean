import FileTransfer.Network.Sessions

/-!
# Which files a client can open

The name in a name frame is the peer's choice. `filename` takes away its folders, the conversion
to a C string what follows a NUL, and what is then left of `.`, of `..` or of a name with a
separator at its end is a directory, which cannot be opened for output.
-/

namespace FileTransfer

open Posix

/-- A file right in the client's folder: `<current directory>/client_<ID>/<component>`. -/
def ClientFile (host : Host) (id : Nat) (path : Path) : Prop :=
  ∃ component, path = join host.currentPath (DataHandler.clientFolder id) ++
      separator :: component ∧
    component ≠ [] ∧ separator ∉ component ∧ component ≠ ascii "." ∧ component ≠ ascii ".."

variable {host : Host} {keystream : Keystream}

theorem ClientFile.inFolder {id : Nat} {path : Path} (h : ClientFile host id path) :
    InFolder (DataHandler.clientPath host id) path := by
  obtain ⟨component, same, -⟩ := h
  exact Or.inr ⟨component, same⟩

/-- No file is in the folders of two clients. -/
theorem ClientFile.id_eq (currentPath : 0 ∉ host.currentPath) {id id' : Nat} {path : Path}
    (h : ClientFile host id path) (h' : ClientFile host id' path) : id = id' := by
  by_contra differ
  exact DataHandler.clientPath_apart currentPath differ path h.inFolder h'.inFolder

namespace FileDataWriter

variable {fs fs' : FileSystem} {w : FileDataWriter} {fileName sub : Path}

/-- What a successful `open` says. -/
theorem openFile_ok (opened : openFile host fs fileName = (.ok w, fs')) :
    fs.canOpen host fileName = true ∧ w.stream.path = cString fileName ∧
      ∀ path, path ≠ cString fileName → fs'.files path = fs.files path := by
  unfold openFile FileSystem.openOutput at opened
  by_cases can : fs.canOpen host fileName = true
  · simp only [if_pos can] at opened
    cases opened
    refine ⟨can, rfl, ?_⟩
    intro path differs
    exact Function.update_of_ne differs _ _
  · simp only [if_neg can] at opened
    split at opened
    · cases opened
    · split at opened <;> cases opened

theorem ensureFolder_files (ensured : ensureFolder host fs sub = some fs') :
    fs'.files = fs.files := by
  simp only [ensureFolder] at ensured
  split at ensured
  · cases ensured
  · split at ensured
    · cases ensured
      rfl
    · simp only [FileSystem.createDirectory] at ensured
      split at ensured
      · cases ensured
        rfl
      · cases ensured

theorem openFile_error {fault : Fault} (thrown : openFile host fs fileName = (.error fault, fs')) :
    fs' = fs := by
  unfold openFile at thrown
  split at thrown
  · cases thrown
  · split at thrown
    · exact (congrArg Prod.snd thrown).symm
    · split at thrown <;> exact (congrArg Prod.snd thrown).symm

/-- A `Create` that throws has changed no file. -/
theorem create_error {fault : Fault} (thrown : create host fs fileName sub = (.error fault, fs')) :
    fs'.files = fs.files := by
  unfold create at thrown
  split at thrown
  · rw [openFile_error thrown]
  · cases ensured : ensureFolder host fs sub with
    | none =>
      rw [ensured] at thrown
      cases thrown
      rfl
    | some gs =>
      rw [ensured] at thrown
      rw [openFile_error thrown, ensureFolder_files ensured]

/-- A file that `Create` opens in a subfolder is one proper component below it. -/
theorem create_ok (h : OneComponent host sub)
    (created : create host fs fileName sub = (.ok w, fs')) :
    (∃ component, w.stream.path = join host.currentPath sub ++ separator :: component ∧
        separator ∉ component ∧ component ∉ [[], [46], [46, 46]]) ∧
      ∀ path, path ≠ w.stream.path → fs'.files path = fs.files path := by
  have named : sub ≠ [] := fun empty => h.proper (by simp [empty])
  rw [create, if_neg named] at created
  cases ensured : ensureFolder host fs sub with
  | none =>
    rw [ensured] at created
    cases created
  | some gs =>
    rw [ensured] at created
    obtain ⟨can, path, others⟩ := openFile_ok created
    have single : separator ∉ cString (filename fileName) := by
      intro member
      exact separator_notMem_filename fileName (mem_of_mem_cString member)
    refine ⟨⟨cString (filename fileName), path.trans (h.cString_pathIn fileName), single, ?_⟩, ?_⟩
    · -- The last component of what is opened does not stand for a directory.
      have proper : directoryOnly (cString (pathIn host sub fileName)) = false := by
        simp only [FileSystem.canOpen, Bool.and_eq_true, Bool.not_eq_true'] at can
        exact can.1.1.2
      rw [h.cString_pathIn, directoryOnly, filename_append_separator single] at proper
      exact of_decide_eq_false proper
    · intro other differs
      rw [others other (path ▸ differs), ensureFolder_files ensured]

end FileDataWriter

namespace DataHandler

variable {h : DataHandler} {sh : Shared}

theorem create_clientFile (currentPath : 0 ∉ host.currentPath) {id : Nat}
    {fs fs' : FileSystem} {name : Path} {writer : FileDataWriter}
    (created : FileDataWriter.create host fs name (clientFolder id) = (.ok writer, fs')) :
    ClientFile host id writer.stream.path ∧
      ∀ path, path ≠ writer.stream.path → fs'.files path = fs.files path := by
  obtain ⟨⟨component, path, single, proper⟩, others⟩ :=
    FileDataWriter.create_ok (clientFolder_oneComponent currentPath id) created
  refine ⟨⟨component, path, ?_, single, ?_, ?_⟩, others⟩
  · rintro rfl
    exact proper (by decide)
  · rintro rfl
    exact proper (by decide)
  · rintro rfl
    exact proper (by decide)

/-- What `HandleFileName` opens. -/
theorem handleFileName_ok (currentPath : 0 ∉ host.currentPath) {fileName : List UInt8}
    {h' : DataHandler} {sh' : Shared}
    (handled : handleFileName host h sh fileName = (.ok (), h', sh')) :
    ∃ writer, h'.dataWriter = some writer ∧ h'.id = h.id ∧
      ClientFile host h.id writer.stream.path ∧
      ∀ path, path ≠ writer.stream.path → sh'.files.files path = sh.files.files path := by
  unfold handleFileName at handled
  split at handled
  · cases handled
  · split at handled
    · rename_i writer files created
      cases handled
      obtain ⟨clientFile, others⟩ := create_clientFile currentPath created
      exact ⟨writer, rfl, rfl, clientFile, others⟩
    · cases handled

/-- The open file is one of the client. -/
def Opened (host : Host) (h : DataHandler) : Prop :=
  ∀ writer, h.dataWriter = some writer → ClientFile host h.id writer.stream.path

theorem dispatch_opened (currentPath : 0 ∉ host.currentPath) (opened : Opened host h)
    (type : DataType) (recovered : List UInt8) :
    Opened host (dispatch host h sh type recovered).2.1 := by
  unfold dispatch
  by_cases name : type = .typeFileName
  · rw [if_pos name]
    cases result : handleFileName host h sh recovered with
    | mk done rest =>
      obtain ⟨h', sh'⟩ := rest
      cases done with
      | ok returned =>
        obtain ⟨writer, set, sameId, clientFile, -⟩ := handleFileName_ok currentPath result
        intro writer' opened'
        rw [set] at opened'
        cases opened'
        rw [sameId]
        exact clientFile
      | error fault =>
        unfold handleFileName at result
        split at result
        · cases result
          exact opened
        · split at result
          · cases result
          · cases result
            exact opened
  · rw [if_neg name]
    by_cases fileData : type = .typeFileData
    · rw [if_pos fileData]
      unfold handleFileData
      cases set : h.dataWriter with
      | none => exact opened
      | some writer =>
        intro writer' opened'
        have written : (writer.write sh.files recovered).1 = writer' := Option.some.inj opened'
        rw [← written, FileDataWriter.write_path]
        exact opened writer set
    · rw [if_neg fileData]
      exact opened

theorem write_opened (currentPath : 0 ∉ host.currentPath) (opened : Opened host h)
    (data : List UInt8) : Opened host (write host keystream h sh data).2.1 := by
  obtain ⟨sameId, sameWriter⟩ := @receive_frame keystream h sh data
  unfold write
  revert sameId sameWriter
  rcases receive keystream h sh data with ⟨received, h₁, sh₁⟩
  intro sameId sameWriter
  replace sameId : h₁.id = h.id := sameId
  have opened₁ : Opened host h₁ := by
    intro writer set
    rw [sameId]
    exact opened writer (sameWriter.symm.trans set)
  cases received with
  | error fault => exact opened₁
  | ok recovered =>
    have opened₂ := @dispatch_opened host h₁ sh₁ currentPath opened₁ recovered.1 recovered.2
    revert opened₂
    simp only
    rcases dispatch host h₁ sh₁ recovered.1 recovered.2 with ⟨done, h₂, sh₂⟩
    intro opened₂
    cases done with
    | error fault => exact opened₂
    | ok done => exact opened₂

end DataHandler

namespace Sessions

open Noninterference

/-- In every run of the handlers, each open file is one of its client. -/
theorem run_opened (frames : List (Nat × List UInt8)) : ∀ s : Sessions host,
    (∀ id, DataHandler.Opened host (s.handlers id)) →
      ∀ id, DataHandler.Opened host ((run (step keystream) s frames).2.handlers id) := by
  induction frames with
  | nil =>
    intro s opened
    exact opened
  | cons frame rest ih =>
    intro s opened
    apply ih
    intro other
    change DataHandler.Opened host (Function.update s.handlers frame.1 _ other)
    by_cases same : other = frame.1
    · subst same
      rw [Function.update_self]
      exact DataHandler.write_opened s.currentPath (opened _) frame.2
    · rw [Function.update_of_ne same]
      exact opened other

end Sessions

namespace TCPServer

/-- In every run of a server, each open file is one of its client. -/
theorem feed_opened (currentPath : 0 ∉ host.currentPath) {shared : Shared} {trace : List Event}
    {s : State} (fed : feed host keystream (start shared) trace = some s) :
    ∀ c ∈ s.connections, ∀ writer, c.handler.dataWriter = some writer →
      ClientFile host c.id writer.stream.path := by
  have follows := Follows.feed trace _ _ (.start currentPath shared) s fed
  intro c member writer set
  rw [follows.handlers c member] at set
  have opened := Sessions.run_opened (chunks trace) (Sessions.start currentPath shared)
    (by
      intro id writer none
      cases none) c.id writer set
  rw [Sessions.ids] at opened
  exact opened

end TCPServer

/-- For every name that a frame can bring, every connection ID and every state of the server: a
    file that `HandleFileName` opens is one proper component below the folder of the connection,
    and no other file changes; files opened for two IDs have different paths; and so it is with
    the files that are open in any run of the server. -/
theorem clients_confined (host : Host) (currentPath : 0 ∉ host.currentPath) :
    (∀ h sh fileName h' sh',
      DataHandler.handleFileName host h sh fileName = (.ok (), h', sh') →
        ∃ writer, h'.dataWriter = some writer ∧ ClientFile host h.id writer.stream.path ∧
          ∀ path, path ≠ writer.stream.path → sh'.files.files path = sh.files.files path) ∧
    (∀ h₁ sh₁ name₁ h₁' sh₁' writer₁ h₂ sh₂ name₂ h₂' sh₂' writer₂,
      DataHandler.handleFileName host h₁ sh₁ name₁ = (.ok (), h₁', sh₁') →
      DataHandler.handleFileName host h₂ sh₂ name₂ = (.ok (), h₂', sh₂') →
      h₁'.dataWriter = some writer₁ → h₂'.dataWriter = some writer₂ → h₁.id ≠ h₂.id →
        writer₁.stream.path ≠ writer₂.stream.path) ∧
    ∀ keystream shared trace s,
      TCPServer.feed host keystream (TCPServer.start shared) trace = some s →
        ∀ c ∈ s.connections, ∀ writer, c.handler.dataWriter = some writer →
          ClientFile host c.id writer.stream.path := by
  refine ⟨?_, ?_, ?_⟩
  · intro h sh fileName h' sh' handled
    obtain ⟨writer, set, -, clientFile, others⟩ :=
      DataHandler.handleFileName_ok currentPath handled
    exact ⟨writer, set, clientFile, others⟩
  · intro h₁ sh₁ name₁ h₁' sh₁' writer₁ h₂ sh₂ name₂ h₂' sh₂' writer₂ handled₁ handled₂ set₁ set₂
      differ same
    obtain ⟨_, opened₁, -, clientFile₁, -⟩ := DataHandler.handleFileName_ok currentPath handled₁
    obtain ⟨_, opened₂, -, clientFile₂, -⟩ := DataHandler.handleFileName_ok currentPath handled₂
    cases set₁.symm.trans opened₁
    cases set₂.symm.trans opened₂
    exact differ (ClientFile.id_eq currentPath clientFile₁ (same ▸ clientFile₂))
  · intro keystream shared trace s fed
    exact TCPServer.feed_opened currentPath fed

/-- A name with folders, `..` and a NUL opens the file that is left of it. -/
theorem clients_confined_small : ∃ h' sh' writer,
    DataHandler.handleFileName (.permissive (ascii "/srv")) (.create 7)
        { encryption := .create fun _ => .replicate 16 1, files := .empty }
        (ascii "/etc/../a" ++ [0, 47, 97, 0, 98]) = (.ok (), h', sh') ∧
      h'.dataWriter = some writer ∧ writer.stream.path = ascii "/srv/client_7/a" ∧
      ClientFile (.permissive (ascii "/srv")) 7 writer.stream.path := by
  have path : (DataHandler.handleFileName (.permissive (ascii "/srv")) (.create 7)
      { encryption := .create fun _ => .replicate 16 1, files := .empty }
      (ascii "/etc/../a" ++ [0, 47, 97, 0, 98])).2.1.dataWriter.map (·.stream.path) =
      some (ascii "/srv/client_7/a") := by
    decide
  have returned : (DataHandler.handleFileName (.permissive (ascii "/srv")) (.create 7)
      { encryption := .create fun _ => .replicate 16 1, files := .empty }
      (ascii "/etc/../a" ++ [0, 47, 97, 0, 98])).1.toOption = some () := by
    decide
  rcases handled : DataHandler.handleFileName (.permissive (ascii "/srv")) (.create 7)
    { encryption := .create fun _ => .replicate 16 1, files := .empty }
    (ascii "/etc/../a" ++ [0, 47, 97, 0, 98]) with ⟨done, h', sh'⟩
  rw [handled] at path returned
  cases done with
  | error fault => cases returned
  | ok done =>
    obtain ⟨writer, set, clientFile, -⟩ :=
      (clients_confined (.permissive (ascii "/srv")) (by decide)).1 _ _ _ _ _ handled
    rw [set] at path
    exact ⟨h', sh', writer, rfl, set, Option.some.inj path, clientFile⟩

end FileTransfer
