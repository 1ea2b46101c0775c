import FileTransfer.Lib.Posix
import FileTransfer.Common.Serializer

/-!
# Writing a file

`FileDataWriter::Create` and `FileDataWriter::Write` (`FileDataWriter.h:32`).
-/

namespace FileTransfer

open Posix

/-- `FileDataWriter` (`FileDataWriter.h:12`), with its stream open. -/
structure FileDataWriter where
  stream : OfStream
  deriving DecidableEq

namespace FileDataWriter

/-- The end of `Create`, from `stream_.open` on. -/
def openFile (host : Host) (fs : FileSystem) (fileName : Path) :
    Except Fault FileDataWriter × FileSystem :=
  match fs.openOutput host fileName with
  | some fs => (.ok { stream := { path := cString fileName, position := 0 } }, fs)
  | none =>
    if FileSystem.tooLong host fileName then (.error (.filesystemError fileName), fs)
    else if fs.exists fileName then
      (.error (.runtimeError (fileName ++ ascii " is failed to open.")), fs)
    else (.error (.runtimeError (fileName ++ ascii " does not exist.")), fs)

/-- `subFolderPath / fileNameAsPath.filename()`. -/
def pathIn (host : Host) (subFolderName fileName : Path) : Path :=
  join (join host.currentPath subFolderName) (filename fileName)

/-- The check of the subfolder (`FileDataWriter.h:44`); `none` when creating it throws. -/
def ensureFolder (host : Host) (fs : FileSystem) (subFolderName : Path) : Option FileSystem :=
  let subFolderPath := join host.currentPath subFolderName
  if FileSystem.tooLong host subFolderPath then none
  else if fs.exists subFolderPath then some fs
  else fs.createDirectory host subFolderPath

/-- `Create` (`FileDataWriter.h:32`). -/
def create (host : Host) (fs : FileSystem) (fileName subFolderName : Path) :
    Except Fault FileDataWriter × FileSystem :=
  if subFolderName = [] then openFile host fs fileName
  else
    match ensureFolder host fs subFolderName with
    | some fs => openFile host fs (pathIn host subFolderName fileName)
    | none => (.error (.filesystemError (join host.currentPath subFolderName)), fs)

/-- `Write` (`FileDataWriter.h:74`). -/
def write (w : FileDataWriter) (fs : FileSystem) (data : List UInt8) :
    FileDataWriter × FileSystem :=
  if data = [] then (w, fs)
  else
    let (stream, fs) := w.stream.write fs data
    ({ w with stream }, fs)

/-- The writer has written this much, and nothing else is in its file. -/
def Holds (w : FileDataWriter) (fs : FileSystem) (content : List UInt8) : Prop :=
  w.stream.AtEnd fs content

variable {host : Host} {fs : FileSystem} {w : FileDataWriter}

theorem Holds.write {content : List UInt8} (h : w.Holds fs content) (data : List UInt8) :
    (w.write fs data).1.Holds (w.write fs data).2 (content ++ data) := by
  unfold FileDataWriter.write
  split
  · rename_i empty
    simpa [empty] using h
  · exact OfStream.AtEnd.write h data

/-- Writing does not move the file. -/
theorem write_path (data : List UInt8) : (w.write fs data).1.stream.path = w.stream.path := by
  unfold FileDataWriter.write
  split <;> rfl

theorem write_of_ne {path : Path} (other : path ≠ w.stream.path) (data : List UInt8) :
    (w.write fs data).2.files path = fs.files path := by
  unfold FileDataWriter.write
  split
  · rfl
  · exact OfStream.write_of_ne other fs data

/-- Whether `Create` gets a file for a name in a subfolder. -/
def opens (host : Host) (fs : FileSystem) (fileName subFolderName : Path) : Bool :=
  match ensureFolder host fs subFolderName with
  | some fs => fs.canOpen host (pathIn host subFolderName fileName)
  | none => false

/-- A file that can be opened is opened empty, at its start. -/
theorem create_of_opens {fileName subFolderName : Path} (inFolder : subFolderName ≠ [])
    (h : opens host fs fileName subFolderName = true) :
    ∃ w fs', create host fs fileName subFolderName = (.ok w, fs') ∧ w.Holds fs' [] ∧
      w.stream.path = cString (pathIn host subFolderName fileName) := by
  unfold opens at h
  split at h
  · rename_i fs' folder
    simp only [create, if_neg inFolder, folder, openFile, FileSystem.openOutput, h, if_true]
    exact ⟨_, _, rfl, ⟨Function.update_self .., rfl⟩, rfl⟩
  · cases h

/-- A file that cannot be opened makes `Create` throw. -/
theorem create_of_not_opens {fileName subFolderName : Path} (inFolder : subFolderName ≠ [])
    (h : opens host fs fileName subFolderName = false) :
    ∃ fault, (create host fs fileName subFolderName).1 = .error fault := by
  unfold opens at h
  split at h
  · rename_i fs' folder
    simp only [create, if_neg inFolder, folder, openFile, FileSystem.openOutput, h,
      Bool.false_eq_true, if_false]
    repeat' split
    all_goals exact ⟨_, rfl⟩
  · rename_i folder
    simp only [create, if_neg inFolder, folder]
    exact ⟨_, rfl⟩

/-- Files were created or changed, and no directory was. -/
structure Grown (fs fs' : FileSystem) : Prop where
  directories : fs'.directories = fs.directories
  files : ∀ path, (fs.files path).isSome = true → (fs'.files path).isSome = true

theorem Grown.refl (fs : FileSystem) : Grown fs fs := ⟨rfl, fun _ there => there⟩

theorem Grown.trans {fs' fs'' : FileSystem} (first : Grown fs fs') (second : Grown fs' fs'') :
    Grown fs fs'' := by
  refine ⟨second.directories.trans first.directories, ?_⟩
  intro path there
  exact second.files path (first.files path there)

theorem Grown.update {fs : FileSystem} (path : Path) (content : List UInt8) :
    Grown fs { fs with files := Function.update fs.files path (some content) } := by
  refine ⟨rfl, ?_⟩
  intro other there
  by_cases same : other = path
  · subst same
    simp only [Function.update_self, Option.isSome_some]
  · simpa only [Function.update_of_ne same] using there

theorem Grown.isDirectory {fs' : FileSystem} (grown : Grown fs fs') (path : Path) :
    fs'.isDirectory path = fs.isDirectory path := by
  rw [FileSystem.isDirectory, FileSystem.isDirectory, grown.directories]

theorem Grown.exists {fs' : FileSystem} (grown : Grown fs fs') {path : Path}
    (there : fs.exists path = true) : fs'.exists path = true := by
  simp only [FileSystem.exists, grown.isDirectory, Bool.or_eq_true] at there ⊢
  exact there.imp_left (grown.files _)

theorem write_grown (data : List UInt8) : Grown fs (w.write fs data).2 := by
  unfold FileDataWriter.write
  split
  · exact Grown.refl _
  · exact Grown.update _ _

theorem openFile_grown (fileName : Path) : Grown fs (openFile host fs fileName).2 := by
  unfold openFile FileSystem.openOutput
  by_cases opens : fs.canOpen host fileName
  · simp only [if_pos opens]
    exact Grown.update _ _
  · simp only [if_neg opens]
    split
    · exact Grown.refl _
    · split <;> exact Grown.refl _

/-- A subfolder that has been checked is there, and is found when it is checked again. -/
theorem ensureFolder_exists {fs' : FileSystem} {subFolderName : Path}
    (ensured : ensureFolder host fs subFolderName = some fs') :
    fs'.exists (join host.currentPath subFolderName) = true := by
  simp only [ensureFolder] at ensured
  split at ensured
  · cases ensured
  · split at ensured
    · rename_i there
      cases ensured
      exact there
    · simp only [FileSystem.createDirectory] at ensured
      split at ensured
      · cases ensured
        simp only [FileSystem.exists, FileSystem.isDirectory, Function.update_self, Bool.or_true,
          Bool.true_or]
      · cases ensured

theorem ensureFolder_of_exists {subFolderName : Path}
    (short : FileSystem.tooLong host (join host.currentPath subFolderName) = false)
    (there : fs.exists (join host.currentPath subFolderName) = true) :
    ensureFolder host fs subFolderName = some fs := by
  simp only [ensureFolder, short, there, Bool.false_eq_true, if_false, if_true]

/-- Once the subfolder is there, which files can be opened in it stays. -/
theorem opens_of_grown {fs' : FileSystem} (grown : Grown fs fs') {subFolderName : Path}
    (there : fs.exists (join host.currentPath subFolderName) = true) (fileName : Path) :
    opens host fs' fileName subFolderName = opens host fs fileName subFolderName := by
  cases short : FileSystem.tooLong host (join host.currentPath subFolderName) with
  | true => simp only [opens, ensureFolder, short, if_true]
  | false =>
    simp only [opens, ensureFolder_of_exists short there,
      ensureFolder_of_exists short (grown.exists there), FileSystem.canOpen, grown.directories]

theorem opens_of_ensured {fs' : FileSystem} {subFolderName : Path}
    (ensured : ensureFolder host fs subFolderName = some fs') (fileName : Path) :
    opens host fs' fileName subFolderName = opens host fs fileName subFolderName := by
  have short : FileSystem.tooLong host (join host.currentPath subFolderName) = false := by
    simp only [ensureFolder] at ensured
    split at ensured
    · cases ensured
    · rename_i short
      exact Bool.eq_false_of_not_eq_true short
  have again := ensureFolder_of_exists short (ensureFolder_exists ensured)
  simp only [opens, again, ensured]

/-- `Create` changes nothing about which files can be opened in its subfolder, and the subfolder
    is there when it was before or when `Create` returns. -/
theorem create_opens {name subFolderName : Path} (inFolder : subFolderName ≠ []) :
    (∀ fileName, opens host (create host fs name subFolderName).2 fileName subFolderName =
      opens host fs fileName subFolderName) ∧
    (fs.exists (join host.currentPath subFolderName) = true ∨
        (∃ writer, (create host fs name subFolderName).1 = .ok writer) →
      (create host fs name subFolderName).2.exists (join host.currentPath subFolderName) =
        true) := by
  unfold create
  rw [if_neg inFolder]
  cases ensured : ensureFolder host fs subFolderName with
  | none =>
    refine ⟨fun _ => rfl, ?_⟩
    rintro (there | ⟨_, ⟨⟩⟩)
    exact there
  | some fs' =>
    have there := ensureFolder_exists ensured
    have grown := @openFile_grown host fs' (pathIn host subFolderName name)
    refine ⟨?_, ?_⟩
    · intro fileName
      rw [← opens_of_ensured ensured]
      exact opens_of_grown grown there fileName
    · intro _
      exact grown.exists there

/-- `Create` returns or throws. -/
theorem create_not_null (fileName subFolderName : Path) :
    (create host fs fileName subFolderName).1 ≠ .error .nullDereference := by
  have openFile_not_null : ∀ fs path, (openFile host fs path).1 ≠ .error .nullDereference := by
    intro fs path
    unfold openFile
    split
    · rintro ⟨⟩
    · split
      · rintro ⟨⟩
      · split <;> rintro ⟨⟩
  unfold create
  split
  · exact openFile_not_null _ _
  · split
    · exact openFile_not_null _ _
    · rintro ⟨⟩

end FileDataWriter

end FileTransfer
