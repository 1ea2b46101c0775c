import Mathlib.Algebra.Group.Nat.Defs
import Mathlib.Logic.Function.Basic

/-!
# Paths, files and output streams

Paths after the POSIX grammar, as `std::filesystem::path` splits and joins them and as the
operating system reads them; a file system as the contents of its files and the set of its
directories; and an open output stream with its own write position.
-/

namespace Posix

abbrev Path := List UInt8

def separator : UInt8 := 47

/-- The operating system reads a name up to its first NUL. -/
def cString (path : Path) : Path := path.takeWhile (· ≠ 0)

/-- `path::filename`: what follows the last separator. -/
def filename (path : Path) : Path := (path.reverse.takeWhile (· ≠ separator)).reverse

/-- What comes before the last separator. -/
def folder (path : Path) : Path := ((path.reverse.dropWhile (· ≠ separator)).drop 1).reverse

/-- `path::operator/`. -/
def join (path next : Path) : Path :=
  if next.head? = some separator then next
  else if filename path = [] then path ++ next
  else path ++ separator :: next

/-- A last component that can only stand for a directory. -/
def directoryOnly (path : Path) : Bool := filename path ∈ [[], [46], [46, 46]]

theorem cString_append {path : Path} (noNul : 0 ∉ path) (rest : Path) :
    cString (path ++ rest) = path ++ cString rest := by
  apply List.takeWhile_append_of_pos
  intro byte member
  exact decide_eq_true fun nul => noNul (nul ▸ member)

theorem cString_of_noNul {path : Path} (noNul : 0 ∉ path) : cString path = path := by
  simpa [cString] using cString_append noNul []

theorem mem_of_mem_cString {path : Path} {byte : UInt8} (member : byte ∈ cString path) :
    byte ∈ path :=
  (List.takeWhile_prefix _).subset member

theorem mem_of_mem_filename {path : Path} {byte : UInt8} (member : byte ∈ filename path) :
    byte ∈ path :=
  List.mem_reverse.mp ((List.takeWhile_prefix _).subset (List.mem_reverse.mp member))

theorem separator_notMem_filename (path : Path) : separator ∉ filename path := by
  intro member
  have kept := List.all_takeWhile (l := path.reverse) (p := (· ≠ separator))
  have differs := List.all_eq_true.mp kept separator (List.mem_reverse.mp member)
  exact absurd rfl (of_decide_eq_true differs)

/-- A last component without a separator ends a path. -/
theorem takeWhile_reverse {component : Path} (single : separator ∉ component) (path : Path) :
    (path ++ component).reverse.takeWhile (· ≠ separator) =
      component.reverse ++ path.reverse.takeWhile (· ≠ separator) := by
  rw [List.reverse_append]
  apply List.takeWhile_append_of_pos
  intro byte member
  exact decide_eq_true fun same => single (same ▸ List.mem_reverse.mp member)

theorem filename_append {component : Path} (single : separator ∉ component) (path : Path) :
    filename (path ++ component) = filename path ++ component := by
  rw [filename, takeWhile_reverse single, List.reverse_append, List.reverse_reverse, filename]

theorem filename_append_separator {component : Path} (single : separator ∉ component)
    (path : Path) : filename (path ++ separator :: component) = component := by
  have cut : path ++ separator :: component = (path ++ [separator]) ++ component := by simp
  rw [cut, filename_append single]
  simp [filename]

theorem folder_append_separator {component : Path} (single : separator ∉ component)
    (path : Path) : folder (path ++ separator :: component) = path := by
  have skipped : (path ++ separator :: component).reverse.dropWhile (· ≠ separator) =
      separator :: path.reverse := by
    rw [List.reverse_append, List.reverse_cons, List.append_assoc]
    rw [List.dropWhile_append_of_pos]
    · simp
    · intro byte member
      exact decide_eq_true fun same => single (same ▸ List.mem_reverse.mp member)
  rw [folder, skipped, List.drop_succ_cons, List.drop_zero, List.reverse_reverse]

/-- What is fixed on a machine: the working directory, the names under which a file or a
    directory may be created or opened for output, and the names that are refused as too long, as a
    whole or in one of their components. -/
structure Host where
  currentPath : Path
  permits : Path → Bool
  refuses : Path → Bool
  refuses_long : ∀ name, 2 ^ 32 ≤ name.length → refuses name = true

/-- Whether some component is longer than `limit`; `length` is that of the one begun. -/
def longComponent (limit length : Nat) : Path → Bool
  | [] => limit < length
  | byte :: rest =>
    if byte = separator then limit < length || longComponent limit 0 rest
    else longComponent limit (length + 1) rest

/-- A machine that refuses no name but for its length. -/
def Host.permissive (currentPath : Path) : Host where
  currentPath := currentPath
  permits := fun _ => true
  refuses := fun name => 4096 ≤ name.length || longComponent 255 0 name
  refuses_long := by
    intro name long
    have whole : 4096 ≤ name.length := by omega
    simp only [whole, decide_true, Bool.true_or]

structure FileSystem where
  files : Path → Option (List UInt8)
  directories : Path → Bool

namespace FileSystem

def empty : FileSystem := { files := fun _ => none, directories := fun _ => false }

/-- One file and nothing else. -/
def single (path : Path) (content : List UInt8) : FileSystem :=
  { empty with files := fun name => if name = path then some content else none }

/-- The contents of the file that a name stands for. -/
def contents (fs : FileSystem) (path : Path) : Option (List UInt8) := fs.files (cString path)

/-- A name that the system refuses, so that `std::filesystem::exists` throws. -/
def tooLong (host : Host) (path : Path) : Bool := host.refuses (cString path)

/-- The name stands for a directory, also with a separator or a dot at its end. -/
def isDirectory (fs : FileSystem) (path : Path) : Bool :=
  let name := cString path
  fs.directories name || (directoryOnly name && fs.directories (folder name))

/-- `std::filesystem::exists` for a name that is not too long. -/
def «exists» (fs : FileSystem) (path : Path) : Bool :=
  (fs.files (cString path)).isSome || fs.isDirectory path

/-- `std::ifstream::open`: the bytes that reading will deliver. A directory opens, too, but
    delivers none. -/
def openInput (host : Host) (fs : FileSystem) (path : Path) : Option (List UInt8) :=
  let name := cString path
  if tooLong host path then none
  else if (fs.files name).isSome then fs.files name
  else if fs.isDirectory path then some []
  else none

/-- `std::filesystem::create_directory`; `none` when it throws. -/
def createDirectory (host : Host) (fs : FileSystem) (path : Path) : Option FileSystem :=
  let name := cString path
  if host.permits name then
    some { fs with directories := Function.update fs.directories name true }
  else none

/-- Whether `std::ofstream::open` succeeds. -/
def canOpen (host : Host) (fs : FileSystem) (path : Path) : Bool :=
  let name := cString path
  !tooLong host path && !directoryOnly name && !fs.directories name && host.permits name

/-- `std::ofstream::open` for binary output: the file is created, or emptied. -/
def openOutput (host : Host) (fs : FileSystem) (path : Path) : Option FileSystem :=
  if fs.canOpen host path then
    some { fs with files := Function.update fs.files (cString path) (some []) }
  else none

end FileSystem

/-- An open `std::ofstream`: the name it was opened under and its write position. -/
structure OfStream where
  path : Path
  position : Nat
  deriving DecidableEq

/-- Bytes written at a position: a gap is filled with zeros, what is there is overwritten. -/
def writeAt (content : List UInt8) (position : Nat) (data : List UInt8) : List UInt8 :=
  content.take position ++ List.replicate (position - content.length) 0 ++ data ++
    content.drop (position + data.length)

/-- `std::ofstream::write` followed by `flush`. -/
def OfStream.write (stream : OfStream) (fs : FileSystem) (data : List UInt8) :
    OfStream × FileSystem :=
  let content := (fs.files stream.path).getD []
  ({ stream with position := stream.position + data.length },
    { fs with
      files := Function.update fs.files stream.path (some (writeAt content stream.position data)) })

/-- What can be read exists, under a name that is not too long. -/
theorem FileSystem.exists_of_openInput {host : Host} {fs : FileSystem} {path : Path}
    {content : List UInt8} (h : fs.openInput host path = some content) :
    fs.exists path = true ∧ tooLong host path = false := by
  unfold openInput at h
  split at h
  · cases h
  · rename_i short
    refine ⟨?_, by simpa using short⟩
    simp only at h
    split at h
    · rename_i isFile; simp [FileSystem.exists, isFile]
    · split at h
      · rename_i isDirectory; simp [FileSystem.exists, isDirectory]
      · cases h

/-- What can be read has a name whose length is a 32-bit number. -/
theorem FileSystem.length_lt_of_openInput {host : Host} {fs : FileSystem} {path : Path}
    {content : List UInt8} (h : fs.openInput host path = some content) :
    (cString path).length < 2 ^ 32 := by
  by_contra long
  have refused := host.refuses_long (cString path) (Nat.le_of_not_lt long)
  have short := (exists_of_openInput h).2
  rw [tooLong, refused] at short
  cases short

/-- Writing at the end appends. -/
theorem writeAt_end (content data : List UInt8) :
    writeAt content content.length data = content ++ data := by
  simp [writeAt]

/-- Writing some bytes leaves some. -/
theorem writeAt_ne_nil {data : List UInt8} (filled : data ≠ []) (content : List UInt8)
    (position : Nat) : writeAt content position data ≠ [] := by
  simp [writeAt, filled]

theorem OfStream.write_of_ne {stream : OfStream} {path : Path} (other : path ≠ stream.path)
    (fs : FileSystem) (data : List UInt8) :
    (stream.write fs data).2.files path = fs.files path :=
  Function.update_of_ne other ..

theorem OfStream.write_self (stream : OfStream) (fs : FileSystem) (data : List UInt8) :
    (stream.write fs data).2.files stream.path =
      some (writeAt ((fs.files stream.path).getD []) stream.position data) :=
  Function.update_self ..

/-- The file system as names see it, where several names may lead to one file and `target` is the
    file behind a name. -/
def FileSystem.through (fs : FileSystem) (target : Path → Path) : FileSystem :=
  { files := fun name => fs.files (target name)
    directories := fun name => fs.directories (target name) }

/-- The stream is at the end of its file, which has this content. -/
def OfStream.AtEnd (stream : OfStream) (fs : FileSystem) (content : List UInt8) : Prop :=
  fs.files stream.path = some content ∧ stream.position = content.length

theorem OfStream.AtEnd.write {stream : OfStream} {fs : FileSystem} {content : List UInt8}
    (h : stream.AtEnd fs content) (data : List UInt8) :
    (stream.write fs data).1.AtEnd (stream.write fs data).2 (content ++ data) := by
  obtain ⟨content_eq, position_eq⟩ := h
  simp only [OfStream.write, content_eq, position_eq, Option.getD_some, writeAt_end]
  exact ⟨Function.update_self .., by simp⟩

end Posix
