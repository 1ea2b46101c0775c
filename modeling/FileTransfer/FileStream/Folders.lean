import FileTransfer.FileStream.FileDataWriter

/-!
# What a writer touches

A `FileDataWriter` created for a subfolder looks at that folder and at what is in it, and at
nothing else, and so it is with what it changes: the name of the file loses its folders, and the
name of the subfolder has none.
-/

namespace FileTransfer

open Posix

/-- The folder, or something in it. -/
def InFolder (folder path : Path) : Prop :=
  path = folder ∨ ∃ rest, path = folder ++ separator :: rest

/-- The file systems have the same in the folder. -/
def AgreeIn (folder : Path) (fs fs' : FileSystem) : Prop :=
  ∀ path, InFolder folder path →
    fs.files path = fs'.files path ∧ fs.directories path = fs'.directories path

/-- The file systems have the same outside the folder. -/
def AgreeOutside (folder : Path) (fs fs' : FileSystem) : Prop :=
  ∀ path, ¬ InFolder folder path →
    fs.files path = fs'.files path ∧ fs.directories path = fs'.directories path

/-- A subfolder whose name is one component, in a working directory; no path has a NUL. -/
structure OneComponent (host : Host) (subFolderName : Path) : Prop where
  currentPath : 0 ∉ host.currentPath
  noNul : 0 ∉ subFolderName
  single : separator ∉ subFolderName
  proper : subFolderName ∉ [[], [46], [46, 46]]

variable {host : Host} {fs fs' : FileSystem} {folder sub : Path}

theorem AgreeIn.refl (fs : FileSystem) : AgreeIn folder fs fs := fun _ _ => ⟨rfl, rfl⟩

theorem AgreeIn.symm (h : AgreeIn folder fs fs') : AgreeIn folder fs' fs := by
  intro path inside
  exact ⟨(h path inside).1.symm, (h path inside).2.symm⟩

theorem AgreeIn.trans {fs'' : FileSystem} (h : AgreeIn folder fs fs')
    (h' : AgreeIn folder fs' fs'') : AgreeIn folder fs fs'' := by
  intro path inside
  exact ⟨(h path inside).1.trans (h' path inside).1, (h path inside).2.trans (h' path inside).2⟩

theorem AgreeOutside.refl (fs : FileSystem) : AgreeOutside folder fs fs := fun _ _ => ⟨rfl, rfl⟩

theorem AgreeOutside.trans {fs'' : FileSystem} (h : AgreeOutside folder fs fs')
    (h' : AgreeOutside folder fs' fs'') : AgreeOutside folder fs fs'' := by
  intro path outside
  exact ⟨(h path outside).1.trans (h' path outside).1,
    (h path outside).2.trans (h' path outside).2⟩

/-- What is changed in one folder is the same in another. -/
theorem AgreeOutside.agreeIn {other : Path} (h : AgreeOutside folder fs fs')
    (apart : ∀ path, InFolder other path → ¬ InFolder folder path) : AgreeIn other fs fs' :=
  fun path inside => h path (apart path inside)

/-- A file changed in both file systems alike. -/
theorem AgreeIn.update (h : AgreeIn folder fs fs') (path : Path) (content : List UInt8) :
    AgreeIn folder
      { fs with files := Function.update fs.files path (some content) }
      { fs' with files := Function.update fs'.files path (some content) } := by
  intro other inside
  refine ⟨?_, (h other inside).2⟩
  by_cases same : other = path
  · subst same
    simp only [Function.update_self]
  · simp only [Function.update_of_ne same]
    exact (h other inside).1

theorem AgreeOutside.update {path : Path} (inside : InFolder folder path)
    (content : List UInt8) :
    AgreeOutside folder fs
      { fs with files := Function.update fs.files path (some content) } := by
  intro other outside
  refine ⟨?_, rfl⟩
  have differs : other ≠ path := fun same => outside (same ▸ inside)
  simp only [Function.update_of_ne differs]

namespace OneComponent

theorem head (h : OneComponent host sub) : sub.head? ≠ some separator := by
  intro first
  exact h.single (List.mem_of_head? first)

theorem filename_eq (h : OneComponent host sub) : filename (join host.currentPath sub) = sub := by
  rw [join, if_neg h.head]
  by_cases trailing : filename host.currentPath = []
  · rw [if_pos trailing, filename_append h.single, trailing, List.nil_append]
  · rw [if_neg trailing, filename_append_separator h.single]

theorem folder_noNul (h : OneComponent host sub) : 0 ∉ join host.currentPath sub := by
  have parts : ∀ byte ∈ join host.currentPath sub,
      byte ∈ host.currentPath ∨ byte ∈ sub ∨ byte = separator := by
    intro byte member
    rw [join, if_neg h.head] at member
    split at member
    · rcases List.mem_append.mp member with before | after
      · exact Or.inl before
      · exact Or.inr (Or.inl after)
    · rcases List.mem_append.mp member with before | after
      · exact Or.inl before
      · rcases List.mem_cons.mp after with same | after
        · exact Or.inr (Or.inr same)
        · exact Or.inr (Or.inl after)
  intro nul
  rcases parts 0 nul with before | after | same
  · exact h.currentPath before
  · exact h.noNul after
  · cases same

theorem cString_folder (h : OneComponent host sub) :
    cString (join host.currentPath sub) = join host.currentPath sub :=
  cString_of_noNul h.folder_noNul

/-- The file is right in the folder, whatever folders its name had. -/
theorem pathIn_eq (h : OneComponent host sub) (name : Path) :
    FileDataWriter.pathIn host sub name =
      join host.currentPath sub ++ separator :: filename name := by
  have first : (filename name).head? ≠ some separator := by
    intro same
    exact separator_notMem_filename name (List.mem_of_head? same)
  have filled : filename (join host.currentPath sub) ≠ [] := by
    rw [h.filename_eq]
    intro empty
    exact h.proper (by simp [empty])
  rw [FileDataWriter.pathIn, join, if_neg first, if_neg filled]

theorem cString_pathIn (h : OneComponent host sub) (name : Path) :
    cString (FileDataWriter.pathIn host sub name) =
      join host.currentPath sub ++ separator :: cString (filename name) := by
  have cut : join host.currentPath sub ++ separator :: filename name =
      (join host.currentPath sub ++ [separator]) ++ filename name := by simp
  have noNul : 0 ∉ join host.currentPath sub ++ [separator] := by
    intro nul
    rcases List.mem_append.mp nul with before | after
    · exact h.folder_noNul before
    · exact absurd (List.mem_singleton.mp after) (by decide)
  rw [h.pathIn_eq, cut, cString_append noNul]
  simp

theorem inFolder (h : OneComponent host sub) (name : Path) :
    InFolder (join host.currentPath sub) (cString (FileDataWriter.pathIn host sub name)) :=
  Or.inr ⟨_, h.cString_pathIn name⟩

end OneComponent

namespace FileDataWriter

/-- `exists` for the subfolder looks only at its own name. -/
theorem exists_folder_congr (h : OneComponent host sub)
    (agree : AgreeIn (join host.currentPath sub) fs fs') :
    fs.exists (join host.currentPath sub) = fs'.exists (join host.currentPath sub) := by
  obtain ⟨files, directories⟩ := agree _ (Or.inl rfl)
  have proper : directoryOnly (join host.currentPath sub) = false := by
    rw [directoryOnly, h.filename_eq]
    exact decide_eq_false h.proper
  simp only [FileSystem.exists, FileSystem.isDirectory, h.cString_folder, files, directories,
    proper, Bool.false_and]

/-- `exists` for a file in the subfolder looks at the file and at the subfolder. -/
theorem exists_pathIn_congr (h : OneComponent host sub)
    (agree : AgreeIn (join host.currentPath sub) fs fs') (name : Path) :
    fs.exists (pathIn host sub name) = fs'.exists (pathIn host sub name) := by
  obtain ⟨files, directories⟩ := agree _ (h.inFolder name)
  have single : separator ∉ cString (filename name) := by
    intro member
    exact separator_notMem_filename name (mem_of_mem_cString member)
  have parent : folder (cString (pathIn host sub name)) = join host.currentPath sub := by
    rw [h.cString_pathIn, folder_append_separator single]
  simp only [FileSystem.exists, FileSystem.isDirectory, files, directories, parent,
    (agree _ (Or.inl rfl)).2]

theorem canOpen_congr (h : OneComponent host sub)
    (agree : AgreeIn (join host.currentPath sub) fs fs') (name : Path) :
    fs.canOpen host (pathIn host sub name) = fs'.canOpen host (pathIn host sub name) := by
  simp only [FileSystem.canOpen, (agree _ (h.inFolder name)).2]

/-- The check of the subfolder, from file systems that agree in it. -/
theorem ensureFolder_congr (h : OneComponent host sub)
    (agree : AgreeIn (join host.currentPath sub) fs fs') :
    (ensureFolder host fs sub = none ∧ ensureFolder host fs' sub = none) ∨
      ∃ gs gs', ensureFolder host fs sub = some gs ∧ ensureFolder host fs' sub = some gs' ∧
        AgreeIn (join host.currentPath sub) gs gs' := by
  have there := exists_folder_congr h agree
  simp only [ensureFolder]
  by_cases long : FileSystem.tooLong host (join host.currentPath sub) = true
  · rw [if_pos long, if_pos long]
    exact Or.inl ⟨rfl, rfl⟩
  · rw [if_neg long, if_neg long, ← there]
    by_cases found : fs.exists (join host.currentPath sub) = true
    · rw [if_pos found, if_pos found]
      exact Or.inr ⟨fs, fs', rfl, rfl, agree⟩
    · rw [if_neg found, if_neg found]
      simp only [FileSystem.createDirectory]
      by_cases permits : host.permits (cString (join host.currentPath sub)) = true
      · rw [if_pos permits, if_pos permits]
        refine Or.inr ⟨_, _, rfl, rfl, ?_⟩
        intro path inside
        refine ⟨(agree path inside).1, ?_⟩
        by_cases same : path = cString (join host.currentPath sub)
        · subst same
          simp only [Function.update_self]
        · simp only [Function.update_of_ne same]
          exact (agree path inside).2
      · rw [if_neg permits, if_neg permits]
        exact Or.inl ⟨rfl, rfl⟩

/-- Only the subfolder itself is created. -/
theorem ensureFolder_confined (h : OneComponent host sub) {gs : FileSystem}
    (ensured : ensureFolder host fs sub = some gs) :
    AgreeOutside (join host.currentPath sub) fs gs := by
  simp only [ensureFolder] at ensured
  split at ensured
  · cases ensured
  · split at ensured
    · cases ensured
      exact AgreeOutside.refl _
    · simp only [FileSystem.createDirectory] at ensured
      split at ensured
      · cases ensured
        intro path outside
        have differs : path ≠ cString (join host.currentPath sub) := by
          intro same
          exact outside (Or.inl (same.trans h.cString_folder))
        exact ⟨rfl, (Function.update_of_ne differs _ _).symm⟩
      · cases ensured

/-- The end of `Create`, from file systems that agree in the subfolder. -/
theorem openFile_congr (h : OneComponent host sub)
    (agree : AgreeIn (join host.currentPath sub) fs fs') (name : Path) :
    (openFile host fs (pathIn host sub name)).1 = (openFile host fs' (pathIn host sub name)).1 ∧
      AgreeIn (join host.currentPath sub) (openFile host fs (pathIn host sub name)).2
        (openFile host fs' (pathIn host sub name)).2 := by
  have can := canOpen_congr h agree name
  have there := exists_pathIn_congr h agree name
  unfold openFile FileSystem.openOutput
  rw [← can, ← there]
  by_cases opens : fs.canOpen host (pathIn host sub name) = true
  · simp only [if_pos opens]
    exact ⟨trivial, agree.update _ _⟩
  · simp only [if_neg opens]
    split
    · exact ⟨rfl, agree⟩
    · split
      · exact ⟨rfl, agree⟩
      · exact ⟨rfl, agree⟩

theorem openFile_confined (h : OneComponent host sub) (name : Path) :
    AgreeOutside (join host.currentPath sub) fs (openFile host fs (pathIn host sub name)).2 := by
  unfold openFile FileSystem.openOutput
  by_cases opens : fs.canOpen host (pathIn host sub name) = true
  · simp only [if_pos opens]
    exact AgreeOutside.update (h.inFolder name) _
  · simp only [if_neg opens]
    split
    · exact AgreeOutside.refl _
    · split <;> exact AgreeOutside.refl _

/-- `Create` gives the same from file systems that agree in its subfolder. -/
theorem create_congr (h : OneComponent host sub)
    (agree : AgreeIn (join host.currentPath sub) fs fs') (name : Path) :
    (create host fs name sub).1 = (create host fs' name sub).1 ∧
      AgreeIn (join host.currentPath sub) (create host fs name sub).2
        (create host fs' name sub).2 := by
  have named : sub ≠ [] := fun empty => h.proper (by simp [empty])
  rw [create, if_neg named, create, if_neg named]
  rcases ensureFolder_congr h agree with ⟨none, none'⟩ | ⟨gs, gs', some, some', agree'⟩
  · rw [none, none']
    exact ⟨rfl, agree⟩
  · rw [some, some']
    exact openFile_congr h agree' name

/-- `Create` changes nothing outside its subfolder, and its stream is in it. -/
theorem create_confined (h : OneComponent host sub) (name : Path) :
    AgreeOutside (join host.currentPath sub) fs (create host fs name sub).2 ∧
      ∀ writer, (create host fs name sub).1 = .ok writer →
        InFolder (join host.currentPath sub) writer.stream.path := by
  have named : sub ≠ [] := fun empty => h.proper (by simp [empty])
  rw [create, if_neg named]
  cases ensured : ensureFolder host fs sub with
  | none =>
    refine ⟨AgreeOutside.refl _, ?_⟩
    intro writer thrown
    cases thrown
  | some gs =>
    refine ⟨(ensureFolder_confined h ensured).trans (openFile_confined h name), ?_⟩
    intro writer opened
    simp only [openFile] at opened
    split at opened
    · cases opened
      exact h.inFolder name
    · split at opened
      · cases opened
      · split at opened <;> cases opened

/-- `Write` gives the same from file systems that agree in the folder of the stream. -/
theorem write_congr {w : FileDataWriter} (agree : AgreeIn folder fs fs')
    (inside : InFolder folder w.stream.path) (data : List UInt8) :
    (w.write fs data).1 = (w.write fs' data).1 ∧
      AgreeIn folder (w.write fs data).2 (w.write fs' data).2 := by
  unfold FileDataWriter.write
  by_cases empty : data = []
  · rw [if_pos empty, if_pos empty]
    exact ⟨rfl, agree⟩
  · rw [if_neg empty, if_neg empty]
    refine ⟨rfl, ?_⟩
    simp only [OfStream.write, (agree _ inside).1]
    exact agree.update _ _

theorem write_confined {w : FileDataWriter} (inside : InFolder folder w.stream.path)
    (data : List UInt8) : AgreeOutside folder fs (w.write fs data).2 := by
  unfold FileDataWriter.write
  by_cases empty : data = []
  · rw [if_pos empty]
    exact AgreeOutside.refl _
  · rw [if_neg empty]
    exact AgreeOutside.update inside _

end FileDataWriter

end FileTransfer
