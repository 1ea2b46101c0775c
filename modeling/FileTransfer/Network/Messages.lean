import FileTransfer.Network.DataHandler

/-!
# The order of messages

The peer decides which types of frames a handler gets, in which order. `dataWriter_` is set by
a name frame whose file can be opened, and by nothing else; `HandleFileData` goes through it
without a check.
-/

namespace FileTransfer

open Posix

namespace DataHandler

/-- Byte strings passed to `Write` one after the other, also after calls that threw, with what
    each call came to. -/
def writeEach (host : Host) (keystream : Keystream) :
    DataHandler → Shared → List (List UInt8) →
      List (Except Fault (DataType × List UInt8)) × DataHandler × Shared
  | h, sh, [] => ([], h, sh)
  | h, sh, data :: rest =>
    let called := write host keystream h sh data
    let others := writeEach host keystream called.2.1 called.2.2 rest
    (called.1 :: others.1, others.2)

/-- The chunk is a frame of this type, with a payload. -/
def carries (type : DataType) (data : List UInt8) : Prop :=
  Serializer.wellSized data ∧ 0 < Serializer.dataSizeOf data ∧ Serializer.typeOf data = type

/-- The chunk is a name frame, and the file it names can be opened. -/
def names (host : Host) (keystream : Keystream) (files : FileSystem) (id : Nat)
    (data : List UInt8) : Prop :=
  carries .typeFileName data ∧
    FileDataWriter.opens host files (Serializer.payloadOf keystream data) (clientFolder id) = true

instance (type : DataType) (data : List UInt8) : Decidable (carries type data) :=
  inferInstanceAs (Decidable (_ ∧ _ ∧ _))

instance (host : Host) (keystream : Keystream) (files : FileSystem) (id : Nat)
    (data : List UInt8) : Decidable (names host keystream files id data) :=
  inferInstanceAs (Decidable (_ ∧ _))

variable {host : Host} {keystream : Keystream} {h : DataHandler} {sh : Shared}
  {data : List UInt8} {id : Nat}

/-- A chunk without a payload makes the call throw, and only the serializer and the cipher
    change. -/
theorem write_of_no_payload
    (bad : ¬ (Serializer.wellSized data ∧ 0 < Serializer.dataSizeOf data)) :
    ∃ what serializer encryption, write host keystream h sh data =
      (.error (.invalidArgument what), { h with serializer }, { sh with encryption }) := by
  obtain ⟨what, serializer, encryption, thrown⟩ :=
    @receive_of_not_wellSized keystream h sh data bad
  refine ⟨what, serializer, encryption, ?_⟩
  simp only [write, thrown]

/-- A chunk with a payload is dispatched. -/
theorem write_of_payload (fits : Serializer.wellSized data)
    (filled : 0 < Serializer.dataSizeOf data) :
    ∃ serializer encryption, ∀ handled,
      dispatch host { h with serializer } { sh with encryption } (Serializer.typeOf data)
        (Serializer.payloadOf keystream data) = handled →
      write host keystream h sh data =
        (handled.1.map fun _ => (Serializer.typeOf data, Serializer.payloadOf keystream data),
          handled.2) := by
  obtain ⟨serializer, encryption, received⟩ :=
    @receive_of_wellSized keystream h sh data fits filled
  refine ⟨serializer, encryption, ?_⟩
  rintro ⟨result, h', sh'⟩ dispatched
  simp only [write, received, dispatched]
  cases result <;> rfl

/-- What a handler that started fresh over the files `start` keeps true: its own calls do not
    change which files can be opened for it, and an open writer has its folder. -/
structure Started (host : Host) (id : Nat) (start : FileSystem) (h : DataHandler)
    (files : FileSystem) : Prop where
  id_eq : h.id = id
  opens : ∀ name, FileDataWriter.opens host files name (clientFolder id) =
    FileDataWriter.opens host start name (clientFolder id)
  folder : h.dataWriter.isSome = true →
    files.exists (join host.currentPath (clientFolder id)) = true

theorem Started.create (start : FileSystem) : Started host id start (create id) start :=
  ⟨rfl, fun _ => rfl, by rintro ⟨⟩⟩

/-- A name frame sets the writer exactly when its file can be opened. -/
theorem handleFileName_step {start : FileSystem} {name : List UInt8}
    (started : Started host id start h sh.files) (nonempty : name ≠ []) :
    (handleFileName host h sh name).1 ≠ .error .nullDereference ∧
      Started host id start (handleFileName host h sh name).2.1
        (handleFileName host h sh name).2.2.files ∧
      ((handleFileName host h sh name).2.1.dataWriter.isSome = true ↔
        h.dataWriter.isSome = true ∨
          FileDataWriter.opens host start name (clientFolder id) = true) := by
  rcases started with ⟨rfl, opens, folder⟩
  have inFolder := clientFolder_ne_nil h.id
  have no_null := @FileDataWriter.create_not_null host sh.files name (clientFolder h.id)
  obtain ⟨kept, made⟩ := @FileDataWriter.create_opens host sh.files name _ inFolder
  have created_iff : (∃ writer, (FileDataWriter.create host sh.files name
      (clientFolder h.id)).1 = .ok writer) ↔
        FileDataWriter.opens host start name (clientFolder h.id) = true := by
    rw [← opens]
    cases can : FileDataWriter.opens host sh.files name (clientFolder h.id) with
    | true =>
      obtain ⟨writer, files, created, -⟩ := FileDataWriter.create_of_opens inFolder can
      simp [created]
    | false =>
      obtain ⟨fault, thrown⟩ := FileDataWriter.create_of_not_opens inFolder can
      simp [thrown]
  simp only [handleFileName, if_neg nonempty]
  revert no_null kept made created_iff
  rcases FileDataWriter.create host sh.files name (clientFolder h.id) with ⟨result, files⟩
  intro no_null kept made created_iff
  cases result with
  | ok writer =>
    refine ⟨by rintro ⟨⟩, ⟨rfl, ?_, fun _ => made (Or.inr ⟨writer, rfl⟩)⟩, ?_⟩
    · intro other
      rw [kept, opens]
    · exact iff_of_true rfl (Or.inr (created_iff.mp ⟨writer, rfl⟩))
  | error fault =>
    refine ⟨?_, ⟨rfl, ?_, fun open_ => made (Or.inl (folder open_))⟩, ?_⟩
    · intro null
      cases null
      exact no_null rfl
    · intro other
      rw [kept, opens]
    · have closed : ¬ FileDataWriter.opens host start name (clientFolder h.id) = true := by
        intro can
        rcases created_iff.mpr can with ⟨writer, ⟨⟩⟩
      exact (or_iff_left closed).symm

/-- A data frame goes through a null pointer exactly when no writer is set. -/
theorem handleFileData_step {start : FileSystem} {fileData : List UInt8}
    (started : Started host id start h sh.files) :
    ((handleFileData h sh fileData).1 = .error .nullDereference ↔ h.dataWriter = none) ∧
      Started host id start (handleFileData h sh fileData).2.1
        (handleFileData h sh fileData).2.2.files ∧
      ((handleFileData h sh fileData).2.1.dataWriter.isSome = true ↔
        h.dataWriter.isSome = true) := by
  rcases started with ⟨rfl, opens, folder⟩
  unfold handleFileData
  cases opened : h.dataWriter with
  | none => exact ⟨iff_of_true rfl rfl, ⟨rfl, opens, folder⟩, by simp [opened]⟩
  | some writer =>
    have there := folder (by rw [opened]; rfl)
    have grown := @FileDataWriter.write_grown sh.files writer fileData
    refine ⟨iff_of_false (by rintro ⟨⟩) (by rintro ⟨⟩), ⟨rfl, ?_, ?_⟩, iff_of_true rfl rfl⟩
    · intro name
      rw [FileDataWriter.opens_of_grown grown there, opens]
    · intro _
      exact grown.exists there

theorem dispatch_step {start : FileSystem} {type : DataType} {recovered : List UInt8}
    (started : Started host id start h sh.files) (nonempty : recovered ≠ []) :
    ((dispatch host h sh type recovered).1 = .error .nullDereference ↔
        type = .typeFileData ∧ h.dataWriter = none) ∧
      Started host id start (dispatch host h sh type recovered).2.1
        (dispatch host h sh type recovered).2.2.files ∧
      ((dispatch host h sh type recovered).2.1.dataWriter.isSome = true ↔
        h.dataWriter.isSome = true ∨ (type = .typeFileName ∧
          FileDataWriter.opens host start recovered (clientFolder id) = true)) := by
  unfold dispatch
  by_cases name : type = .typeFileName
  · subst name
    rw [if_pos rfl]
    obtain ⟨no_null, kept, set_⟩ := handleFileName_step started nonempty
    refine ⟨iff_of_false no_null (by rintro ⟨⟨⟩, -⟩), kept, ?_⟩
    rw [set_, eq_self, true_and]
  · rw [if_neg name]
    have unnamed : ¬ (type = .typeFileName ∧
        FileDataWriter.opens host start recovered (clientFolder id) = true) :=
      fun named => name named.1
    by_cases fileData : type = .typeFileData
    · rw [if_pos fileData, or_iff_left unnamed, and_iff_right fileData]
      exact handleFileData_step started
    · rw [if_neg fileData, or_iff_left unnamed]
      exact ⟨iff_of_false (by rintro ⟨⟩) fun bad => fileData bad.1, started, Iff.rfl⟩

/-- One call, whatever is passed to it. -/
theorem write_step {start : FileSystem} (started : Started host id start h sh.files) :
    ((write host keystream h sh data).1 = .error .nullDereference ↔
        carries .typeFileData data ∧ h.dataWriter = none) ∧
      Started host id start (write host keystream h sh data).2.1
        (write host keystream h sh data).2.2.files ∧
      ((write host keystream h sh data).2.1.dataWriter.isSome = true ↔
        h.dataWriter.isSome = true ∨ names host keystream start id data) := by
  by_cases payload : Serializer.wellSized data ∧ 0 < Serializer.dataSizeOf data
  · rcases payload with ⟨fits, filled⟩
    obtain ⟨serializer, encryption, wrote⟩ :=
      @write_of_payload host keystream h sh data fits filled
    have nonempty := @Serializer.payloadOf_ne_nil keystream data fits filled
    -- The handlers get a state that differs only in the serializer and the cipher.
    have started' : Started host id start { h with serializer }
        ({ sh with encryption } : Shared).files := ⟨started.id_eq, started.opens, started.folder⟩
    obtain ⟨null, kept, set_⟩ :=
      @dispatch_step host _ _ id start (Serializer.typeOf data) _ started' nonempty
    rw [wrote _ rfl]
    refine ⟨?_, kept, ?_⟩
    · rw [carries, and_iff_right fits, and_iff_right filled, ← null]
      cases (dispatch host { h with serializer } { sh with encryption } (Serializer.typeOf data)
        (Serializer.payloadOf keystream data)).1 with
      | error fault => simp only [Except.map, Except.error.injEq]
      | ok done => simp only [Except.map, reduceCtorEq]
    · rw [set_, names, carries, and_iff_right fits, and_iff_right filled]
  · obtain ⟨what, serializer, encryption, thrown⟩ :=
      @write_of_no_payload host keystream h sh data payload
    rw [thrown]
    refine ⟨iff_of_false (by rintro ⟨⟩) ?_, ⟨started.id_eq, started.opens, started.folder⟩, ?_⟩
    · rintro ⟨⟨fits, filled, -⟩, -⟩
      exact payload ⟨fits, filled⟩
    · refine (or_iff_left ?_).symm
      rintro ⟨⟨fits, filled, -⟩, -⟩
      exact payload ⟨fits, filled⟩

/-- Each data frame has a name frame before it whose file can be opened. -/
def namedFirst (host : Host) (keystream : Keystream) (files : FileSystem) (id : Nat)
    (chunks : List (List UInt8)) : Prop :=
  ∀ before data after, chunks = before ++ data :: after → carries .typeFileData data →
    ∃ name ∈ before, names host keystream files id name

/-- A whole run, from a handler that may have a writer already. -/
theorem writeEach_never_null {start : FileSystem} (chunks : List (List UInt8))
    (started : Started host id start h sh.files) :
    (∀ outcome ∈ (writeEach host keystream h sh chunks).1, outcome ≠ .error .nullDereference) ↔
      ∀ before data after, chunks = before ++ data :: after → carries .typeFileData data →
        h.dataWriter.isSome = true ∨ ∃ name ∈ before, names host keystream start id name := by
  induction chunks generalizing h sh with
  | nil => simp [writeEach]
  | cons first rest ih =>
    obtain ⟨null, kept, set_⟩ := @write_step host keystream h sh first id start started
    simp only [writeEach, List.forall_mem_cons, ih kept, set_, ne_eq, null]
    constructor
    · rintro ⟨now, later⟩ before data after split carried
      cases before with
      | nil =>
        obtain ⟨rfl, rfl⟩ := List.cons.inj split
        exact Or.inl (Option.isSome_iff_ne_none.mpr fun missing => now ⟨carried, missing⟩)
      | cons head before =>
        obtain ⟨rfl, rfl⟩ := List.cons.inj split
        rcases later before data after rfl carried with (set_ | named) | ⟨name, member, named⟩
        · exact Or.inl set_
        · exact Or.inr ⟨_, List.mem_cons_self, named⟩
        · exact Or.inr ⟨name, List.mem_cons_of_mem _ member, named⟩
    · intro order
      refine ⟨?_, ?_⟩
      · rintro ⟨carried, missing⟩
        rcases order [] first rest rfl carried with set_ | ⟨name, member, -⟩
        · rw [missing] at set_
          cases set_
        · cases member
      · intro before data after split carried
        rcases order (first :: before) data after (by rw [split]; rfl) carried with
          set_ | ⟨name, member, named⟩
        · exact Or.inl (Or.inl set_)
        · rcases List.mem_cons.mp member with rfl | member
          · exact Or.inl (Or.inr named)
          · exact Or.inr ⟨name, member, named⟩

/-- A fresh handler never goes through its null pointer exactly when every data frame it gets
    comes after a name frame whose file can be opened. -/
theorem never_null_iff_namedFirst (host : Host) (keystream : Keystream) (id : Nat) (sh : Shared)
    (chunks : List (List UInt8)) :
    (∀ outcome ∈ (writeEach host keystream (create id) sh chunks).1,
      outcome ≠ .error .nullDereference) ↔ namedFirst host keystream sh.files id chunks := by
  rw [writeEach_never_null chunks (Started.create sh.files)]
  simp only [create, Option.isSome_none, Bool.false_eq_true, false_or, namedFirst]

/-- A data frame, first of all. -/
theorem data_frame_first_null : ¬ ∀ (host : Host) (keystream : Keystream) (id : Nat)
    (sh : Shared) (chunks : List (List UInt8)),
    ∀ outcome ∈ (writeEach host keystream (create id) sh chunks).1,
      outcome ≠ .error .nullDereference := by
  intro always
  refine always (.permissive (ascii "/srv")) (fun _ _ _ => 7) 1
    { encryption := .create fun _ => .replicate 16 1, files := .empty }
    [Serializer.frame (fun _ _ _ => 7) .typeFileData (.replicate 16 2) [5]] _ ?_ rfl
  decide

end DataHandler

end FileTransfer
