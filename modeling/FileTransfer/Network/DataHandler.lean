import FileTransfer.FileStream.FileDataWriter

/-!
# What the server does with a chunk

`DataHandler::Write` (`DataHandler.h:39`) with its two handlers. All handlers of a server share
one encryption object and the file system. A call may return, throw, or go through the null
`dataWriter_`; whatever it does, it leaves a state behind.
-/

namespace FileTransfer

open Posix

/-- What the handlers of a server share. -/
structure Shared where
  encryption : Encryption
  files : FileSystem

/-- `DataHandler` (`DataHandler.h:13`). -/
structure DataHandler where
  id : Nat
  serializer : Serializer
  dataWriter : Option FileDataWriter

namespace DataHandler

/-- `Create` (`DataHandler.h:34`). -/
def create (id : Nat) : DataHandler :=
  { id, serializer := Serializer.create .empty, dataWriter := none }

/-- `"client_" + std::to_string(ID_)`. -/
def clientFolder (id : Nat) : Path := ascii ("client_" ++ toString id)

/-- `HandleFileName` (`DataHandler.h:63`). -/
def handleFileName (host : Host) (h : DataHandler) (sh : Shared) (fileName : List UInt8) :
    Except Fault Unit × DataHandler × Shared :=
  if fileName = [] then
    (.error (.invalidArgument (ascii "Error: File name cannot be empty.")), h, sh)
  else
    match FileDataWriter.create host sh.files fileName (clientFolder h.id) with
    | (.ok writer, files) => (.ok (), { h with dataWriter := some writer }, { sh with files })
    | (.error fault, files) => (.error fault, h, { sh with files })

/-- `HandleFileData` (`DataHandler.h:74`). -/
def handleFileData (h : DataHandler) (sh : Shared) (fileData : List UInt8) :
    Except Fault Unit × DataHandler × Shared :=
  match h.dataWriter with
  | none => (.error .nullDereference, h, sh)
  | some writer =>
    let (writer, files) := writer.write sh.files fileData
    (.ok (), { h with dataWriter := some writer }, { sh with files })

/-- `Write` up to its `switch`: the type and the payload. -/
def receive (keystream : Keystream) (h : DataHandler) (sh : Shared) (data : List UInt8) :
    Except Fault (DataType × List UInt8) × DataHandler × Shared :=
  match h.serializer.unpack keystream sh.encryption data with
  | (.error fault, serializer, encryption) =>
    (.error fault, { h with serializer }, { sh with encryption })
  | (.ok recovered, serializer, encryption) =>
    if recovered = [] then
      (.error (.invalidArgument (ascii "Error: Unpacking data failed.")), { h with serializer },
        { sh with encryption })
    else (.ok (serializer.type, recovered), { h with serializer }, { sh with encryption })

/-- The `switch` of `Write`. -/
def dispatch (host : Host) (h : DataHandler) (sh : Shared) (type : DataType)
    (recovered : List UInt8) : Except Fault Unit × DataHandler × Shared :=
  if type = .typeFileName then handleFileName host h sh recovered
  else if type = .typeFileData then handleFileData h sh recovered
  else (.ok (), h, sh)

/-- `Write` (`DataHandler.h:39`). The value returned is what was dispatched. -/
def write (host : Host) (keystream : Keystream) (h : DataHandler) (sh : Shared)
    (data : List UInt8) : Except Fault (DataType × List UInt8) × DataHandler × Shared :=
  match receive keystream h sh data with
  | (.error fault, h, sh) => (.error fault, h, sh)
  | (.ok (type, recovered), h, sh) =>
    match dispatch host h sh type recovered with
    | (.error fault, h, sh) => (.error fault, h, sh)
    | (.ok (), h, sh) => (.ok (type, recovered), h, sh)

/-- The handler of the type has what it needs. -/
def ready (host : Host) (h : DataHandler) (files : FileSystem) (type : DataType)
    (recovered : List UInt8) : Prop :=
  (type = .typeFileName →
    FileDataWriter.opens host files recovered (clientFolder h.id) = true) ∧
  (type = .typeFileData → h.dataWriter.isSome = true)

/-- The chunk is a frame with a payload whose handler has what it needs. -/
def accepts (host : Host) (keystream : Keystream) (h : DataHandler) (files : FileSystem)
    (data : List UInt8) : Prop :=
  Serializer.wellSized data ∧ 0 < Serializer.dataSizeOf data ∧
    ready host h files (Serializer.typeOf data) (Serializer.payloadOf keystream data)

instance (host : Host) (h : DataHandler) (files : FileSystem) (type : DataType)
    (recovered : List UInt8) : Decidable (ready host h files type recovered) :=
  inferInstanceAs (Decidable (_ ∧ _))

instance (host : Host) (keystream : Keystream) (h : DataHandler) (files : FileSystem)
    (data : List UInt8) : Decidable (accepts host keystream h files data) :=
  inferInstanceAs (Decidable (_ ∧ _ ∧ _))

variable {host : Host} {keystream : Keystream} {h : DataHandler} {sh : Shared}
  {data recovered : List UInt8} {type : DataType}

theorem clientFolder_ne_nil (id : Nat) : clientFolder id ≠ [] := by
  simp [clientFolder, ascii, String.toList_append]

/-- A chunk with a payload is received, and only the serializer and the cipher change. -/
theorem receive_of_wellSized (fits : Serializer.wellSized data)
    (filled : 0 < Serializer.dataSizeOf data) :
    ∃ serializer encryption, receive keystream h sh data =
      (.ok (Serializer.typeOf data, Serializer.payloadOf keystream data), { h with serializer },
        { sh with encryption }) := by
  obtain ⟨payload, type⟩ := @Serializer.unpack_wellSized keystream h.serializer sh.encryption
    data fits
  have nonempty := @Serializer.payloadOf_ne_nil keystream data fits filled
  unfold receive
  revert payload type
  cases h.serializer.unpack keystream sh.encryption data with
  | mk result rest =>
    rintro rfl type
    simp only [if_neg nonempty]
    rw [show rest.1.type = Serializer.typeOf data from type]
    exact ⟨_, _, rfl⟩

/-- A chunk that is not a frame, or a frame without payload, is not received, and only the
    serializer and the cipher change. -/
theorem receive_of_not_wellSized
    (bad : ¬ (Serializer.wellSized data ∧ 0 < Serializer.dataSizeOf data)) :
    ∃ what serializer encryption, receive keystream h sh data =
      (.error (.invalidArgument what), { h with serializer }, { sh with encryption }) := by
  by_cases long : Serializer.headerSize ≤ data.length
  · by_cases fits : Serializer.dataSizeOf data ≤ data.length - Serializer.headerSize
    · obtain ⟨payload, -⟩ := @Serializer.unpack_wellSized keystream h.serializer sh.encryption
        data ⟨long, fits⟩
      have zero : Serializer.dataSizeOf data = 0 :=
        Nat.eq_zero_of_not_pos fun filled => bad ⟨⟨long, fits⟩, filled⟩
      have empty : Serializer.payloadOf keystream data = [] := by
        rw [← List.length_eq_zero_iff, Serializer.length_payloadOf ⟨long, fits⟩, zero]
      unfold receive
      revert payload
      cases h.serializer.unpack keystream sh.encryption data with
      | mk result rest =>
        rintro rfl
        simp only [empty, if_true]
        exact ⟨_, _, _, rfl⟩
    · simp only [receive, Serializer.unpack_oversized long fits]
      exact ⟨_, _, sh.encryption, rfl⟩
  · simp only [receive, Serializer.unpack_short long, if_true]
    exact ⟨_, _, sh.encryption, rfl⟩

/-- A dispatched payload is handled exactly when its handler has what it needs. -/
theorem dispatch_returns_iff (nonempty : recovered ≠ []) :
    (dispatch host h sh type recovered).1 = .ok () ↔ ready host h sh.files type recovered := by
  unfold dispatch ready
  by_cases name : type = .typeFileName
  · subst name
    simp only [if_true, handleFileName, if_neg nonempty]
    cases opens : FileDataWriter.opens host sh.files recovered (clientFolder h.id) with
    | true =>
      obtain ⟨writer, files, created, -⟩ :=
        FileDataWriter.create_of_opens (clientFolder_ne_nil h.id) opens
      simp [created, DataType.typeFileName, DataType.typeFileData]
    | false =>
      obtain ⟨fault, thrown⟩ :=
        FileDataWriter.create_of_not_opens (clientFolder_ne_nil h.id) opens
      revert thrown
      cases FileDataWriter.create host sh.files recovered (clientFolder h.id) with
      | mk result files =>
        rintro rfl
        simp
  · by_cases fileData : type = .typeFileData
    · subst fileData
      simp only [if_neg name, if_true, handleFileData]
      cases opened : h.dataWriter <;> simp [name]
    · simp [name, fileData]

/-- A call returns exactly when its chunk is accepted, and then dispatches what the chunk
    says. -/
theorem write_returns_iff (dispatched : DataType × List UInt8) :
    (write host keystream h sh data).1 = .ok dispatched ↔
      accepts host keystream h sh.files data ∧
        dispatched = (Serializer.typeOf data, Serializer.payloadOf keystream data) := by
  unfold write accepts
  by_cases fits : Serializer.wellSized data ∧ 0 < Serializer.dataSizeOf data
  · obtain ⟨serializer, encryption, received⟩ :=
      @receive_of_wellSized keystream h sh data fits.1 fits.2
    have handled := @dispatch_returns_iff host { h with serializer } { sh with encryption } _
      (Serializer.typeOf data) (@Serializer.payloadOf_ne_nil keystream data fits.1 fits.2)
    -- `ready` does not look at the serializer nor at the cipher.
    change _ ↔ ready host h sh.files _ _ at handled
    simp only [received, fits, true_and, ← handled]
    cases dispatch host { h with serializer } { sh with encryption } (Serializer.typeOf data)
        (Serializer.payloadOf keystream data) with
    | mk result rest =>
      cases result with
      | error fault => simp
      | ok done => simp [eq_comm]
  · obtain ⟨what, serializer, encryption, thrown⟩ :=
      @receive_of_not_wellSized keystream h sh data fits
    have rejected : ¬ (Serializer.wellSized data ∧ 0 < Serializer.dataSizeOf data ∧
        ready host h sh.files (Serializer.typeOf data)
          (Serializer.payloadOf keystream data)) := fun accepted =>
      fits ⟨accepted.1, accepted.2.1⟩
    simp [thrown, rejected]

/-- A file-name chunk opens its file, empty. -/
theorem write_fileName (fits : Serializer.wellSized data)
    (filled : 0 < Serializer.dataSizeOf data) (type : Serializer.typeOf data = .typeFileName)
    (opens : FileDataWriter.opens host sh.files (Serializer.payloadOf keystream data)
      (clientFolder h.id) = true) :
    ∃ serializer encryption writer files, write host keystream h sh data =
        (.ok (.typeFileName, Serializer.payloadOf keystream data),
          { h with serializer, dataWriter := some writer }, { encryption, files }) ∧
      writer.Holds files [] ∧ writer.stream.path = cString (FileDataWriter.pathIn host
        (clientFolder h.id) (Serializer.payloadOf keystream data)) := by
  obtain ⟨serializer, encryption, received⟩ :=
    @receive_of_wellSized keystream h sh data fits filled
  obtain ⟨writer, files, created, holds, path⟩ :=
    FileDataWriter.create_of_opens (clientFolder_ne_nil h.id) opens
  refine ⟨serializer, encryption, writer, files, ?_, holds, path⟩
  simp only [write, received, type, dispatch, if_true, handleFileName,
    if_neg (Serializer.payloadOf_ne_nil fits filled), created]

/-- A file-data chunk goes to the open file. -/
theorem write_fileData (fits : Serializer.wellSized data)
    (filled : 0 < Serializer.dataSizeOf data) (type : Serializer.typeOf data = .typeFileData)
    {writer : FileDataWriter} (opened : h.dataWriter = some writer) :
    ∃ serializer encryption, write host keystream h sh data =
      (.ok (.typeFileData, Serializer.payloadOf keystream data),
        { h with
          serializer
          dataWriter := some (writer.write sh.files (Serializer.payloadOf keystream data)).1 },
        { encryption
          files := (writer.write sh.files (Serializer.payloadOf keystream data)).2 }) := by
  obtain ⟨serializer, encryption, received⟩ :=
    @receive_of_wellSized keystream h sh data fits filled
  refine ⟨serializer, encryption, ?_⟩
  simp only [write, received, type, dispatch, show DataType.typeFileData ≠ .typeFileName by decide,
    if_false, if_true, handleFileData, opened]

end DataHandler

end FileTransfer
