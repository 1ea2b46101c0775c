import FileTransfer.FileStream.FileDataReader

/-!
# Readers that return frames

`FileNameSegmentReader` returns the file's name as one frame, `FileDataSegmentReader` returns
each chunk of its file as a frame. Both pack under an encryption object that they share.
-/

namespace FileTransfer

open Posix

/-- `FileNameSegmentReader` (`FileNameSegmentReader.h:16`). -/
structure FileNameSegmentReader where
  filename : List UInt8
  serializer : Serializer

namespace FileNameSegmentReader

/-- The constructor (`FileNameSegmentReader.h:26`). -/
def create (host : Host) (fs : FileSystem) (fileName : Path) :
    Except Fault FileNameSegmentReader :=
  if fileName = [] then .error (.invalidArgument (ascii "Error: File name cannot be empty."))
  else if FileSystem.tooLong host fileName then .error (.filesystemError fileName)
  else if fs.exists fileName then
    .ok { filename := fileName, serializer := Serializer.create .typeFileName }
  else .error (.runtimeError (fileName ++ ascii " does not exist."))

/-- `Read` (`FileNameSegmentReader.h:58`). -/
def read (keystream : Keystream) (r : FileNameSegmentReader) (e : Encryption) :
    List UInt8 × FileNameSegmentReader × Encryption :=
  let packed := r.serializer.pack keystream e r.filename
  (packed.1, { r with serializer := packed.2.1 }, packed.2.2)

end FileNameSegmentReader

/-- `FileDataSegmentReader` (`FileDataSegmentReader.h:14`). -/
structure FileDataSegmentReader where
  reader : FileDataReader
  serializer : Serializer

namespace FileDataSegmentReader

/-- `Create` (`FileDataSegmentReader.h:38`). -/
def create (reader : FileDataReader) : FileDataSegmentReader :=
  { reader, serializer := Serializer.create .typeFileData }

/-- `Read` (`FileDataSegmentReader.h:47`), with the encryption object as part of the state. -/
def read (keystream : Keystream) (r : FileDataSegmentReader × Encryption) :
    List UInt8 × FileDataSegmentReader × Encryption :=
  let chunk := r.1.reader.read
  let packed := r.1.serializer.pack keystream r.2 chunk.1
  (packed.1, { reader := chunk.2, serializer := packed.2.1 }, packed.2.2)

end FileDataSegmentReader

namespace Serializer

/-- The frames of payloads packed one after the other. -/
def packAll (keystream : Keystream) : Serializer → Encryption → List (List UInt8) →
    List (List UInt8)
  | _, _, [] => []
  | s, e, data :: rest =>
    let packed := s.pack keystream e data
    packed.1 :: packAll keystream packed.2.1 packed.2.2 rest

theorem pack_ne_nil {keystream : Keystream} {s : Serializer} {e : Encryption}
    {data : List UInt8} (filled : data ≠ []) : (s.pack keystream e data).1 ≠ [] := by
  rw [pack_fst filled]
  exact List.cons_ne_nil _ _

end Serializer

/-- Reading in frames makes a `Write` for the frame of each chunk that plain reading would
    write. -/
theorem FileDataSegmentReader.loop_read {keystream : Keystream} {fuel : Nat} :
    ∀ {reader last : FileDataReader} {chunks : List (List UInt8)} (s : Serializer)
      (e : Encryption), FileDataTransferTask.loop FileDataReader.read fuel reader =
        some (FileDataTransferTask.callsFor chunks, last) →
      ∃ last', FileDataTransferTask.loop (FileDataSegmentReader.read keystream) fuel
          ({ reader, serializer := s }, e) =
        some (FileDataTransferTask.callsFor (s.packAll keystream e chunks), last') := by
  induction fuel with
  | zero => intro reader last chunks s e run; cases run
  | succ fuel ih =>
    intro reader last chunks s e run
    simp only [FileDataTransferTask.loop] at run ⊢
    split at run
    · -- The end of the file: packing the empty span gives the empty span.
      rename_i ended
      cases chunks with
      | nil =>
        simp only [FileDataSegmentReader.read, ended, Serializer.pack_nil, if_true]
        exact ⟨_, rfl⟩
      | cons chunk chunks => simp [FileDataTransferTask.callsFor] at run
    · rename_i filled
      obtain ⟨⟨calls, last'⟩, rest, same⟩ := Option.map_eq_some_iff.mp run
      cases chunks with
      | nil => simp [FileDataTransferTask.callsFor] at same
      | cons chunk chunks =>
        simp only [FileDataTransferTask.callsFor, List.map_cons, List.cons_append,
          Prod.mk.injEq, List.cons.injEq, Call.write.injEq] at same
        obtain ⟨⟨rfl, rfl⟩, rfl⟩ := same
        obtain ⟨last'', frames⟩ := ih (s.pack keystream e reader.read.1).2.1
          (s.pack keystream e reader.read.1).2.2 rest
        refine ⟨last'', ?_⟩
        simp only [FileDataSegmentReader.read, if_neg (Serializer.pack_ne_nil filled), frames]
        rfl

end FileTransfer
