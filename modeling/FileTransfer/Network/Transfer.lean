import FileTransfer.Network.Framing
import Mathlib.Data.List.TakeWhile

/-!
# Sending one file

`FileTransferTask::Run` (`FileTransferTask.h:21`): the name, then the data, each packed under
the same encryption object, as calls on the client's `IWriteDataAccess`. When each frame
arrives whole, the server ends with the file's bytes in the client's folder.
-/

namespace FileTransfer

open Posix

/-- An argument of the command line: it has no NUL byte. -/
structure Argument where
  bytes : List UInt8
  noNul : (0 : UInt8) ∉ bytes

theorem Argument.cString (a : Argument) : Posix.cString a.bytes = a.bytes := by
  apply List.takeWhile_eq_self_iff.mpr
  intro byte member
  simp only [decide_eq_true_eq]
  rintro rfl
  exact a.noNul member

/-- The spans passed to `Write`. -/
def Call.written : List Call → List (List UInt8)
  | [] => []
  | .write data :: calls => data :: written calls
  | .stop :: calls => written calls

theorem Call.written_callsFor (chunks : List (List UInt8)) :
    Call.written (FileDataTransferTask.callsFor chunks) = chunks := by
  induction chunks with
  | nil => rfl
  | cons chunk chunks ih =>
    simpa [FileDataTransferTask.callsFor, Call.written] using ih

/-- `FileNameTransferTask::Run` (`FileNameTransferTask.h:23`), for what its reader returns. -/
def FileNameTransferTask.calls (data : List UInt8) : List Call :=
  if data = [] then [] else [.write data]

/-- `FileTransferTask` with the readers that `ReaderFactory` gives it for one source
    (`ReaderFactory.h:54`). -/
structure FileTransferTask where
  nameReader : FileNameSegmentReader
  dataReader : FileDataSegmentReader
  encryption : Encryption

namespace FileTransferTask

/-- The readers of one source. -/
def create (host : Host) (fs : FileSystem) (source : Path)
    (entropy : Nat → Vector UInt8 blockSize) : Except Fault FileTransferTask :=
  match FileNameSegmentReader.create host fs source with
  | .error fault => .error fault
  | .ok nameReader =>
    match FileDataReader.open host fs source defaultChunkSize with
    | .error fault => .error fault
    | .ok reader =>
      .ok { nameReader, dataReader := .create reader, encryption := .create entropy }

/-- The task for a source with this content. -/
def forFile (source content : List UInt8) (entropy : Nat → Vector UInt8 blockSize) :
    FileTransferTask :=
  { nameReader := { filename := source, serializer := .create .typeFileName }
    dataReader := .create (.create content defaultChunkSize)
    encryption := .create entropy }

/-- `Run` (`FileTransferTask.h:21`): the calls it makes; `none` when the data loop has not
    ended after `fuel` reads. -/
def run (keystream : Keystream) (fuel : Nat) (task : FileTransferTask) : Option (List Call) :=
  let named := task.nameReader.read keystream task.encryption
  (FileDataTransferTask.loop (FileDataSegmentReader.read keystream) fuel
    (task.dataReader, named.2.2)).map fun (calls, _) =>
      FileNameTransferTask.calls named.1 ++ calls

variable {host : Host} {fs : FileSystem} {keystream : Keystream}

/-- A source that can be read gets its readers. -/
theorem create_of_openInput {source : Path} {content : List UInt8} (named : source ≠ [])
    (there : fs.openInput host source = some content) (entropy : Nat → Vector UInt8 blockSize) :
    create host fs source entropy = .ok (forFile source content entropy) := by
  obtain ⟨isThere, short⟩ := FileSystem.exists_of_openInput there
  simp only [create, FileNameSegmentReader.create, if_neg named, short, isThere, if_true,
    Bool.false_eq_true, if_false, FileDataReader.open, there, forFile]

/-- Running the task writes the frames of the name and of the file's chunks, then stops. -/
theorem run_create {source content : List UInt8} (named : source ≠ [])
    (entropy : Nat → Vector UInt8 blockSize) :
    ∃ chunks, run keystream (content.length + 1) (forFile source content entropy) =
        some (FileDataTransferTask.callsFor
          (framesOf keystream (.create entropy) source chunks)) ∧
      chunks.flatten = content ∧
      ∀ chunk ∈ chunks, chunk ≠ [] ∧ chunk.length ≤ defaultChunkSize := by
  obtain ⟨chunks, last, plain, whole, sizes⟩ :=
    FileDataReader.loop_create content defaultChunkSize (by decide)
  obtain ⟨last', frames⟩ := @FileDataSegmentReader.loop_read keystream _ _ _ _
    (Serializer.create .typeFileData)
    ((Serializer.create .typeFileName).pack keystream (.create entropy) source).2.2 plain
  have framed := @Serializer.pack_ne_nil keystream (Serializer.create .typeFileName)
    (.create entropy) _ named
  refine ⟨chunks, ?_, whole, sizes⟩
  simp only [run, forFile, FileNameSegmentReader.read, FileDataSegmentReader.create, frames,
    Option.map_some, FileNameTransferTask.calls, framed, if_false]
  rfl

end FileTransferTask

/-- For every source that can be read and every sequence of IVs: the readers are built, the
    task's loops end, and a fresh handler on a server that can open the target takes every
    frame, each as one chunk, and is left with exactly the source's bytes in the file of that
    name in the client's folder. -/
theorem transfer_reproduces_file (keystream : Keystream) (client server : Host)
    (fs : FileSystem) (source : Argument) (content : List UInt8)
    (entropy : Nat → Vector UInt8 blockSize) (id : Nat) (sh : Shared)
    (named : source.bytes ≠ []) (there : fs.openInput client source.bytes = some content)
    (opens : FileDataWriter.opens server sh.files source.bytes (DataHandler.clientFolder id) =
      true) :
    ∃ task calls dispatched h' sh', FileTransferTask.create client fs source.bytes entropy =
        .ok task ∧
      task.run keystream (content.length + 1) = some calls ∧
      (DataHandler.create id).writeAll server keystream sh (Call.written calls) =
        (.ok dispatched, h', sh') ∧
      sh'.files.contents (FileDataWriter.pathIn server (DataHandler.clientFolder id)
        source.bytes) = some content := by
  obtain ⟨chunks, ran, whole, sizes⟩ :=
    @FileTransferTask.run_create keystream source.bytes content named entropy
  have short : source.bytes.length < 2 ^ 32 := by
    have bound := FileSystem.length_lt_of_openInput there
    rw [source.cString] at bound
    exact bound
  have valid : ∀ chunk ∈ chunks, chunk ≠ [] ∧ chunk.length < 2 ^ 32 := by
    intro chunk member
    obtain ⟨filled, le⟩ := sizes chunk member
    exact ⟨filled, Nat.lt_of_le_of_lt le (by decide)⟩
  obtain ⟨h', sh', handled, stored⟩ := @writeAll_frames keystream server (.create entropy) _ _
    ⟨named, short⟩ valid (DataHandler.create id) sh opens
  refine ⟨_, _, payloadsOf source.bytes chunks, h', sh',
    FileTransferTask.create_of_openInput named there entropy, ran,
    ?_, ?_⟩
  · rw [Call.written_callsFor]
    exact handled
  · rw [← whole]
    exact stored

/-- A three-byte file that a server receives under `client_1`. -/
theorem transfer_reproduces_file_small :
    ∃ task calls dispatched h' sh', FileTransferTask.create (.permissive (ascii "/home"))
        (.single (ascii "d/a") [1, 2, 3]) (ascii "d/a") (fun _ => .replicate 16 2) = .ok task ∧
      task.run (fun _ _ _ => 7) 4 = some calls ∧
      (DataHandler.create 1).writeAll (.permissive (ascii "/srv")) (fun _ _ _ => 7)
        { encryption := .create fun _ => .replicate 16 1, files := .empty }
        (Call.written calls) = (.ok dispatched, h', sh') ∧
      sh'.files.contents (ascii "/srv/client_1/a") = some [1, 2, 3] :=
  transfer_reproduces_file _ _ _ _ ⟨ascii "d/a", by decide⟩ [1, 2, 3] _ 1 _ (by decide)
    (by decide) (by decide)

end FileTransfer
