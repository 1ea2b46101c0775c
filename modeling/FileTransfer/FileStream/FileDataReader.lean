import FileTransfer.Common.FileDataTransferTask
import FileTransfer.Common.Serializer
import FileTransfer.Lib.Posix

/-!
# Reading a file in chunks

`std::ifstream` as far as `FileDataReader` uses it, `FileDataReader::Read`
(`FileDataReader.h:59`) with its shrinking `chunkBuffer`, and the sending loop over it.
-/

namespace FileTransfer

/-- `config::DefaultChunkSize` (`Config.h:59`). -/
def defaultChunkSize : Nat := 4096

/-- `config::BufferSize` (`Config.h:61`). -/
def bufferSize : Nat := defaultChunkSize * 128

/-- An open `std::ifstream`: the bytes after the get position, and whether no error bit is
    set. -/
structure IfStream where
  remaining : List UInt8
  good : Bool
  deriving DecidableEq

/-- `std::ifstream::read`: the bytes delivered, `gcount` of them. A short read sets the
    end-of-file and failure bits, and a stream with a failure bit delivers nothing. -/
def IfStream.read (s : IfStream) (count : Nat) : List UInt8 × IfStream :=
  if s.good then
    (s.remaining.take count,
      { remaining := s.remaining.drop count, good := decide (count ≤ s.remaining.length) })
  else ([], s)

/-- `FileDataReader` (`FileDataReader.h:11`). -/
structure FileDataReader where
  stream : IfStream
  chunkBuffer : List UInt8
  deriving DecidableEq

namespace FileDataReader

/-- A reader on a stream that has just been opened. -/
def create (content : List UInt8) (chunkSize : Nat) : FileDataReader :=
  { stream := { remaining := content, good := true }
    chunkBuffer := List.replicate chunkSize 0 }

/-- `FileDataReader::Create` (`FileDataReader.h:35`). -/
def «open» (host : Posix.Host) (fs : Posix.FileSystem) (fileName : Posix.Path)
    (chunkSize : Nat) : Except Fault FileDataReader :=
  match fs.openInput host fileName with
  | some content => .ok (create content chunkSize)
  | none =>
    if Posix.FileSystem.tooLong host fileName then .error (.filesystemError fileName)
    else if fs.exists fileName then
      .error (.runtimeError (fileName ++ ascii " is failed to open."))
    else .error (.runtimeError (fileName ++ ascii " does not exist."))

/-- `FileDataReader::Read` (`FileDataReader.h:59`): a partial read still returns its bytes,
    and leaves `chunkBuffer` shrunk to them. -/
def read (r : FileDataReader) : List UInt8 × FileDataReader :=
  let (bytes, stream) := r.stream.read r.chunkBuffer.length
  let filled := bytes ++ r.chunkBuffer.drop bytes.length
  if stream.good = true ∨ 0 < bytes.length then
    let chunkBuffer := if bytes.length ≠ 0 then filled.take bytes.length else filled
    (chunkBuffer, { stream, chunkBuffer })
  else ([], { stream, chunkBuffer := filled })

variable {r : FileDataReader}

theorem read_more (good : r.stream.good = true) (room : 0 < r.chunkBuffer.length)
    (more : r.stream.remaining ≠ []) :
    r.read = (r.stream.remaining.take r.chunkBuffer.length,
      { stream :=
          { remaining := r.stream.remaining.drop r.chunkBuffer.length
            good := decide (r.chunkBuffer.length ≤ r.stream.remaining.length) }
        chunkBuffer := r.stream.remaining.take r.chunkBuffer.length }) := by
  have positive : 0 < r.stream.remaining.length := List.length_pos_iff.mpr more
  have some_bytes : 0 < (r.stream.remaining.take r.chunkBuffer.length).length := by
    rw [List.length_take]; omega
  have kept : ∀ l : List UInt8, (r.stream.remaining.take r.chunkBuffer.length ++ l).take
      (r.stream.remaining.take r.chunkBuffer.length).length =
        r.stream.remaining.take r.chunkBuffer.length := fun l => List.take_left ..
  simp only [read, IfStream.read, good, if_true]
  rw [if_pos (Or.inr some_bytes), if_pos (by omega), kept]

/-- At the end of the file `Read` returns the empty span, also when called again. -/
theorem read_end (none : r.stream.good = true → r.stream.remaining = [])
    (room : 0 < r.chunkBuffer.length) :
    ∃ r', r.read = ([], r') ∧ r'.stream.good = false ∧ 0 < r'.chunkBuffer.length := by
  unfold read IfStream.read
  by_cases good : r.stream.good = true
  · have short : ¬ r.chunkBuffer.length ≤ 0 := by omega
    simp [good, none good, short, room]
  · simp [good, room]

/-- A read does not see what comes after the bytes it asks for. -/
theorem read_append {buffered rest : List UInt8} (whole : r.stream.remaining = buffered ++ rest)
    (enough : r.chunkBuffer.length ≤ buffered.length ∨ rest = []) :
    let short := { r with stream := { r.stream with remaining := buffered } }
    r.read.1 = short.read.1 ∧ r.read.2.chunkBuffer = short.read.2.chunkBuffer ∧
      r.read.2.stream.good = short.read.2.stream.good ∧
      r.read.2.stream.remaining = short.read.2.stream.remaining ++ rest := by
  have stream : r.stream.read r.chunkBuffer.length =
      let short := IfStream.read { r.stream with remaining := buffered } r.chunkBuffer.length
      (short.1, { short.2 with remaining := short.2.remaining ++ rest }) := by
    unfold IfStream.read
    by_cases good : r.stream.good = true
    · rcases enough with enough | rfl
      · have more : r.chunkBuffer.length ≤ buffered.length + rest.length := by omega
        simp [good, whole, List.take_append_of_le_length enough,
          List.drop_append_of_le_length enough, enough, more]
      · simp [good, whole]
    · simp only [if_neg good, ← whole]
  simp only [read, stream]
  split
  · exact ⟨rfl, rfl, rfl, rfl⟩
  · exact ⟨rfl, rfl, rfl, rfl⟩

/-- A read takes nothing where there is nothing. -/
theorem read_remaining_nil (none : r.stream.remaining = []) : r.read.2.stream.remaining = [] := by
  unfold read IfStream.read
  by_cases good : r.stream.good = true
  · simp only [good, none, if_true]
    split <;> exact List.drop_nil
  · simp only [good, Bool.false_eq_true, if_false]
    split <;> exact none

/-- The chunks of a file: non-empty, of the chunk size but for the last, and its bytes in order. -/
structure Covers (chunkSize : Nat) (content : List UInt8) (chunks : List (List UInt8)) : Prop where
  whole : chunks.flatten = content
  filled : ∀ chunk ∈ chunks, chunk ≠ []
  bounded : ∀ chunk ∈ chunks, chunk.length ≤ chunkSize
  full : ∀ chunk ∈ chunks.dropLast, chunk.length = chunkSize

theorem Covers.nil (chunkSize : Nat) : Covers chunkSize [] [] := by
  refine ⟨rfl, ?_, ?_, ?_⟩
  · intro chunk member
    cases member
  · intro chunk member
    cases member
  · intro chunk member
    cases member

theorem Covers.last {chunkSize : Nat} {content : List UInt8} (filled : content ≠ [])
    (bounded : content.length ≤ chunkSize) : Covers chunkSize content [content] := by
  refine ⟨List.flatten_singleton, ?_, ?_, ?_⟩
  · intro chunk member
    rw [List.mem_singleton.mp member]
    exact filled
  · intro chunk member
    rw [List.mem_singleton.mp member]
    exact bounded
  · intro chunk member
    cases member

theorem Covers.cons {chunkSize : Nat} {content chunk : List UInt8} {chunks : List (List UInt8)}
    (positive : 0 < chunkSize) (size : chunk.length = chunkSize)
    (h : Covers chunkSize content chunks) :
    Covers chunkSize (chunk ++ content) (chunk :: chunks) := by
  refine ⟨by rw [List.flatten_cons, h.whole], ?_, ?_, ?_⟩
  · intro other member
    rcases List.mem_cons.mp member with rfl | later
    · exact List.length_pos_iff.mp (size ▸ positive)
    · exact h.filled other later
  · intro other member
    rcases List.mem_cons.mp member with rfl | later
    · exact size.le
    · exact h.bounded other later
  · intro other member
    cases chunks with
    | nil => cases member
    | cons next rest =>
      rcases List.mem_cons.mp member with rfl | later
      · exact size
      · exact h.full other later

/-- The file has been read to its end. -/
def Ended (r : FileDataReader) : Prop := r.stream.good = false ∧ 0 < r.chunkBuffer.length

/-- Once a read has come to the end, every later one returns the empty span. -/
theorem Ended.read (h : r.Ended) : r.read.1 = [] ∧ r.read.2.Ended := by
  obtain ⟨r', atEnd, good, room⟩ := read_end (fun good => by rw [h.1] at good; cases good) h.2
  rw [atEnd]
  exact ⟨rfl, good, room⟩

theorem Ended.reads (h : r.Ended) (n : Nat) : ((fun r => r.read.2)^[n] r).read.1 = [] := by
  induction n generalizing r with
  | zero => exact h.read.1
  | succ n ih =>
    rw [Function.iterate_succ_apply]
    exact ih h.read.2

/-- The loop over an open file ends, has handed over the chunks of the file, and leaves a reader
    at the end. The induction is on the bytes that are left: while a whole chunk is left, the
    buffer keeps its size. -/
theorem loop_read (good : r.stream.good = true) (room : 0 < r.chunkBuffer.length) :
    ∃ chunks last, (∀ fuel, r.stream.remaining.length < fuel →
        FileDataTransferTask.loop read fuel r =
          some (FileDataTransferTask.callsFor chunks, last)) ∧
      Covers r.chunkBuffer.length r.stream.remaining chunks ∧ last.Ended := by
  induction left : r.stream.remaining.length using Nat.strongRecOn generalizing r with
  | ind n ih =>
    by_cases none : r.stream.remaining = []
    · obtain ⟨last, atEnd, ended⟩ := read_end (fun _ => none) room
      refine ⟨[], last, ?_, by rw [none]; exact Covers.nil _, ended⟩
      intro fuel enough
      obtain ⟨fuel, rfl⟩ := Nat.exists_eq_succ_of_ne_zero (Nat.ne_zero_of_lt enough)
      simp [FileDataTransferTask.loop, atEnd, FileDataTransferTask.callsFor]
    · have positive : 0 < r.stream.remaining.length := List.length_pos_iff.mpr none
      have first := read_more good room none
      have filled : r.stream.remaining.take r.chunkBuffer.length ≠ [] := by
        rw [← List.length_pos_iff, List.length_take]
        omega
      -- What the loop does after a first chunk, from what it does over the rest.
      have loops : ∀ {chunks last bound},
          (∀ fuel, bound < fuel → FileDataTransferTask.loop read fuel r.read.2 =
            some (FileDataTransferTask.callsFor chunks, last)) →
          bound < r.stream.remaining.length → ∀ fuel, n < fuel →
          FileDataTransferTask.loop read fuel r =
            some (FileDataTransferTask.callsFor
              (r.stream.remaining.take r.chunkBuffer.length :: chunks), last) := by
        intro chunks last bound rest less fuel enough
        obtain ⟨fuel, rfl⟩ := Nat.exists_eq_succ_of_ne_zero (Nat.ne_zero_of_lt enough)
        have later := rest fuel (by omega)
        rw [first] at later
        simp only [FileDataTransferTask.loop, first, if_neg filled, later, Option.map_some]
        rfl
      by_cases whole : r.chunkBuffer.length ≤ r.stream.remaining.length
      · have size : (r.stream.remaining.take r.chunkBuffer.length).length =
            r.chunkBuffer.length := by
          rw [List.length_take]
          omega
        obtain ⟨chunks, last, rest, covers, ended⟩ :=
          @ih (r.stream.remaining.drop r.chunkBuffer.length).length
            (by rw [List.length_drop]; omega) r.read.2 (by simp [first, whole])
            (by simp only [first]; omega) (by rw [first])
        refine ⟨_ :: chunks, last, loops rest (by rw [List.length_drop]; omega), ?_, ended⟩
        have parts := List.take_append_drop r.chunkBuffer.length r.stream.remaining
        simp only [first, size] at covers
        rw [← parts]
        simpa only [parts] using Covers.cons room size covers
      · have short : r.stream.remaining.take r.chunkBuffer.length = r.stream.remaining :=
          List.take_of_length_le (by omega)
        obtain ⟨last, atEnd, ended⟩ := @read_end r.read.2 (by simp [first, whole])
          (by simp only [first]; exact List.length_pos_iff.mpr filled)
        refine ⟨[r.stream.remaining.take r.chunkBuffer.length], last, ?_, ?_, ended⟩
        · refine @loops [] last 0 ?_ positive
          intro fuel enough
          obtain ⟨fuel, rfl⟩ := Nat.exists_eq_succ_of_ne_zero (Nat.ne_zero_of_lt enough)
          simp [FileDataTransferTask.loop, atEnd, FileDataTransferTask.callsFor]
        · rw [short]
          exact Covers.last none (by omega)

/-- All reads of a whole file: one more than its bytes is enough fuel. -/
theorem loop_create (content : List UInt8) (chunkSize : Nat) (positive : 0 < chunkSize) :
    ∃ chunks last, FileDataTransferTask.loop read (content.length + 1) (create content chunkSize) =
        some (FileDataTransferTask.callsFor chunks, last) ∧
      chunks.flatten = content ∧ ∀ chunk ∈ chunks, chunk ≠ [] ∧ chunk.length ≤ chunkSize := by
  obtain ⟨chunks, last, loops, covers, -⟩ :=
    @loop_read (create content chunkSize) rfl (by simpa [create] using positive)
  simp only [create, List.length_replicate] at covers
  exact ⟨chunks, last, loops _ (Nat.lt_succ_self _), covers.whole,
    fun chunk member => ⟨covers.filled chunk member, covers.bounded chunk member⟩⟩

/-- For every file and every chunk size: the loop over `Read` ends, what it passes to `Write` are
    the chunks of the file, as in a run of the task in which nothing throws, and every `Read`
    after it returns the empty span. -/
theorem chunked_reading (content : List UInt8) (chunkSize : Nat) (positive : 1 ≤ chunkSize) :
    ∃ chunks last,
      (∀ fuel, content.length < fuel →
        FileDataTransferTask.loop read fuel (create content chunkSize) =
          some (FileDataTransferTask.callsFor chunks, last)) ∧
      Transition.run FileDataTransferTask.step (FileDataTransferTask.start true)
        (FileDataTransferTask.outcomesFor chunks) = some (.left none) ∧
      Covers chunkSize content chunks ∧
      ∀ n, ((fun r => r.read.2)^[n] last).read.1 = [] := by
  obtain ⟨chunks, last, loops, covers, ended⟩ :=
    @loop_read (create content chunkSize) rfl
      (by rw [create, List.length_replicate]; exact positive)
  simp only [create, List.length_replicate] at covers
  exact ⟨chunks, last, loops, FileDataTransferTask.run_outcomesFor covers.filled, covers,
    ended.reads⟩

/-- Two whole chunks, and nothing after them. -/
theorem chunked_reading_exact : ∃ chunks last,
    (∀ fuel, 4 < fuel → FileDataTransferTask.loop read fuel (create [1, 2, 3, 4] 2) =
        some (FileDataTransferTask.callsFor chunks, last)) ∧
      Covers 2 [1, 2, 3, 4] chunks ∧ ∀ n, ((fun r => r.read.2)^[n] last).read.1 = [] := by
  obtain ⟨chunks, last, loops, -, covers, ended⟩ := chunked_reading [1, 2, 3, 4] 2 (by decide)
  exact ⟨chunks, last, loops, covers, ended⟩

/-- A file shorter than a chunk is handed over in one piece. -/
theorem loop_short {content : List UInt8} {chunkSize : Nat} (filled : content ≠ [])
    (short : content.length < chunkSize) :
    ∃ last, FileDataTransferTask.loop read (content.length + 1) (create content chunkSize) =
      some (FileDataTransferTask.callsFor [content], last) := by
  have whole : content.take chunkSize = content := List.take_of_length_le (Nat.le_of_lt short)
  have first := @read_more (create content chunkSize) rfl (by simp [create]; omega) filled
  have late : decide (chunkSize ≤ content.length) = false := by simpa using short
  simp only [create, List.length_replicate, late, whole] at first
  obtain ⟨last, second, -⟩ := @read_end ⟨⟨content.drop chunkSize, false⟩, content⟩ (by simp)
    (List.length_pos_iff.mpr filled)
  obtain ⟨fuel, enough⟩ : ∃ fuel, content.length = fuel + 1 :=
    Nat.exists_eq_add_one.mpr (List.length_pos_iff.mpr filled)
  refine ⟨last, ?_⟩
  rw [enough, FileDataTransferTask.loop, create, first]
  simp [filled, FileDataTransferTask.loop, second, FileDataTransferTask.callsFor]

end FileDataReader

end FileTransfer
