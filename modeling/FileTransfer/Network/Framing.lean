import FileTransfer.FileStream.SegmentReaders
import FileTransfer.Network.DataHandler
import Mathlib.Data.List.Forall2

/-!
# Frames and chunks

`TCPConnection::Read` hands the bytes that one read of the socket returned to
`DataHandler::Write`, and `Unpack` keeps nothing between calls. So a chunk must be a whole
frame and nothing but a frame: the connection is handled correctly exactly when the reads
happen to cut the stream between the frames.
-/

namespace FileTransfer

open Posix

/-- The frames that a client sends for a file: the name under one serializer, the data under
    another, both over one encryption object. -/
def framesOf (keystream : Keystream) (e : Encryption) (name : List UInt8)
    (chunks : List (List UInt8)) : List (List UInt8) :=
  let packed := (Serializer.create .typeFileName).pack keystream e name
  packed.1 :: (Serializer.create .typeFileData).packAll keystream packed.2.2 chunks

/-- What the server is to dispatch for them. -/
def payloadsOf (name : List UInt8) (chunks : List (List UInt8)) :
    List (DataType × List UInt8) :=
  (.typeFileName, name) :: chunks.map fun chunk => (.typeFileData, chunk)

namespace DataHandler

/-- The chunks of one connection, as its completion handler passes them on
    (`TCPConnection.h:49`); the first one that throws ends the reading. -/
def writeAll (host : Host) (keystream : Keystream) :
    DataHandler → Shared → List (List UInt8) →
      Except Fault (List (DataType × List UInt8)) × DataHandler × Shared
  | h, sh, [] => (.ok [], h, sh)
  | h, sh, chunk :: chunks =>
    match write host keystream h sh chunk with
    | (.error fault, h, sh) => (.error fault, h, sh)
    | (.ok dispatched, h, sh) =>
      match writeAll host keystream h sh chunks with
      | (.error fault, h, sh) => (.error fault, h, sh)
      | (.ok rest, h, sh) => (.ok (dispatched :: rest), h, sh)

variable {host : Host} {keystream : Keystream} {h : DataHandler} {sh : Shared}

/-- The chunks are handled one by one. -/
theorem writeAll_cons {chunk : List UInt8} {chunks : List (List UInt8)}
    {dispatched : List (DataType × List UInt8)} :
    (writeAll host keystream h sh (chunk :: chunks)).1 = .ok dispatched ↔
      ∃ first rest, dispatched = first :: rest ∧
        (write host keystream h sh chunk).1 = .ok first ∧
        (writeAll host keystream (write host keystream h sh chunk).2.1
          (write host keystream h sh chunk).2.2 chunks).1 = .ok rest := by
  simp only [writeAll]
  obtain ⟨result, h', sh'⟩ := write host keystream h sh chunk
  cases result with
  | error fault => simp
  | ok first =>
    simp only
    obtain ⟨result, h'', sh''⟩ := writeAll host keystream h' sh' chunks
    cases result with
    | error fault => simp
    | ok rest => simp [eq_comm]

/-- Everything dispatched comes from a chunk of its own, header included. -/
theorem length_of_writeAll {chunks : List (List UInt8)} :
    ∀ {h : DataHandler} {sh : Shared} {dispatched : List (DataType × List UInt8)},
      (writeAll host keystream h sh chunks).1 = .ok dispatched →
        List.Forall₂ (fun chunk payload =>
          Serializer.headerSize + payload.2.length ≤ chunk.length) chunks dispatched := by
  induction chunks with
  | nil =>
    intro h sh dispatched handled
    obtain rfl : [] = dispatched := by simpa [writeAll] using handled
    exact .nil
  | cons chunk chunks ih =>
    intro h sh dispatched handled
    obtain ⟨first, rest, rfl, wrote, others⟩ := writeAll_cons.mp handled
    obtain ⟨⟨⟨long, fits⟩, -⟩, rfl⟩ := (write_returns_iff first).mp wrote
    refine .cons ?_ (ih others)
    simp only [Serializer.length_payloadOf ⟨long, fits⟩]
    omega

end DataHandler

/-- Pieces that are pointwise no longer than those of another cut of the same whole are the
    same pieces. -/
theorem cut_unique {α : Type*} {pieces pieces' : List (List α)}
    (longer : List.Forall₂ (fun piece piece' => piece'.length ≤ piece.length) pieces pieces')
    (whole : pieces.flatten = pieces'.flatten) : pieces = pieces' := by
  have total : ∀ {pieces pieces' : List (List α)},
      List.Forall₂ (fun piece piece' => piece'.length ≤ piece.length) pieces pieces' →
        pieces'.flatten.length ≤ pieces.flatten.length := by
    intro pieces pieces' longer
    induction longer with
    | nil => exact Nat.le_refl _
    | cons le _ ih => simp only [List.flatten_cons, List.length_append]; omega
  induction longer with
  | nil => rfl
  | cons le rest ih =>
    rename_i piece piece' pieces pieces'
    have lengths := congrArg List.length whole
    have more := total rest
    simp only [List.flatten_cons, List.length_append] at lengths whole
    obtain ⟨same, whole⟩ := List.append_inj whole (by omega)
    rw [same, ih whole]

section Frames

variable {keystream : Keystream}

theorem packAll_frames {chunks : List (List UInt8)} (filled : ∀ chunk ∈ chunks, chunk ≠ []) :
    ∀ {s : Serializer} {e : Encryption}, List.Forall₂ (fun frame chunk =>
      ∃ iv, frame = Serializer.frame keystream s.type iv chunk)
        (s.packAll keystream e chunks) chunks := by
  induction chunks with
  | nil => exact .nil
  | cons chunk chunks ih =>
    intro s e
    have rest := @ih (fun chunk member => filled chunk (by simp [member]))
      (s.pack keystream e chunk).2.1 (s.pack keystream e chunk).2.2
    rw [Serializer.pack_type] at rest
    exact .cons ⟨_, Serializer.pack_fst (filled chunk (by simp))⟩ rest

/-- Each frame is the frame of its payload. -/
theorem framesOf_payloadsOf (e : Encryption) {name : List UInt8} {chunks : List (List UInt8)}
    (named : name ≠ []) (filled : ∀ chunk ∈ chunks, chunk ≠ []) :
    List.Forall₂ (fun frame payload =>
        ∃ iv, frame = Serializer.frame keystream payload.1 iv payload.2)
      (framesOf keystream e name chunks) (payloadsOf name chunks) := by
  refine .cons ⟨_, Serializer.pack_fst named⟩ ?_
  rw [List.forall₂_map_right_iff]
  exact packAll_frames filled (s := Serializer.create .typeFileData)

theorem wellSized_of_frame {type : DataType} {iv : Vector UInt8 blockSize} {data : List UInt8}
    (filled : data ≠ []) (fits : data.length < 2 ^ 32) :
    Serializer.wellSized (Serializer.frame keystream type iv data) ∧
      0 < Serializer.dataSizeOf (Serializer.frame keystream type iv data) :=
  ⟨Serializer.wellSized_frame fits, by
    rw [Serializer.dataSizeOf_frame fits]; exact List.length_pos_iff.mpr filled⟩

variable {host : Host}

/-- Whole data frames are appended to the open file. -/
theorem writeAll_fileData {frames chunks : List (List UInt8)}
    (packed : List.Forall₂ (fun frame chunk =>
      ∃ iv, frame = Serializer.frame keystream .typeFileData iv chunk) frames chunks)
    (valid : ∀ chunk ∈ chunks, chunk ≠ [] ∧ chunk.length < 2 ^ 32) :
    ∀ {h : DataHandler} {sh : Shared} {writer : FileDataWriter} {content : List UInt8},
      h.dataWriter = some writer → writer.Holds sh.files content →
      ∃ (h' : DataHandler) (sh' : Shared) (writer' : FileDataWriter),
        h.writeAll host keystream sh frames =
          (.ok (chunks.map fun chunk => (.typeFileData, chunk)), h', sh') ∧
        writer'.Holds sh'.files (content ++ chunks.flatten) ∧
        writer'.stream.path = writer.stream.path := by
  induction packed with
  | nil =>
    intro h sh writer content _ holds
    exact ⟨h, sh, writer, rfl, by simpa using holds, rfl⟩
  | @cons _ chunk _ chunks frame _ ih =>
    intro h sh writer content opened holds
    obtain ⟨iv, rfl⟩ := frame
    obtain ⟨filled, fits⟩ := valid chunk (by simp)
    obtain ⟨sized, some_data⟩ := @wellSized_of_frame keystream .typeFileData iv _ filled fits
    obtain ⟨serializer, encryption, wrote⟩ := @DataHandler.write_fileData host keystream h sh _
      sized some_data Serializer.typeOf_frame _ opened
    rw [Serializer.payloadOf_frame fits] at wrote
    obtain ⟨h', sh', writer', rest, holds', path⟩ := @ih
      (fun chunk member => valid chunk (by simp [member]))
      { h with serializer, dataWriter := some (writer.write sh.files chunk).1 }
      { encryption, files := (writer.write sh.files chunk).2 } _ _ rfl (holds.write chunk)
    refine ⟨h', sh', writer', ?_, by simpa using holds', path.trans (writer.write_path chunk)⟩
    simp only [DataHandler.writeAll, wrote, rest, List.map_cons]

/-- The frames of a file, each handed over whole, leave its data in the client's folder. -/
theorem writeAll_frames (e : Encryption) {name : List UInt8} {chunks : List (List UInt8)}
    (named : name ≠ [] ∧ name.length < 2 ^ 32)
    (valid : ∀ chunk ∈ chunks, chunk ≠ [] ∧ chunk.length < 2 ^ 32) {h : DataHandler} {sh : Shared}
    (opens : FileDataWriter.opens host sh.files name (DataHandler.clientFolder h.id) = true) :
    ∃ (h' : DataHandler) (sh' : Shared),
      h.writeAll host keystream sh (framesOf keystream e name chunks) =
        (.ok (payloadsOf name chunks), h', sh') ∧
      sh'.files.contents (FileDataWriter.pathIn host (DataHandler.clientFolder h.id) name) =
        some chunks.flatten := by
  have packed := @framesOf_payloadsOf keystream e _ _ named.1 fun chunk member =>
    (valid chunk member).1
  unfold framesOf payloadsOf at packed ⊢
  cases packed with
  | cons frame frames =>
    obtain ⟨iv, frame⟩ := frame
    obtain ⟨sized, some_data⟩ :=
      @wellSized_of_frame keystream .typeFileName iv _ named.1 named.2
    obtain ⟨serializer, encryption, writer, files, wrote, holds, path⟩ :=
      @DataHandler.write_fileName host keystream h sh _ sized some_data Serializer.typeOf_frame
        (by rw [Serializer.payloadOf_frame named.2]; exact opens)
    rw [Serializer.payloadOf_frame named.2] at wrote path
    rw [List.forall₂_map_right_iff] at frames
    obtain ⟨h', sh', writer', rest, holds', path'⟩ := @writeAll_fileData keystream host _ _ frames
      valid { h with serializer, dataWriter := some writer } { encryption, files } writer [] rfl
      holds
    refine ⟨h', sh', ?_, ?_⟩
    · simp only [DataHandler.writeAll, frame, wrote, rest]
    · rw [FileSystem.contents, ← path, ← path', holds'.1, List.nil_append]

/-- A frame that fits the receive buffer has a payload that fits its length field. -/
theorem length_of_sized {frames : List (List UInt8)} {payloads : List (DataType × List UInt8)}
    (packed : List.Forall₂ (fun frame payload =>
      ∃ iv, frame = Serializer.frame keystream payload.1 iv payload.2) frames payloads)
    (sized : ∀ frame ∈ frames, frame.length ≤ bufferSize) :
    ∀ payload ∈ payloads, payload.2.length < 2 ^ 32 := by
  induction packed with
  | nil => simp
  | @cons frame payload _ _ packed _ ih =>
    obtain ⟨iv, rfl⟩ := packed
    have fits := sized _ List.mem_cons_self
    rw [Serializer.length_frame] at fits
    simp only [bufferSize, defaultChunkSize] at fits
    rintro payload' member
    rcases List.mem_cons.mp member with rfl | member
    · omega
    · exact ih (fun frame member => sized frame (by simp [member])) payload' member

/-- A stream that is handled correctly was cut between its frames. -/
theorem frames_of_handled (e : Encryption) {name : List UInt8} {datas chunks : List (List UInt8)}
    (named : name ≠ []) (filled : ∀ data ∈ datas, data ≠ []) {h : DataHandler} {sh : Shared}
    (cut : chunks.flatten = (framesOf keystream e name datas).flatten)
    (handled : (h.writeAll host keystream sh chunks).1 = .ok (payloadsOf name datas)) :
    chunks = framesOf keystream e name datas := by
  refine cut_unique ?_ cut
  have chunked := DataHandler.length_of_writeAll handled
  have framed := @framesOf_payloadsOf keystream e _ _ named filled
  revert chunked framed
  generalize framesOf keystream e name datas = frames
  generalize payloadsOf name datas = payloads
  clear cut handled
  intro chunked
  induction chunked generalizing frames with
  | nil => rintro ⟨⟩; exact .nil
  | cons le _ ih =>
    rintro (_ | ⟨⟨iv, rfl⟩, rest⟩)
    exact .cons (by rw [Serializer.length_frame]; exact le) (ih _ rest)

end Frames

/-- However the stream of one connection is cut into chunks, the server dispatches exactly the
    frames that were packed, and no chunk makes it throw, if and only if the chunks are the
    frames and the named file can be opened. -/
theorem handled_iff_chunks_are_frames (host : Host) (keystream : Keystream) (id : Nat)
    (e : Encryption) (sh : Shared) {name : List UInt8} {datas chunks : List (List UInt8)}
    (named : name ≠ []) (filled : ∀ data ∈ datas, data ≠ [])
    (cut : chunks.flatten = (framesOf keystream e name datas).flatten)
    (sized : ∀ chunk ∈ chunks, chunk ≠ [] ∧ chunk.length ≤ bufferSize) :
    ((DataHandler.create id).writeAll host keystream sh chunks).1 =
        .ok (payloadsOf name datas) ↔
      chunks = framesOf keystream e name datas ∧
        FileDataWriter.opens host sh.files name (DataHandler.clientFolder id) = true := by
  constructor
  · intro handled
    refine ⟨frames_of_handled e named filled cut handled, ?_⟩
    cases chunks with
    | nil => simp [DataHandler.writeAll, payloadsOf] at handled
    | cons chunk chunks =>
      obtain ⟨first, rest, split, wrote, -⟩ := DataHandler.writeAll_cons.mp handled
      obtain ⟨⟨-, -, ready, -⟩, dispatched⟩ := (DataHandler.write_returns_iff first).mp wrote
      simp only [payloadsOf, List.cons.injEq] at split
      obtain ⟨type, payload⟩ := Prod.mk.inj (split.1.trans dispatched)
      rw [← type, ← payload] at ready
      exact ready rfl
  · rintro ⟨rfl, opens⟩
    have packed := @framesOf_payloadsOf keystream e _ _ named filled
    have short := length_of_sized packed fun chunk member => (sized chunk member).2
    obtain ⟨h', sh', handled, -⟩ := @writeAll_frames keystream host e name datas
      ⟨named, short (.typeFileName, name) (by simp [payloadsOf])⟩
      (fun data member => ⟨filled data member, short (.typeFileData, data)
        (by simp [payloadsOf, member])⟩) (DataHandler.create id) sh opens
    rw [handled]

/-- A name frame and a data frame that arrive one by one. -/
theorem handled_iff_chunks_are_frames_small :
    ((DataHandler.create 1).writeAll (.permissive (ascii "/srv")) (fun _ _ _ => 7)
        { encryption := .create fun _ => .replicate 16 1, files := .empty }
        (framesOf (fun _ _ _ => 7) (.create fun _ => .replicate 16 2) (ascii "a") [[1, 2]])).1 =
      .ok (payloadsOf (ascii "a") [[1, 2]]) :=
  (handled_iff_chunks_are_frames _ _ 1 _ _ (by decide) (by decide) rfl (by decide)).mpr
    ⟨rfl, by decide⟩

/-- The same two frames in one chunk: the second is dropped with the rest of the chunk. -/
theorem coalesced_frames_dropped : ¬ ∀ host keystream id e sh name datas chunks,
    name ≠ [] → (∀ data ∈ datas, data ≠ []) →
    chunks.flatten = (framesOf keystream e name datas).flatten →
    (∀ chunk ∈ chunks, chunk ≠ [] ∧ chunk.length ≤ bufferSize) →
    FileDataWriter.opens host sh.files name (DataHandler.clientFolder id) = true →
    ((DataHandler.create id).writeAll host keystream sh chunks).1 =
      .ok (payloadsOf name datas) := by
  intro always
  have handled := always (.permissive (ascii "/srv")) (fun _ _ _ => 7) 1
    (.create fun _ => .replicate 16 2)
    { encryption := .create fun _ => .replicate 16 1, files := .empty } (ascii "a") [[1, 2]]
    [(framesOf (fun _ _ _ => 7) (.create fun _ => .replicate 16 2) (ascii "a") [[1, 2]]).flatten]
    (by decide) (by decide) (by simp) (by decide) (by decide)
  have chunked := frames_of_handled (.create fun _ => .replicate 16 2) (by decide) (by decide)
    (by simp) handled
  exact absurd (congrArg List.length chunked) (by decide)

end FileTransfer
