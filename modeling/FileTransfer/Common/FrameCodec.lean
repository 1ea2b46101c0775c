import FileTransfer.Common.Serializer

/-!
# The frame format is a codec

`Unpack` undoes `Pack` and `Pack` undoes `Unpack`. The second direction needs to know which of
its exits `Unpack` took, and that it reads the chunk only where there is one; so `Unpack` is
written here once more, with every read of the source checked against the bounds of its span.
-/

namespace FileTransfer

/-- `std::span::subspan` with a count, and the reads of `memcpy`; `none` when they leave the
    span. -/
def subspan (span : List UInt8) (offset count : Nat) : Option (List UInt8) :=
  if offset + count ≤ span.length then some ((span.drop offset).take count) else none

theorem subspan_of_le {span : List UInt8} {offset count : Nat}
    (inside : offset + count ≤ span.length) :
    subspan span offset count = some ((span.drop offset).take count) :=
  if_pos inside

/-- `Decrypt` with its reads checked: `recovered.size()` bytes of the cipher text and the
    sixteen bytes of the IV. -/
def Encryption.decryptInside (keystream : Keystream) (e : Encryption) (size : Nat)
    (cipher iv : List UInt8) : Option (List UInt8 × Encryption) :=
  match subspan cipher 0 size, subspan iv 0 blockSize with
  | some _, some iv => some (e.decrypt keystream size cipher iv)
  | _, _ => none

namespace Serializer

/-- `getType` (`Serializer.h:82`). -/
def getType (s : Serializer) : DataType := s.type

/-- The ways in which `Unpack` ends. -/
inductive Unpacked where
  /-- `return {}` for a chunk without room for a header. -/
  | short
  /-- The throw for a size that exceeds what is there. -/
  | exceeds
  | payload (data : List UInt8)
  deriving DecidableEq

/-- What the caller sees of them. -/
def Unpacked.result : Unpacked → Except Fault (List UInt8)
  | .short => .ok []
  | .exceeds =>
    .error (.invalidArgument (ascii "Error: Data size exceeds the available data."))
  | .payload data => .ok data

/-- `Unpack` (`Serializer.h:58`) with its reads checked and its exits told apart. -/
def unpackInside (keystream : Keystream) (s : Serializer) (e : Encryption) (data : List UInt8) :
    Option (Unpacked × Serializer × Encryption) := do
  let s := { s with buffer := [] }
  if data = [] ∨ data.length < headerSize then return (.short, s, e)
  let first ← data[0]?
  let s := { s with type := ⟨first⟩ }
  let iv ← subspan data 1 blockSize
  let size ← subspan data (1 + blockSize) uint32Size
  let dataSize := LittleEndian.decode size
  if dataSize > data.length - headerSize then return (.exceeds, s, e)
  let cipher ← subspan data headerSize (data.length - headerSize)
  let (buffer, e) ← e.decryptInside keystream dataSize cipher iv
  return (.payload buffer, { s with buffer }, e)

variable {keystream : Keystream} {s : Serializer} {e : Encryption} {data : List UInt8}

theorem length_ivOf (long : headerSize ≤ data.length) : (ivOf data).length = blockSize := by
  rw [ivOf, List.length_take, List.length_drop]
  unfold headerSize at long
  omega

theorem decryptInside_eq {size : Nat} {cipher iv : List UInt8} (inside : size ≤ cipher.length)
    (block : iv.length = blockSize) :
    e.decryptInside keystream size cipher iv = some (e.decrypt keystream size cipher iv) := by
  have text := @subspan_of_le cipher 0 size (by omega)
  have nonce := @subspan_of_le iv 0 blockSize (by omega)
  have whole : (iv.drop 0).take blockSize = iv := List.take_of_length_le (Nat.le_of_eq block)
  simp only [Encryption.decryptInside, text, nonce, whole]

theorem unpackInside_short (short : ¬ headerSize ≤ data.length) :
    s.unpackInside keystream e data = some (.short, (s.unpack keystream e data).2) := by
  have outside : data = [] ∨ data.length < headerSize := Or.inr (Nat.lt_of_not_le short)
  rw [unpack_short short]
  simp only [unpackInside, if_pos outside]
  rfl

/-- The header is read inside a chunk that has one. -/
theorem unpackInside_header (long : headerSize ≤ data.length) :
    s.unpackInside keystream e data =
      if dataSizeOf data > data.length - headerSize then
        some (.exceeds, { s with buffer := [], type := typeOf data }, e)
      else
        (e.decryptInside keystream (dataSizeOf data) (data.drop headerSize) (ivOf data)).map
          fun recovered =>
            (.payload recovered.1, { s with buffer := recovered.1, type := typeOf data },
              recovered.2) := by
  have iv := @subspan_of_le data 1 blockSize
    (le_trans (by decide : 1 + blockSize ≤ headerSize) long)
  have size := @subspan_of_le data (1 + blockSize) uint32Size long
  have cipher := @subspan_of_le data headerSize (data.length - headerSize) (by omega)
  have rest : (data.drop headerSize).take (data.length - headerSize) = data.drop headerSize :=
    List.take_of_length_le (Nat.le_of_eq List.length_drop)
  have first : data[0]? = some (data.headD 0) := by
    cases data with
    | nil => exact absurd long (by decide)
    | cons byte bytes => rfl
  simp only [unpackInside, if_neg (not_short long), first, iv, size, cipher, rest]
  by_cases oversized : dataSizeOf data > data.length - headerSize
  · rw [if_pos oversized]
    exact if_pos oversized
  · rw [if_neg oversized]
    rw [Option.map_eq_bind]
    exact if_neg oversized

theorem unpackInside_exceeds (long : headerSize ≤ data.length)
    (oversized : ¬ dataSizeOf data ≤ data.length - headerSize) :
    s.unpackInside keystream e data = some (.exceeds, (s.unpack keystream e data).2) := by
  rw [unpackInside_header long, if_pos (Nat.lt_of_not_le oversized),
    unpack_oversized long oversized]

theorem unpackInside_wellSized (fits : wellSized data) :
    s.unpackInside keystream e data =
      some (.payload (payloadOf keystream data), (s.unpack keystream e data).2) := by
  have within : ¬ dataSizeOf data > data.length - headerSize := Nat.not_lt_of_le fits.2
  have inside : dataSizeOf data ≤ (data.drop headerSize).length := by
    rw [List.length_drop]
    exact fits.2
  rw [unpackInside_header fits.1, if_neg within, decryptInside_eq inside (length_ivOf fits.1)]
  simp only [Option.map_some, unpack, if_neg (not_short fits.1), if_neg within,
    Encryption.decrypt_fst]
  rfl

/-- No exit takes a read outside the chunk, and `unpack` is the same function without the
    checks. A payload is what a well-sized chunk, and only such a chunk, gives. -/
theorem unpackInside_eq (s : Serializer) (e : Encryption) (data : List UInt8) :
    ∃ exit, s.unpackInside keystream e data = some (exit, (s.unpack keystream e data).2) ∧
      (s.unpack keystream e data).1 = exit.result ∧
      ∀ p, exit = .payload p ↔ wellSized data ∧ p = payloadOf keystream data := by
  by_cases long : headerSize ≤ data.length
  · by_cases fits : dataSizeOf data ≤ data.length - headerSize
    · refine ⟨_, unpackInside_wellSized ⟨long, fits⟩, ?_, ?_⟩
      · exact (unpack_wellSized ⟨long, fits⟩).1
      · intro p
        rw [Unpacked.payload.injEq, eq_comm]
        exact (and_iff_right ⟨long, fits⟩).symm
    · refine ⟨_, unpackInside_exceeds long fits, ?_, ?_⟩
      · rw [unpack_oversized long fits, Unpacked.result]
      · intro p
        exact iff_of_false (by rintro ⟨⟩) fun sized => fits sized.1.2
  · refine ⟨_, unpackInside_short long, ?_, ?_⟩
    · rw [unpack_short long, Unpacked.result]
    · intro p
      exact iff_of_false (by rintro ⟨⟩) fun sized => long sized.1.1

/-- What follows the bytes read does not change them. -/
theorem take_drop_append {offset count : Nat} (inside : offset + count ≤ data.length)
    (rest : List UInt8) :
    ((data ++ rest).drop offset).take count = (data.drop offset).take count := by
  rw [List.drop_append_of_le_length (by omega)]
  apply List.take_append_of_le_length
  rw [List.length_drop]
  omega

/-- What follows a frame changes neither its type nor its payload. -/
theorem wellSized_append (fits : wellSized data) (rest : List UInt8) :
    wellSized (data ++ rest) ∧ typeOf (data ++ rest) = typeOf data ∧
      payloadOf keystream (data ++ rest) = payloadOf keystream data := by
  rcases fits with ⟨long, within⟩
  have size : dataSizeOf (data ++ rest) = dataSizeOf data := by
    rw [dataSizeOf, take_drop_append long, dataSizeOf]
  have iv : ivOf (data ++ rest) = ivOf data :=
    take_drop_append (le_trans (by decide : 1 + blockSize ≤ headerSize) long) rest
  have text : ((data ++ rest).drop headerSize).take (dataSizeOf data) =
      (data.drop headerSize).take (dataSizeOf data) := take_drop_append (by omega) rest
  refine ⟨⟨?_, ?_⟩, ?_, ?_⟩
  · rw [List.length_append]
    omega
  · rw [size, List.length_append]
    omega
  · cases data with
    | nil => exact absurd long (by decide)
    | cons byte bytes => rfl
  · rw [payloadOf, size, iv, text, payloadOf]

/-- A chunk cut at the borders of its fields. -/
theorem take_fields (long : headerSize ≤ data.length) (size : Nat) :
    data.take (headerSize + size) =
      (typeOf data).value :: ivOf data ++ (data.drop (1 + blockSize)).take uint32Size ++
        (data.drop headerSize).take size := by
  have first : data.take 1 = [(typeOf data).value] := by
    cases data with
    | nil => exact absurd long (by decide)
    | cons byte bytes => rfl
  rw [List.take_add, headerSize, List.take_add, List.take_add, first]
  rfl

/-- Packing undoes unpacking: a payload packed under the type and the IV that came with it
    gives the frame it was in. -/
theorem frame_payloadOf (fits : wellSized data) {iv : Vector UInt8 blockSize}
    (same : iv.toList = ivOf data) :
    frame keystream (typeOf data) iv (payloadOf keystream data) =
      data.take (headerSize + dataSizeOf data) := by
  have width : ((data.drop (1 + blockSize)).take uint32Size).length = uint32Size := by
    rw [List.length_take, List.length_drop]
    exact Nat.min_eq_left (Nat.le_sub_of_add_le' fits.1)
  have field := LittleEndian.encode_decode ((data.drop (1 + blockSize)).take uint32Size)
  rw [width] at field
  rw [take_fields fits.1, frame, length_payloadOf fits, same, payloadOf, StreamCipher.mask_mask,
    dataSizeOf, field]

/-- A packed payload comes back, whatever follows it and whatever the two encryption objects
    were used for before. -/
theorem unpack_pack (s s' : Serializer) (e e' : Encryption) (rest : List UInt8)
    (filled : data ≠ []) (fits : data.length < 2 ^ 32) :
    (s'.unpack keystream e' ((s.pack keystream e data).1 ++ rest)).1 = .ok data ∧
      (s'.unpack keystream e' ((s.pack keystream e data).1 ++ rest)).2.1.getType =
        s.getType := by
  rw [pack_fst filled]
  obtain ⟨sized, type, payload⟩ :=
    @wellSized_append keystream _ (@wellSized_frame keystream data s.type (e.entropy 0) fits) rest
  obtain ⟨returned, type'⟩ := @unpack_wellSized keystream s' e' _ sized
  refine ⟨?_, ?_⟩
  · rw [returned, payload, payloadOf_frame fits]
  · rw [getType, type', type, typeOf_frame, getType]

/-- An unpacked payload, packed again under the type and the IV it came with, gives the bytes
    it was read from. -/
theorem pack_payloadOf (fits : wellSized data) (filled : 0 < dataSizeOf data)
    (s : Serializer) (e : Encryption) (type : s.getType = typeOf data)
    (iv : (e.entropy 0).toList = ivOf data) :
    (s.pack keystream e (payloadOf keystream data)).1 =
      data.take (headerSize + dataSizeOf data) := by
  rw [pack_fst (payloadOf_ne_nil fits filled), show s.type = typeOf data from type,
    frame_payloadOf fits iv]

/-- The frame format is a codec in both directions, and decoding stays inside its chunk. The
    encryption objects are any objects of their class, so with any history of calls. -/
theorem frame_codec (keystream : Keystream) :
    (∀ (s s' : Serializer) (e e' : Encryption) (data rest : List UInt8),
      data ≠ [] → data.length < 2 ^ 32 →
      (s'.unpack keystream e' ((s.pack keystream e data).1 ++ rest)).1 = .ok data ∧
        (s'.unpack keystream e' ((s.pack keystream e data).1 ++ rest)).2.1.getType =
          s.getType) ∧
    ∀ (s : Serializer) (e : Encryption) (b : List UInt8),
      ∃ exit, s.unpackInside keystream e b = some (exit, (s.unpack keystream e b).2) ∧
        (s.unpack keystream e b).1 = exit.result ∧
        ((∃ p, exit = .payload p) ↔
          headerSize ≤ b.length ∧ dataSizeOf b ≤ b.length - headerSize) ∧
        ∀ p, exit = .payload p → p.length = dataSizeOf b ∧
          (0 < dataSizeOf b → ∀ (s' : Serializer) (e' : Encryption), s'.getType = typeOf b →
            (e'.entropy 0).toList = ivOf b →
            (s'.pack keystream e' p).1 = b.take (headerSize + dataSizeOf b)) := by
  refine ⟨fun s s' e e' data rest filled fits => unpack_pack s s' e e' rest filled fits, ?_⟩
  intro s e b
  obtain ⟨exit, inside, result, payload⟩ := @unpackInside_eq keystream s e b
  refine ⟨exit, inside, result, ⟨?_, ?_⟩, ?_⟩
  · rintro ⟨p, returned⟩
    exact ((payload p).mp returned).1
  · intro fits
    exact ⟨_, (payload _).mpr ⟨fits, rfl⟩⟩
  · intro p returned
    rcases (payload p).mp returned with ⟨fits, rfl⟩
    exact ⟨length_payloadOf fits, pack_payloadOf fits⟩

/-- Two bytes of file data, with a byte of the next frame behind them. -/
theorem frame_codec_small :
    ((Serializer.create .empty).unpack (fun _ _ _ => 7) (.create fun _ => .replicate 16 1)
        (((Serializer.create .typeFileData).pack (fun _ _ _ => 7)
          (.create fun _ => .replicate 16 2) [5, 6]).1 ++ [2])).1 = .ok [5, 6] :=
  ((frame_codec fun _ _ _ => 7).1 _ _ _ _ [5, 6] [2] (by decide) (by decide)).1

end Serializer

end FileTransfer
