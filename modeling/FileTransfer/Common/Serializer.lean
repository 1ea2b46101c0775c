import FileTransfer.Common.Encryption
import FileTransfer.Lib.LittleEndian

/-!
# The frame format

`Serializer::Pack` and `Serializer::Unpack` (`Serializer.h:28`). A frame is the type, the IV,
the size of the payload in four bytes as the host stores them, and the encrypted payload.
-/

namespace FileTransfer

/-- `DataType` (`DataType.h:5`). Any byte is a value of the enumeration; three have names. -/
structure DataType where
  value : UInt8
  deriving DecidableEq

namespace DataType

def empty : DataType := ⟨0⟩

def typeFileName : DataType := ⟨1⟩

def typeFileData : DataType := ⟨2⟩

end DataType

/-- The ways in which a call does not return. -/
inductive Fault where
  | invalidArgument (what : List UInt8)
  | runtimeError (what : List UInt8)
  /-- `std::filesystem::filesystem_error`. -/
  | filesystemError (path : List UInt8)
  /-- A call through a null pointer. -/
  | nullDereference
  deriving DecidableEq

/-- `uint32Size`. -/
def uint32Size : Nat := 4

/-- `Serializer` (`Serializer.h:10`), with the shared encryption object passed to its
    functions. -/
structure Serializer where
  type : DataType
  buffer : List UInt8
  ciphr : List UInt8
  deriving DecidableEq

namespace Serializer

/-- `headerSize` (`Serializer.h:14`). -/
def headerSize : Nat := 1 + blockSize + uint32Size

/-- The constructor (`Serializer.h:25`). -/
def create (type : DataType) : Serializer := { type, buffer := [], ciphr := [] }

/-- `Pack` (`Serializer.h:28`). -/
def pack (keystream : Keystream) (s : Serializer) (e : Encryption) (data : List UInt8) :
    List UInt8 × Serializer × Encryption :=
  if data = [] then ([], { s with buffer := [], ciphr := [] }, e)
  else
    let (ciphr, e) := e.encrypt keystream data
    let buffer :=
      s.type.value :: e.iv.toList ++ LittleEndian.encode uint32Size ciphr.length ++ ciphr
    (buffer, { s with buffer, ciphr }, e)

/-- The fields of the header as `Unpack` reads them. -/
def typeOf (data : List UInt8) : DataType := ⟨data.headD 0⟩

def ivOf (data : List UInt8) : List UInt8 := (data.drop 1).take blockSize

def dataSizeOf (data : List UInt8) : Nat :=
  LittleEndian.decode ((data.drop (1 + blockSize)).take uint32Size)

/-- `Unpack` (`Serializer.h:58`). -/
def unpack (keystream : Keystream) (s : Serializer) (e : Encryption) (data : List UInt8) :
    Except Fault (List UInt8) × Serializer × Encryption :=
  let s := { s with buffer := [] }
  if data = [] ∨ data.length < headerSize then (.ok [], s, e)
  else
    let s := { s with type := typeOf data }
    if dataSizeOf data > data.length - headerSize then
      (.error (.invalidArgument (ascii "Error: Data size exceeds the available data.")), s, e)
    else
      let (buffer, e) := e.decrypt keystream (dataSizeOf data) (data.drop headerSize) (ivOf data)
      (.ok buffer, { s with buffer }, e)

/-- The frame of a payload under a given IV. -/
def frame (keystream : Keystream) (type : DataType) (iv : Vector UInt8 blockSize)
    (data : List UInt8) : List UInt8 :=
  type.value :: iv.toList ++ LittleEndian.encode uint32Size data.length ++
    StreamCipher.mask (keystream defaultCryptoKey iv.toList) 0 data

/-- The payload that `Unpack` recovers, when it gets so far. -/
def payloadOf (keystream : Keystream) (data : List UInt8) : List UInt8 :=
  StreamCipher.mask (keystream defaultCryptoKey (ivOf data)) 0
    ((data.drop headerSize).take (dataSizeOf data))

/-- There is a header and it announces a payload that is there. -/
def wellSized (data : List UInt8) : Prop :=
  headerSize ≤ data.length ∧ dataSizeOf data ≤ data.length - headerSize

instance (data : List UInt8) : Decidable (wellSized data) := inferInstanceAs (Decidable (_ ∧ _))

variable {keystream : Keystream} {s : Serializer} {e : Encryption} {data : List UInt8}

theorem pack_nil : s.pack keystream e [] = ([], { s with buffer := [], ciphr := [] }, e) := rfl

/-- A packed payload is a frame, whatever was packed before. -/
theorem pack_fst (filled : data ≠ []) :
    (s.pack keystream e data).1 = frame keystream s.type (e.entropy 0) data := by
  have cipher := e.encrypt_fst keystream data
  simp only [pack, if_neg filled, cipher, StreamCipher.length_mask]
  rfl

theorem pack_type : (s.pack keystream e data).2.1.type = s.type := by
  unfold pack
  split <;> rfl

theorem length_frame (type : DataType) (iv : Vector UInt8 blockSize) :
    (frame keystream type iv data).length = headerSize + data.length := by
  simp only [frame, List.length_append, List.length_cons, Vector.length_toList,
    LittleEndian.length_encode, StreamCipher.length_mask, headerSize]
  omega

theorem unpack_short (short : ¬ headerSize ≤ data.length) :
    s.unpack keystream e data = (.ok [], { s with buffer := [] }, e) := by
  simp only [unpack, if_pos (Or.inr (Nat.lt_of_not_le short))]

theorem not_short (long : headerSize ≤ data.length) :
    ¬ (data = [] ∨ data.length < headerSize) := by
  rintro (rfl | short)
  · exact absurd long (by decide)
  · exact absurd long (Nat.not_le_of_lt short)

theorem unpack_oversized (long : headerSize ≤ data.length)
    (oversized : ¬ dataSizeOf data ≤ data.length - headerSize) :
    s.unpack keystream e data =
      (.error (.invalidArgument (ascii "Error: Data size exceeds the available data.")),
        { s with buffer := [], type := typeOf data }, e) := by
  have oversized' : dataSizeOf data > data.length - headerSize := Nat.lt_of_not_le oversized
  simp only [unpack, if_neg (not_short long), if_pos oversized']

theorem unpack_wellSized (fits : wellSized data) :
    (s.unpack keystream e data).1 = .ok (payloadOf keystream data) ∧
      (s.unpack keystream e data).2.1.type = typeOf data := by
  have within : ¬ dataSizeOf data > data.length - headerSize := Nat.not_lt_of_le fits.2
  simp only [unpack, if_neg (not_short fits.1), if_neg within, Encryption.decrypt_fst]
  exact ⟨rfl, trivial⟩

/-- What `Unpack` returns and keeps does not depend on what the encryption object was used for
    before. -/
theorem unpack_congr (s : Serializer) (e e' : Encryption) (data : List UInt8) :
    (s.unpack keystream e data).1 = (s.unpack keystream e' data).1 ∧
      (s.unpack keystream e data).2.1 = (s.unpack keystream e' data).2.1 := by
  unfold unpack
  split
  · exact ⟨rfl, rfl⟩
  · split
    · exact ⟨rfl, rfl⟩
    · simp only [Encryption.decrypt_fst, and_self]

/-- A payload comes with its announced size. -/
theorem length_payloadOf (fits : wellSized data) :
    (payloadOf keystream data).length = dataSizeOf data := by
  have within := fits.2
  rw [payloadOf, StreamCipher.length_mask, List.length_take, List.length_drop]
  exact Nat.min_eq_left within

theorem payloadOf_ne_nil (fits : wellSized data) (filled : 0 < dataSizeOf data) :
    payloadOf keystream data ≠ [] := by
  rw [← List.length_pos_iff, length_payloadOf fits]
  exact filled

section Frame

variable {type : DataType} {iv : Vector UInt8 blockSize}

theorem typeOf_frame : typeOf (frame keystream type iv data) = type := rfl

theorem ivOf_frame : ivOf (frame keystream type iv data) = iv.toList := by
  simp only [ivOf, frame, List.cons_append, List.drop_succ_cons, List.drop_zero,
    List.append_assoc]
  exact List.take_left' Vector.length_toList

theorem dataSizeOf_frame (fits : data.length < 2 ^ 32) :
    dataSizeOf (frame keystream type iv data) = data.length := by
  have afterIv : (frame keystream type iv data).drop (1 + blockSize) =
      LittleEndian.encode uint32Size data.length ++
        StreamCipher.mask (keystream defaultCryptoKey iv.toList) 0 data := by
    simp only [frame, List.append_assoc]
    apply List.drop_left'
    rw [List.length_cons, Vector.length_toList, Nat.add_comm]
  rw [dataSizeOf, afterIv, List.take_left' (LittleEndian.length_encode _ _),
    LittleEndian.decode_encode (by simpa [uint32Size] using fits)]

theorem drop_frame : (frame keystream type iv data).drop headerSize =
    StreamCipher.mask (keystream defaultCryptoKey iv.toList) 0 data := by
  unfold frame
  apply List.drop_left'
  simp only [List.length_append, List.length_cons, Vector.length_toList,
    LittleEndian.length_encode, headerSize]
  omega

theorem wellSized_frame (fits : data.length < 2 ^ 32) :
    wellSized (frame keystream type iv data) := by
  rw [wellSized, dataSizeOf_frame fits, length_frame]
  omega

/-- Unpacking undoes packing. -/
theorem payloadOf_frame (fits : data.length < 2 ^ 32) :
    payloadOf keystream (frame keystream type iv data) = data := by
  rw [payloadOf, dataSizeOf_frame fits, drop_frame, ivOf_frame,
    List.take_of_length_le (by simp), StreamCipher.mask_mask]

end Frame

end Serializer

end FileTransfer
