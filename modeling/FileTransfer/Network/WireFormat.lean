import FileTransfer.Common.FrameCodec
import FileTransfer.Lib.PrefixCode
import FileTransfer.Network.Framing

/-!
# What the bytes of a connection determine

`Unpack` takes a chunk for a frame, but the format does not need that: the header of a frame says
how long it is, so that the bytes on the wire determine the frames, with their types and payloads,
whatever IVs have been drawn.
-/

namespace FileTransfer

open PrefixCode

namespace Serializer

variable {keystream : Keystream}

/-- What `Pack` can make of a payload that is not empty and that its length field can describe. -/
def Packs (keystream : Keystream) (word : List UInt8) (payload : DataType × List UInt8) : Prop :=
  payload.2 ≠ [] ∧ payload.2.length < 2 ^ 32 ∧ ∃ iv, word = frame keystream payload.1 iv payload.2

def codewords (keystream : Keystream) : Set (List UInt8) :=
  { word | ∃ payload, Packs keystream word payload }

/-- The size is in the header. -/
theorem dataSizeOf_take (data : List UInt8) :
    dataSizeOf (data.take headerSize) = dataSizeOf data := by
  rw [dataSizeOf, dataSizeOf, List.drop_take, List.take_take]
  rfl

theorem codewords_prefixFree : PrefixFree (codewords keystream) := by
  apply @prefixFree_of_length _ _ headerSize fun header => headerSize + dataSizeOf header
  rintro _ ⟨⟨type, data⟩, -, fits, iv, rfl⟩
  have length : (frame keystream (type, data).1 iv (type, data).2).length =
      headerSize + data.length := length_frame type iv
  refine ⟨by omega, ?_⟩
  rw [dataSizeOf_take, dataSizeOf_frame fits]
  exact length

theorem nil_notMem_codewords : [] ∉ codewords keystream := by
  rintro ⟨payload, -, -, iv, empty⟩
  cases empty

/-- A word is a frame when its length is what its header says. -/
theorem mem_codewords_iff {word : List UInt8} :
    word ∈ codewords keystream ↔
      0 < dataSizeOf word ∧ word.length = headerSize + dataSizeOf word := by
  constructor
  · rintro ⟨⟨type, data⟩, filled, fits, iv, rfl⟩
    rw [dataSizeOf_frame fits, length_frame]
    exact ⟨List.length_pos_iff.mpr filled, rfl⟩
  · rintro ⟨filled, length⟩
    have sized : wellSized word := ⟨by omega, by omega⟩
    have fits : dataSizeOf word < 2 ^ 32 := by
      apply Nat.lt_of_lt_of_le (LittleEndian.decode_lt _)
      rw [List.length_take]
      exact Nat.pow_le_pow_right (by decide) (Nat.min_le_left ..)
    let iv : Vector UInt8 blockSize := ⟨(ivOf word).toArray, length_ivOf sized.1⟩
    refine ⟨(typeOf word, payloadOf keystream word), payloadOf_ne_nil sized filled, ?_, iv, ?_⟩
    · rw [length_payloadOf sized]
      exact fits
    · rw [frame_payloadOf sized (rfl : iv.toList = ivOf word), ← length, List.take_length]

instance (word : List UInt8) : Decidable (word ∈ codewords keystream) :=
  decidable_of_iff _ mem_codewords_iff.symm

/-- A frame has one type and one payload. -/
theorem Packs.unique {word : List UInt8} {payload payload' : DataType × List UInt8}
    (packs : Packs keystream word payload) (packs' : Packs keystream word payload') :
    payload = payload' := by
  obtain ⟨-, fits, iv, rfl⟩ := packs
  obtain ⟨-, fits', iv', same⟩ := packs'
  have types := congrArg typeOf same
  have datas := congrArg (payloadOf keystream) same
  rw [payloadOf_frame fits, payloadOf_frame fits'] at datas
  exact Prod.ext types datas

theorem mem_codewords {frames : List (List UInt8)} {payloads : List (DataType × List UInt8)}
    (packed : List.Forall₂ (Packs keystream) frames payloads) :
    ∀ word ∈ frames, word ∈ codewords keystream := by
  induction packed with
  | nil => simp
  | @cons word payload frames payloads packs _ ih =>
    intro other member
    rcases List.mem_cons.mp member with rfl | later
    · exact ⟨payload, packs⟩
    · exact ih other later

/-- The frames of a file are such frames. -/
theorem framesOf_packs (e : Encryption) {name : List UInt8} {datas : List (List UInt8)}
    (named : name ≠ [] ∧ name.length < 2 ^ 32)
    (valid : ∀ data ∈ datas, data ≠ [] ∧ data.length < 2 ^ 32) :
    List.Forall₂ (Packs keystream) (framesOf keystream e name datas) (payloadsOf name datas) := by
  have packed := @framesOf_payloadsOf keystream e _ _ named.1 fun data member =>
    (valid data member).1
  have sized : ∀ payload ∈ payloadsOf name datas,
      payload.2 ≠ [] ∧ payload.2.length < 2 ^ 32 := by
    intro payload member
    rcases List.mem_cons.mp member with rfl | later
    · exact named
    · obtain ⟨data, there, rfl⟩ := List.mem_map.mp later
      exact valid data there
  revert packed sized
  generalize framesOf keystream e name datas = frames, payloadsOf name datas = payloads
  intro packed
  induction packed with
  | nil => exact fun _ => .nil
  | @cons frame payload _ _ packs _ ih =>
    intro sized
    obtain ⟨filled, fits⟩ := sized payload List.mem_cons_self
    exact .cons ⟨filled, fits, packs⟩
      (ih fun other later => sized other (List.mem_cons_of_mem _ later))

/-- The format is uniquely decodable, and more: what has been received of a stream of frames, up to
    the end of one of them, determines these frames, and so their types and payloads, whatever
    comes next and whatever IVs were drawn. The frames that a client sends for a file are a stream
    of this kind. -/
theorem bytes_determine_frames (keystream : Keystream) :
    InformationTheory.UniquelyDecodable (codewords keystream) ∧
      (∀ frames frames' payloads payloads', List.Forall₂ (Packs keystream) frames payloads →
        List.Forall₂ (Packs keystream) frames' payloads' →
        frames.flatten <+: frames'.flatten → frames <+: frames' ∧ payloads <+: payloads') ∧
      ∀ e name datas, name ≠ [] ∧ name.length < 2 ^ 32 →
        (∀ data ∈ datas, data ≠ [] ∧ data.length < 2 ^ 32) →
        List.Forall₂ (Packs keystream) (framesOf keystream e name datas)
          (payloadsOf name datas) := by
  refine ⟨codewords_prefixFree.uniquelyDecodable nil_notMem_codewords, ?_,
    fun e _ _ named valid => framesOf_packs e named valid⟩
  intro frames frames' payloads payloads' packed packed' starts
  have begins := codewords_prefixFree.prefix_of_flatten nil_notMem_codewords
    (mem_codewords packed) (mem_codewords packed') starts
  refine ⟨begins, ?_⟩
  have first := List.forall₂_take frames.length packed'
  rw [← List.prefix_iff_eq_take.mp begins] at first
  have same : payloads = payloads'.take frames.length :=
    List.right_unique_forall₂' (fun _ _ _ packs packs' => packs.unique packs') packed first
  rw [same]
  exact List.take_prefix _ _

/-- The frames of one name, sent twice with other IVs, are told apart from what follows. -/
theorem bytes_determine_frames_small : ∃ e e' : Encryption,
    framesOf (fun _ _ _ => 7) e (ascii "a") [[1]] ≠ framesOf (fun _ _ _ => 7) e' (ascii "a") [[1]] ∧
    ∀ datas, (∀ data ∈ datas, data ≠ [] ∧ data.length < 2 ^ 32) →
      (framesOf (fun _ _ _ => 7) e (ascii "a") [[1]]).flatten <+:
        (framesOf (fun _ _ _ => 7) e (ascii "a") datas).flatten →
      payloadsOf (ascii "a") [[1]] <+: payloadsOf (ascii "a") datas := by
  obtain ⟨-, determined, packs⟩ := bytes_determine_frames fun _ _ _ => 7
  refine ⟨.create fun _ => .replicate 16 1, .create fun _ => .replicate 16 2, by decide +kernel, ?_⟩
  intro datas valid starts
  exact (determined _ _ _ _ (packs _ _ _ (by decide) (by decide)) (packs _ _ _ (by decide) valid)
    starts).2

end Serializer

end FileTransfer
