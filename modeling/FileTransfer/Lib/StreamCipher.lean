import Mathlib.Logic.Basic

/-!
# Stream ciphers

A stream cipher adds a keystream to the text byte by byte. The keystream is a function of key,
IV and position, and is a parameter here; that decryption undoes encryption does not depend
on it.
-/

namespace StreamCipher

universe u v

variable {κ : Type u} {ν : Type v}

/-- The bytes with the keystream from `position` on added. -/
def mask (stream : Nat → UInt8) (position : Nat) (bytes : List UInt8) : List UInt8 :=
  bytes.mapIdx fun i byte => byte ^^^ stream (position + i)

@[simp] theorem length_mask (stream : Nat → UInt8) (position : Nat) (bytes : List UInt8) :
    (mask stream position bytes).length = bytes.length := List.length_mapIdx

/-- The same keystream added twice cancels. -/
@[simp] theorem mask_mask (stream : Nat → UInt8) (position : Nat) (bytes : List UInt8) :
    mask stream position (mask stream position bytes) = bytes := by
  apply List.ext_getElem (by simp)
  intro i within within'
  simp only [mask, List.getElem_mapIdx, UInt8.xor_assoc, UInt8.xor_self, UInt8.xor_zero]

/-- A cipher object: its key, its IV and how much of the keystream has been used. -/
structure Cipher (κ : Type u) (ν : Type v) where
  key : κ
  iv : ν
  position : Nat

namespace Cipher

/-- Start again with another IV. -/
def resynchronize (c : Cipher κ ν) (iv : ν) : Cipher κ ν := { c with iv, position := 0 }

/-- Encrypt or decrypt the next bytes of the text. -/
def processData (keystream : κ → ν → Nat → UInt8) (c : Cipher κ ν) (bytes : List UInt8) :
    List UInt8 × Cipher κ ν :=
  (mask (keystream c.key c.iv) c.position bytes, { c with position := c.position + bytes.length })

end Cipher

end StreamCipher
