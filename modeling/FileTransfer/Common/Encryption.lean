import FileTransfer.Lib.StreamCipher

/-!
# The encryption object

`Encryption` over Crypto++ AES in counter mode. The block cipher is seen only through its
keystream; the blocks that the random pool will generate are part of the object's state.
-/

namespace FileTransfer

/-- The bytes of an ASCII string literal of the source. -/
def ascii (text : String) : List UInt8 := text.toList.map fun c => UInt8.ofNat c.toNat

/-- `CryptoPP::AES::BLOCKSIZE`. -/
def blockSize : Nat := 16

/-- The keystream of AES in counter mode: key, IV and position to byte. -/
abbrev Keystream := List UInt8 → List UInt8 → Nat → UInt8

/-- `DefaultCryptoKey` and `InitIV` (`Encryption.h:7`). -/
def defaultCryptoKey : List UInt8 := ascii "7D9BB722DA2DC8674E08C3D44AAE976F"

def initIV : List UInt8 := ascii "37C6D22FADE22B2D924598BEE2455EFC"

/-- `Encryption` (`Encryption.h:5`). `entropy` lists the blocks that the next calls of
    `GenerateBlock` return. Both cipher objects are under the same key throughout. -/
structure Encryption where
  decryptor : StreamCipher.Cipher (List UInt8) (List UInt8)
  encryptor : StreamCipher.Cipher (List UInt8) (List UInt8)
  iv : Vector UInt8 blockSize
  entropy : Nat → Vector UInt8 blockSize
  decryptorKey : decryptor.key = defaultCryptoKey
  encryptorKey : encryptor.key = defaultCryptoKey

namespace Encryption

/-- The constructor (`Encryption.cpp:6`). -/
def create (entropy : Nat → Vector UInt8 blockSize) : Encryption :=
  let iv := Vector.ofFn fun i : Fin blockSize => initIV.getD i 0
  { decryptor := { key := defaultCryptoKey, iv := iv.toList, position := 0 }
    encryptor := { key := defaultCryptoKey, iv := iv.toList, position := 0 }
    iv, entropy, decryptorKey := rfl, encryptorKey := rfl }

/-- `Encrypt` (`Encryption.cpp:19`): a fresh IV for each call. -/
def encrypt (keystream : Keystream) (e : Encryption) (plain : List UInt8) :
    List UInt8 × Encryption :=
  let iv := e.entropy 0
  let processed := (e.encryptor.resynchronize iv.toList).processData keystream plain
  (processed.1,
    { e with
      iv
      encryptor := processed.2
      entropy := fun n => e.entropy (n + 1)
      encryptorKey := e.encryptorKey })

/-- `Decrypt` (`Encryption.cpp:40`): as many bytes of `cipher` as `recovered` has. -/
def decrypt (keystream : Keystream) (e : Encryption) (size : Nat) (cipher iv : List UInt8) :
    List UInt8 × Encryption :=
  let processed := (e.decryptor.resynchronize iv).processData keystream (cipher.take size)
  (processed.1, { e with decryptor := processed.2, decryptorKey := e.decryptorKey })

/-- What is encrypted with an IV, whatever the history of the object. -/
theorem encrypt_fst (keystream : Keystream) (e : Encryption) (plain : List UInt8) :
    (e.encrypt keystream plain).1 =
      StreamCipher.mask (keystream defaultCryptoKey (e.entropy 0).toList) 0 plain := by
  simp only [encrypt, StreamCipher.Cipher.processData, StreamCipher.Cipher.resynchronize,
    e.encryptorKey]

/-- What is decrypted with an IV, whatever the history of the object. -/
theorem decrypt_fst (keystream : Keystream) (e : Encryption) (size : Nat)
    (cipher iv : List UInt8) :
    (e.decrypt keystream size cipher iv).1 =
      StreamCipher.mask (keystream defaultCryptoKey iv) 0 (cipher.take size) := by
  simp only [decrypt, StreamCipher.Cipher.processData, StreamCipher.Cipher.resynchronize,
    e.decryptorKey]

end Encryption

end FileTransfer
