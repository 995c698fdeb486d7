import TTLock.Core.Credential

set_option autoImplicit false

/-! # AES-128-CBC as the protocol uses it (`ttlock-core/src/crypto.rs`)

The key doubles as the IV. The block cipher, the chaining and the PKCS#7 padding come from the `aes`
and `cbc` crates; they are the parameter `Cipher`, and `Cipher.Lawful` is what those crates promise
of it. -/

namespace TTLock

/-- What the `aes` and `cbc` crates provide: padded encryption and decryption of byte strings. -/
structure Cipher where
  encryptPadded : (key iv : Vector UInt8 16) → List UInt8 → List UInt8
  decryptPadded : (key iv : Vector UInt8 16) → List UInt8 → Option (List UInt8)

/-- PKCS#7 CBC pads to the next full block, and decryption inverts encryption under one key. -/
structure Cipher.Lawful (C : Cipher) : Prop where
  length_encryptPadded : ∀ key iv source,
    (C.encryptPadded key iv source).length = 16 * (source.length / 16 + 1)
  decrypt_encrypt : ∀ key iv source,
    C.decryptPadded key iv (C.encryptPadded key iv source) = some source

variable (C : Cipher)

def aesEncrypt (source : List UInt8) (key : AesKey) : List UInt8 :=
  if source.isEmpty then []
  else C.encryptPadded key.asBytes key.asBytes source

def aesDecrypt (source : List UInt8) (key : AesKey) : Except TtlockError (List UInt8) :=
  if source.isEmpty then .ok []
  else match C.decryptPadded key.asBytes key.asBytes source with
    | some plain => .ok plain
    | none => .error .aesDecrypt

variable {C}

/-- The empty string is not padded; everything else fills its last block. -/
theorem length_aesEncrypt (hC : C.Lawful) (source : List UInt8) (key : AesKey) :
    (aesEncrypt C source key).length
      = if source.isEmpty then 0 else 16 * (source.length / 16 + 1) := by
  unfold aesEncrypt
  split
  · rfl
  · exact hC.length_encryptPadded _ _ _

theorem aesDecrypt_aesEncrypt (hC : C.Lawful) (source : List UInt8) (key : AesKey) :
    aesDecrypt C (aesEncrypt C source key) key = .ok source := by
  by_cases hs : source.isEmpty = true
  · rw [List.isEmpty_iff.1 hs]; rfl
  · have hlen := hC.length_encryptPadded key.asBytes key.asBytes source
    have hne : (C.encryptPadded key.asBytes key.asBytes source).isEmpty ≠ true := by
      intro h
      rw [List.isEmpty_iff.1 h] at hlen
      simp only [List.length_nil] at hlen
      omega
    simp only [aesEncrypt, aesDecrypt, if_neg hs, if_neg hne, hC.decrypt_encrypt]

end TTLock
