import TTLock.Core.Crypto
import TTLock.Lib.Aes
import TTLock.Lib.Cbc

set_option autoImplicit false

/-! # The cipher in full

AES-128 in CBC mode with PKCS#7 padding is a lawful `Cipher`, so nothing proved about lawful ciphers
is empty. -/

namespace TTLock

def toBlock (bytes : Vector UInt8 16) : Aes.Block :=
  ⟨⟨bytes[0], bytes[1], bytes[2], bytes[3]⟩, ⟨bytes[4], bytes[5], bytes[6], bytes[7]⟩,
    ⟨bytes[8], bytes[9], bytes[10], bytes[11]⟩, ⟨bytes[12], bytes[13], bytes[14], bytes[15]⟩⟩

def aes128 (key : Vector UInt8 16) : Cbc.Scheme Aes.Block where
  size := 16
  enc := Aes.enc (Aes.expandKey (toBlock key))
  dec := Aes.dec (Aes.expandKey (toBlock key))
  xor := Aes.Block.xor
  toBytes := Aes.Block.toBytes
  ofBytes := Aes.Block.ofBytes
  size_pos := by decide
  size_lt := by decide
  dec_enc := Aes.dec_enc _
  xor_xor := Aes.Block.xor_xor
  length_toBytes := Aes.Block.length_toBytes
  ofBytes_toBytes := Aes.Block.ofBytes_toBytes
  ofBytes_of_length _ := Aes.Block.ofBytes_of_length

/-- What the `aes` and `cbc` crates compute. -/
def aes128Cbc : Cipher where
  encryptPadded key iv source := (aes128 key).encrypt (toBlock iv) source
  decryptPadded key iv source := (aes128 key).decrypt (toBlock iv) source

theorem aes128Cbc_lawful : aes128Cbc.Lawful where
  length_encryptPadded key iv source := (aes128 key).length_encrypt (toBlock iv) source
  decrypt_encrypt key iv source := (aes128 key).decrypt_encrypt (toBlock iv) source

end TTLock
