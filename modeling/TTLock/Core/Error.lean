import Mathlib.Data.List.Basic

set_option autoImplicit false

/-! # The error type of the core (`ttlock-core/src/error.rs`)

One error type is shared by every operation. Errors that wrap another crate's carry that crate's
rendering of itself, which nothing here looks into. -/

namespace TTLock

inductive TtlockError where
  /-- Reading or writing a file failed. -/
  | io (error : String)
  /-- `lockData.json` could not be parsed or serialized. -/
  | json (error : String)
  /-- A hex string contained non-hex characters. -/
  | hex (error : String)
  /-- A base64 credential was not valid base64. -/
  | base64 (error : String)
  /-- Decoded credential bytes were not valid UTF-8. -/
  | utf8 (error : String)
  | invalidAesKeyLength (length : Nat)
  | invalidUnlockKey
  /-- The ciphertext length was not a multiple of the block size, or the padding was invalid. -/
  | aesDecrypt
  | packetTooShort
  | badHeader
  | badLength
  | crcMismatch (observed computed : UInt8)
  | missingLockData (field : String)
  /-- A frame arrived echoing a command other than the one being awaited. -/
  | unexpectedCommand (expected actual : UInt8)
  /-- A command the lock decrypted and then rejected. -/
  | commandFailed (command response : UInt8)
  | shortResponse (what : String)
  | credentialOverflow
  | message (text : String)
deriving DecidableEq, Repr

/-- Whether re-sending the same frame could plausibly succeed. -/
def TtlockError.isRetryable : TtlockError → Bool
  | .crcMismatch _ _ => true
  | _ => false

/-- Whether this frame should be discarded and the next one awaited, without re-sending. -/
def TtlockError.isStaleFrame : TtlockError → Bool
  | .unexpectedCommand _ _ => true
  | _ => false

instance decidableEqExcept {ε α : Type} [DecidableEq ε] [DecidableEq α] : DecidableEq (Except ε α)
  | .ok a, .ok b => decidable_of_iff (a = b) ⟨congrArg _, Except.ok.inj⟩
  | .error e, .error e' => decidable_of_iff (e = e') ⟨congrArg _, Except.error.inj⟩
  | .ok _, .error _ => isFalse (by intro h; cases h)
  | .error _, .ok _ => isFalse (by intro h; cases h)

end TTLock
