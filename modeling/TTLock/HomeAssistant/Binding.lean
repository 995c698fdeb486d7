import TTLock.Core.Credential
import TTLock.HomeAssistant.Exchange
import TTLock.Lib.Hex

set_option autoImplicit false

/-! # Credentials from Python (`ttlock-py/src/lib.rs`)

What the binding takes for a key. A value of the wrong type is refused with the same exception as one
that is no key. -/

namespace TTLock

/-- What a Python object can be taken for. -/
inductive PyValue where
  | text (value : String)
  /-- `bytes`, or anything else that is a sequence of bytes. -/
  | bytes (value : List UInt8)
  | int (value : Int)
  | bool (value : Bool)
  | other
deriving DecidableEq, Repr

theorem size_toArray_of_length {bytes : List UInt8} (h : bytes.length = 16) : bytes.toArray.size = 16 := by
  rw [List.size_toArray, h]

/-- Accept an AES key as either 32 hex characters or 16 raw bytes. -/
def aesKeyArg (hexDecode : String → Except String (List UInt8)) : PyValue → Except PyErr AesKey
  | .text text => (AesKey.fromHex hexDecode text).mapError toPyerr
  | .bytes bytes =>
      if h : bytes.length = 16 then .ok ⟨⟨bytes.toArray, size_toArray_of_length h⟩⟩
      else .error (toPyerr (.invalidAesKeyLength bytes.length))
  | .int _ | .bool _ | .other =>
      .error (toPyerr (.message "AES key must be 32 hex characters or 16 bytes"))

/-- Accept an unlock key as an `int` or a decimal `str`, rejecting `0`. `True` is an `int` in Python and
    no key. -/
def unlockKeyArg : PyValue → Except PyErr UnlockKey
  | .bool _ => .error (toPyerr .invalidUnlockKey)
  | .int number =>
      -- What does not fit into 32 bits is no text either
      if 0 ≤ number ∧ number ≤ 4294967295 then
        match UnlockKey.new (UInt32.ofNat number.toNat) with
        | some key => .ok key
        | none => .error (toPyerr .invalidUnlockKey)
      else .error (toPyerr .invalidUnlockKey)
  | .text text => (UnlockKey.fromStr text).mapError toPyerr
  | .bytes _ | .other => .error (toPyerr .invalidUnlockKey)

/-- Validate an AES key and return it as 32 lowercase hex characters. -/
def normalizeAesKey (hexEncode : List UInt8 → String) (hexDecode : String → Except String (List UInt8))
    (value : PyValue) : Except PyErr String :=
  (aesKeyArg hexDecode value).map fun key => hexEncode key.asBytes.toList

/-- Validate an unlock key and return it as an `int`. -/
def normalizeUnlockKey (value : PyValue) : Except PyErr Int :=
  (unlockKeyArg value).map fun key => key.get.toNat

/-- `LockOp(aes_key, unlock_key, version)` or `UnlockOp(…)`. -/
def Actuation.newOp (hexDecode : String → Except String (List UInt8)) (action : Actuation)
    (aesKey unlockKey : PyValue) (version : Option LockVersion) : Except PyErr ActuateOp := do
  let aesKey ← aesKeyArg hexDecode aesKey
  let unlockKey ← unlockKeyArg unlockKey
  return action.op aesKey unlockKey (version.getD LockVersion.default)

/-- `StatusOp(aes_key, version)`. -/
def StatusOp.newOp (hexDecode : String → Except String (List UInt8)) (aesKey : PyValue)
    (version : Option LockVersion) : Except PyErr StatusOp := do
  let aesKey ← aesKeyArg hexDecode aesKey
  return StatusOp.new aesKey (version.getD LockVersion.default)

/-- ASCII whitespace. -/
def isAsciiSpace (c : Char) : Bool := isWhitespace c && c.toNat < 128

/-- Python's `bytes.fromhex`: two digits for each byte, and ASCII whitespace between the bytes is skipped.
    `none` is a `ValueError`. -/
def bytesFromHex : List Char → Option (List UInt8)
  | [] => some []
  | [c] => if isAsciiSpace c then some [] else none
  | c :: d :: rest =>
      if isAsciiSpace c then bytesFromHex (d :: rest)
      else do
        let high ← Hex.value c
        let low ← Hex.value d
        let bytes ← bytesFromHex rest
        return UInt8.ofNat (high * 16 + low) :: bytes

end TTLock
