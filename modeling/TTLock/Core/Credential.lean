import TTLock.Core.Crc
import TTLock.Core.Error
import TTLock.Core.Text

set_option autoImplicit false

/-! # The credentials that open a lock (`ttlock-core/src/credential.rs`)

`AesKey` and `UnlockKey` are validated once and total thereafter: sixteen bytes and non-zero are part
of the types. A credential in the vendor's form is a number whose digits are masked, in decimal, in
base64. -/

namespace TTLock

/-- The AES-128 key every packet is encrypted with. -/
structure AesKey where
  asBytes : Vector UInt8 16
deriving DecidableEq, Repr

/-- Parse the hex form found in `lockData.json`. `hexDecode` is the `hex` crate's `decode`. -/
def AesKey.fromHex (hexDecode : String → Except String (List UInt8)) (hex : String) :
    Except TtlockError AesKey :=
  let cleaned := String.ofList (hex.toList.filter fun c => !isWhitespace c && c != ':')
  match hexDecode cleaned with
  | .error error => .error (.hex error)
  | .ok bytes =>
      if h : bytes.length = 16 then .ok ⟨⟨bytes.toArray, by simpa using h⟩⟩
      else .error (.invalidAesKeyLength bytes.length)

/-- The authorization value combined with the lock's challenge to actuate it: never zero, since the
    challenge would go back unchanged. -/
structure UnlockKey where
  get : UInt32
  ne_zero : get ≠ 0
deriving DecidableEq, Repr

/-- Wrap a raw value, rejecting zero. -/
def UnlockKey.new (value : UInt32) : Option UnlockKey :=
  if h : value ≠ 0 then some ⟨value, h⟩ else none

/-- Parse the decimal form, rejecting zero and anything wider than 32 bits. -/
def UnlockKey.fromStr (text : String) : Except TtlockError UnlockKey :=
  match (parseUnsigned 4294967295 (String.ofList (trim text))).bind fun value =>
      UnlockKey.new (UInt32.ofNat value) with
  | none => .error .invalidUnlockKey
  | some key => .ok key

/-- Answering a challenge always changes it. -/
theorem UnlockKey.add_get_ne (key : UnlockKey) (ps : UInt32) : ps + key.get ≠ ps := by
  intro h
  exact key.ne_zero (by simpa using h)

/-! ## The vendor's obfuscation -/

/-- Decode a byte list into its credential value: the last byte is the seed, the rest are masked
    digits. -/
def decodeCommaValues (values : List UInt8) : Option UInt32 :=
  match values.getLast? with
  | none => none
  | some seed =>
      let body := values.dropLast
      let mask := tableValue body.length ^^^ seed
      let digits := body.map (· ^^^ mask)
      match fromUtf8 digits with
      | none => none
      | some text => (parseUnsigned 4294967295 text).map UInt32.ofNat

/-- One byte of the comma list. `debug` is the text of a string with quotes and escapes. -/
def parseCredentialByte (debug : String → String) (part : String) : Except TtlockError UInt8 :=
  match parseUnsigned 255 part with
  | some value => .ok (UInt8.ofNat value)
  | none => .error (.message
      ("invalid credential byte " ++ debug part ++ ": " ++ parseIntError 255 part))

/-- Decode a base64 comma list. `base64Decode` is the `base64` crate's standard engine, and
    `utf8Error` the text of the error for bytes that are no text. -/
def decodeBase64Credential (base64Decode : String → Except String (List UInt8))
    (debug : String → String) (utf8Error : List UInt8 → String) (value : String) :
    Except TtlockError UInt32 := do
  let trimmed := String.ofList (trimEndMatches (trim value) '.')
  let decoded ← (base64Decode trimmed).mapError .base64
  let csv ← match fromUtf8 decoded with
    | none => throw (.utf8 (utf8Error decoded))
    | some csv => pure csv
  let parts := (splitText (trim csv) ',').filter fun part => part ≠ ""
  let values ← parts.mapM (parseCredentialByte debug)
  match decodeCommaValues values with
  | none => throw .credentialOverflow
  | some value => return value

end TTLock
