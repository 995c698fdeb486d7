import TTLock.Core.Config
import TTLock.Lib.Hex

set_option autoImplicit false

/-! # Rows of the vendor app's database (`ttlock-core/src/sciener.rs`)

One row's column values, already read, become one entry of a `lockData.json`. -/

namespace TTLock

/-- `u8::from_str_radix` for sixteen, with the text of its error. -/
def u8FromHex (text : String) : Except String UInt8 :=
  match text.toList with
  | [] => .error "cannot parse integer from empty string"
  | ['+'] => .error "invalid digit found in string"
  | '+' :: digits => scan 0 digits
  | digits => scan 0 digits
where
  scan (value : Nat) : List Char → Except String UInt8
    | [] => .ok (UInt8.ofNat value)
    | c :: rest => match Hex.value c with
      | none => .error "invalid digit found in string"
      | some digit =>
          if 255 < value * 16 + digit then .error "number too large to fit in target type"
          else scan (value * 16 + digit) rest

/-- Raw values read from one row of the `ZKEY` table. -/
structure ScienerKeyRow where
  /-- `ZLOCKMAC`: the lock's BLE MAC address. -/
  lockMac : Option String
  /-- `ZAESKEYSTR`: the AES key as a comma-separated list of hex bytes. -/
  aesKeyCsv : Option String
  adminPs : Option String
  lockKey : Option String
  autoLockTime : Option Int64
  rssi : Option Int64
deriving DecidableEq, Repr

/-- The tokens of a comma-separated list: trimmed, and without those that are empty then. -/
def csvTokens (csv : String) : List String :=
  ((splitText csv.toList ',').map fun part => String.ofList (trim part)).filter fun token => token ≠ ""

/-- `hexEncode` is the `hex` crate's `encode`, and `debug` the text of a string with quotes and
    escapes. -/
def aesKeyHexFromCsv (hexEncode : List UInt8 → String) (debug : String → String) (csv : String) :
    Except TtlockError String := do
  let bytes ← (csvTokens csv).mapM fun token => (u8FromHex token).mapError fun error =>
    .message ("invalid AES key byte " ++ debug token ++ ": " ++ error)
  if bytes.length = 16 then return hexEncode bytes else throw (.invalidAesKeyLength bytes.length)

/-- A column that holds more than whitespace. -/
def nonBlank (text : Option String) : Option String := text.filter fun t => !(trim t).isEmpty

/-- `i32::try_from` of an `i64`. -/
def i32TryFrom (v : Int64) : Option Int32 :=
  if -2147483648 ≤ v.toInt ∧ v.toInt ≤ 2147483647 then some (Int32.ofInt v.toInt) else none

/-- `Option::ok_or`. -/
def okOr {α : Type} (value : Option α) (error : TtlockError) : Except TtlockError α :=
  match value with
  | none => .error error
  | some value => .ok value

/-- Convert a raw `ZKEY` row into a `LockData` entry. -/
def ScienerKeyRow.intoLockData (hexEncode : List UInt8 → String)
    (base64Decode : String → Except String (List UInt8)) (debug : String → String)
    (utf8Error : List UInt8 → String) (self : ScienerKeyRow) : Except TtlockError LockData := do
  let address ← okOr (nonBlank self.lockMac) (.missingLockData "ZLOCKMAC")
  let aesKey ← (nonBlank self.aesKeyCsv).mapM (aesKeyHexFromCsv hexEncode debug)
  let aesKey ← okOr aesKey (.missingLockData "ZAESKEYSTR")
  let adminPs ← (nonBlank self.adminPs).mapM (decodeBase64Credential base64Decode debug utf8Error)
  let unlockKey ← (nonBlank self.lockKey).mapM (decodeBase64Credential base64Decode debug utf8Error)
  return {
    address
    battery := -1
    rssi := (self.rssi.bind i32TryFrom).getD 0
    autoLockTime := (self.autoLockTime.bind i32TryFrom).getD (-1)
    lockedStatus := -1
    privateData := {
      aesKey := some aesKey, adminPs, unlockKey, adminPasscode := none, pwdInfo := none }
    operationLog := [] }

end TTLock
