import TTLock.Core.Config
import TTLock.Lib.Json

set_option autoImplicit false

/-! # Credential files as text (`ttlock-core/src/config.rs`)

How entries are read from a `lockData.json` and written to one, as `serde` derives it from the fields of
`LockData` and `PrivateData`. JSON values that are kept as they are stand for themselves, as text. -/

namespace TTLock

/-- The `serde_json` crate: what it writes for the value a type becomes, and the value it hands to a type
    that is read from a text, member by member. -/
structure SerdeJson where
  toStringPretty : Json → String
  fromStr : String → Except String Json
  /-- The error for JSON that is not of the type it is read as. -/
  dataError : String → String

namespace SerdeJson

variable (json : SerdeJson)

/-- The text a value is kept as, and the value that is kept as it. -/
def kept (value : Json) : String := json.toStringPretty value

def held (text : String) : Json := (json.fromStr text).toOption.getD .null

/-- `from_str` for a type that is read from values like this. -/
def parse {α : Type} (read : Json → Option α) (text : String) : Except TtlockError α :=
  match json.fromStr text with
  | .error error => .error (.json error)
  | .ok value => match read value with
    | none => .error (.json (json.dataError text))
    | some result => .ok result

end SerdeJson

/-! ## Reading -/

def readString : Json → Option String
  | .text value => some value
  | _ => none

def readI32 : Json → Option Int32
  | .int value => if -2147483648 ≤ value ∧ value ≤ 2147483647 then some (Int32.ofInt value) else none
  | _ => none

def readU32 : Json → Option UInt32
  | .int value => if 0 ≤ value ∧ value ≤ 4294967295 then some (UInt32.ofNat value.toNat) else none
  | _ => none

def readOption {α : Type} (read : Json → Option α) : Json → Option (Option α)
  | .null => some none
  | value => (read value).map some

def readVec {α : Type} (read : Json → Option α) : Json → Option (List α)
  | .array values => values.mapM read
  | _ => none

/-- A field of an object. It must not be there twice. -/
def readField {α : Type} (key : String) (default : α) (read : Json → Option α)
    (members : List (String × Json)) : Option α :=
  match members.filter fun member => member.1 = key with
  | [] => some default
  | [member] => read member.2
  | _ :: _ :: _ => none

def PrivateData.fields : List String := ["aes_key", "admin_ps", "unlock_key", "admin_passcode", "pwd_info"]

def LockData.fields : List String :=
  ["address", "battery", "rssi", "auto_lock_time", "locked_status", "private_data", "operation_log"]

variable (json : SerdeJson)

def PrivateData.readFields (members : List (String × Json)) : Option PrivateData := do
  let aesKey ← readField "aes_key" none (readOption readString) members
  let adminPs ← readField "admin_ps" none (readOption readU32) members
  let unlockKey ← readField "unlock_key" none (readOption readU32) members
  let adminPasscode ← readField "admin_passcode" none (readOption readString) members
  let pwdInfo ← readField "pwd_info" none (readOption fun value => some (json.kept value)) members
  return { aesKey, unlockKey, adminPs, adminPasscode, pwdInfo }

/-- `PrivateData::deserialize`. The fields may also stand in an array, in their order. -/
def PrivateData.deserialize : Json → Option PrivateData
  | .object members => PrivateData.readFields json members
  | .array values =>
      if values.length = PrivateData.fields.length then
        PrivateData.readFields json (PrivateData.fields.zip values)
      else none
  | _ => none

def LockData.readFields (members : List (String × Json)) : Option LockData := do
  let address ← readField "address" "" readString members
  let battery ← readField "battery" 0 readI32 members
  let rssi ← readField "rssi" 0 readI32 members
  let autoLockTime ← readField "auto_lock_time" 0 readI32 members
  let lockedStatus ← readField "locked_status" 0 readI32 members
  let privateData ← readField "private_data" ⟨none, none, none, none, none⟩
    (PrivateData.deserialize json) members
  let operationLog ← readField "operation_log" [] (readVec fun value => some (json.kept value)) members
  return { address, privateData, battery, rssi, autoLockTime, lockedStatus, operationLog }

/-- `LockData::deserialize`. In an array the last fields may be missing. -/
def LockData.deserialize : Json → Option LockData
  | .object members => LockData.readFields json members
  | .array values =>
      if values.length ≤ LockData.fields.length then
        LockData.readFields json (LockData.fields.zip values)
      else none
  | _ => none

/-- Load one or more lock entries. `file` is what reading the file gives. -/
def loadLockData (file : Except String String) : Except TtlockError (List LockData) := do
  let text ← file.mapError .io
  let trimmed := text.toList.dropWhile isWhitespace
  -- only the choice is made of the trimmed text
  if trimmed.head? = some '[' then json.parse (readVec (LockData.deserialize json)) text
  else return [← json.parse (LockData.deserialize json) text]

/-! ## Writing -/

def writeOption {α : Type} (write : α → Json) : Option α → Json
  | none => .null
  | some value => write value

/-- `PrivateData::serialize`. -/
def PrivateData.serialize (self : PrivateData) : Json :=
  .object [
    ("aes_key", writeOption .text self.aesKey),
    ("admin_ps", writeOption (fun value => .int value.toNat) self.adminPs),
    ("unlock_key", writeOption (fun value => .int value.toNat) self.unlockKey),
    ("admin_passcode", writeOption .text self.adminPasscode),
    ("pwd_info", writeOption json.held self.pwdInfo)]

/-- `LockData::serialize`. -/
def LockData.serialize (self : LockData) : Json :=
  .object [
    ("address", .text self.address),
    ("battery", .int self.battery.toInt),
    ("rssi", .int self.rssi.toInt),
    ("auto_lock_time", .int self.autoLockTime.toInt),
    ("locked_status", .int self.lockedStatus.toInt),
    ("private_data", self.privateData.serialize json),
    ("operation_log", .array (self.operationLog.map json.held))]

/-- The text of a file with these entries. -/
def lockFile (locks : List LockData) : String :=
  json.toStringPretty (.array (locks.map (LockData.serialize json))) ++ "\n"

end TTLock
