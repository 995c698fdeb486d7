import TTLock.Cli.Ble
import TTLock.Core.Sciener

set_option autoImplicit false

/-! # Importing the vendor app's database (`ttlock/src/sciener.rs`)

The database is a list of rows in table order. What the query keeps of it is read column by column, and
the first row that cannot be read or converted ends the import. -/

namespace TTLock

/-- What a column holds. -/
inductive SqlValue where
  | null
  | integer (value : Int64)
  | text (value : String)
  /-- A real number or a blob: nothing that is asked for here. -/
  | other
deriving DecidableEq, Repr

/-- The columns of a row of `ZKEY` that are selected, in their order. -/
structure ZkeyRow where
  zlockmac : SqlValue
  zaeskeystr : SqlValue
  zadminps : SqlValue
  zlockkey : SqlValue
  zautolocktime : SqlValue
  zrssi : SqlValue
deriving DecidableEq, Repr

/-- The condition of `QUERY`. -/
def ZkeyRow.selected (self : ZkeyRow) : Bool := self.zlockmac ≠ .null && self.zaeskeystr ≠ .null

/-- `row.get` as an optional text. `invalidType` is the rendering of the error for a column of another
    type. -/
def SqlValue.getText (invalidType : SqlValue → String) : SqlValue → Except CliError (Option String)
  | .null => .ok none
  | .text value => .ok (some value)
  | value => .error (.sqlite (invalidType value))

/-- `row.get` as an optional integer. -/
def SqlValue.getInteger (invalidType : SqlValue → String) : SqlValue → Except CliError (Option Int64)
  | .null => .ok none
  | .integer value => .ok (some value)
  | value => .error (.sqlite (invalidType value))

section

variable (hexEncode : List UInt8 → String) (base64Decode : String → Except String (List UInt8))
  (debug : String → String) (utf8Error : List UInt8 → String)
  (invalidType : Nat → SqlValue → String)

/-- The closure of `query_map`. -/
def ZkeyRow.read (self : ZkeyRow) : Except CliError ScienerKeyRow := do
  let lockMac ← self.zlockmac.getText (invalidType 0)
  let aesKeyCsv ← self.zaeskeystr.getText (invalidType 1)
  let adminPs ← self.zadminps.getText (invalidType 2)
  let lockKey ← self.zlockkey.getText (invalidType 3)
  let autoLockTime ← self.zautolocktime.getInteger (invalidType 4)
  let rssi ← self.zrssi.getInteger (invalidType 5)
  return { lockMac, aesKeyCsv, adminPs, lockKey, autoLockTime, rssi }

/-- One round of the loop: read a row and convert it. -/
def ZkeyRow.toLockData (self : ZkeyRow) : Except CliError LockData := do
  let row ← self.read invalidType
  (row.intoLockData hexEncode base64Decode debug utf8Error).mapError .core

def lockDataFromConnection (zkey : List ZkeyRow) : Except CliError (List LockData) :=
  (zkey.filter ZkeyRow.selected).mapM
    (ZkeyRow.toLockData hexEncode base64Decode debug utf8Error invalidType)

end

end TTLock
