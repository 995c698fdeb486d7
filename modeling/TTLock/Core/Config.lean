import TTLock.Core.Credential

set_option autoImplicit false

/-! # Credential files (`ttlock-core/src/config.rs`)

The entries of a `lockData.json` and how one of them is selected. Reading and parsing the file is left
to the caller. -/

namespace TTLock

/-- The secret half of a `LockData` entry. -/
structure PrivateData where
  /-- AES-128 key as hex characters. -/
  aesKey : Option String
  unlockKey : Option UInt32
  /-- Admin passcode. Not needed to lock or unlock. -/
  adminPs : Option UInt32 := none
  /-- The same as it was written, if its leading zeros were kept. -/
  adminPasscode : Option String := none
  /-- A JSON value, kept as it is. -/
  pwdInfo : Option String := none
deriving DecidableEq, Repr

/-- One lock's entry in `lockData.json`. -/
structure LockData where
  /-- Empty when the file has none. -/
  address : String
  privateData : PrivateData
  battery : Int32 := 0
  rssi : Int32 := 0
  /-- In seconds. -/
  autoLockTime : Int32 := 0
  lockedStatus : Int32 := 0
  /-- JSON values, kept as they are. -/
  operationLog : List String := []
deriving DecidableEq, Repr

def LockData.aesKey (hexDecode : String → Except String (List UInt8)) (self : LockData) :
    Except TtlockError AesKey :=
  match self.privateData.aesKey with
  | none => .error (.missingLockData "private_data.aes_key")
  | some hex => AesKey.fromHex hexDecode hex

def LockData.unlockKey (self : LockData) : Except TtlockError UnlockKey :=
  match self.privateData.unlockKey with
  | none => .error (.missingLockData "private_data.unlock_key")
  | some value => match UnlockKey.new value with
    | none => .error .invalidUnlockKey
    | some key => .ok key

/-- Select a lock entry by address, or the first entry when no address is given. -/
def selectLock (locks : List LockData) (address : Option String) : Except TtlockError LockData :=
  match address with
  | some target => match locks.find? fun lock => eqIgnoreAsciiCase lock.address target with
    | some lock => .ok lock
    | none => .error (.message s!"no lockData entry matches address {target}")
  | none => match locks.head? with
    | some lock => .ok lock
    | none => .error (.missingLockData "at least one lockData entry")

end TTLock
