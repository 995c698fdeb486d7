import TTLock.Cli.Sciener
import TTLock.Core.LockFile

set_option autoImplicit false

/-! # The import-credentials command (`ttlock/src/main.rs`)

The rows of the app's database become the text of a `lockData.json`, for a file or for standard output.
Opening the database and writing the text are left to the caller. -/

namespace TTLock

variable (json : SerdeJson) (hexEncode : List UInt8 → String)
  (base64Decode : String → Except String (List UInt8)) (debug : String → String)
  (utf8Error : List UInt8 → String) (invalidType : Nat → SqlValue → String)

/-- What is written or printed. -/
def importCredentials (zkey : List ZkeyRow) : Except CliError String := do
  let locks ← lockDataFromConnection hexEncode base64Decode debug utf8Error invalidType zkey
  return lockFile json locks

end TTLock
