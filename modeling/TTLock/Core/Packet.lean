import TTLock.Core.Crc
import TTLock.Core.Crypto
import TTLock.Lib.BigEndian

set_option autoImplicit false

/-! # Packets (`ttlock-core/src/packet.rs`)

Every exchange is a frame `7f5a <version header> <command> <encrypt> <len> <AES payload> <crc> 0d0a`.
`Envelope.parse` takes a frame without its terminator apart without looking at the CRC or the
payload; `buildEnvelope` puts a whole frame together. -/

namespace TTLock

def COMM_RESPONSE : UInt8 := 0x54
def COMM_CHECK_USER_TIME : UInt8 := 0x55
def COMM_UNLOCK : UInt8 := 0x47
def COMM_FUNCTION_LOCK : UInt8 := 0x58
def COMM_SEARCH_BICYCLE_STATUS : UInt8 := 0x14
def COMM_GET_OPERATE_LOG : UInt8 := 0x25
def APP_COMMAND : UInt8 := 0xaa
def CRLF : List UInt8 := [0x0d, 0x0a]

/-- The protocol header identifying which dialect a lock speaks. -/
structure LockVersion where
  protocolType : UInt8
  protocolVersion : UInt8
  scene : UInt8
  groupId : UInt16
  orgId : UInt16
deriving DecidableEq, Repr

def LockVersion.default : LockVersion :=
  { protocolType := 5, protocolVersion := 3, scene := 2, groupId := 1, orgId := 1 }

/-- The header as it stands in bytes 2 to 8 of a frame. -/
def LockVersion.toBytes (v : LockVersion) : List UInt8 :=
  [v.protocolType, v.protocolVersion, v.scene] ++ BigEndian.toBytes16 v.groupId ++
    BigEndian.toBytes16 v.orgId

/-- A parsed frame, still encrypted. -/
structure Envelope where
  protocolType : UInt8
  protocolVersion : UInt8
  scene : UInt8
  groupId : UInt16
  orgId : UInt16
  commandType : UInt8
  encrypt : UInt8
  data : List UInt8
  crc : UInt8
  computedCrc : UInt8
deriving DecidableEq, Repr

/-- A decrypted command payload. -/
structure PlainCommand where
  commandType : UInt8
  response : UInt8
  data : List UInt8
deriving DecidableEq, Repr

/-! ## Taking frames apart -/

def Envelope.parse (raw : List UInt8) : Except TtlockError Envelope :=
  if hlen : raw.length < 13 then .error .packetTooShort
  else if raw.take 2 ≠ [0x7f, 0x5a] then .error .badHeader
  else
    let payloadEnd := 12 + raw[11].toNat
    if hend : raw.length < payloadEnd + 1 then .error .badLength
    else .ok
      { protocolType := raw[2]
        protocolVersion := raw[3]
        scene := raw[4]
        groupId := BigEndian.ofBytes16 raw[5] raw[6]
        orgId := BigEndian.ofBytes16 raw[7] raw[8]
        commandType := raw[9]
        encrypt := raw[10]
        data := (raw.take payloadEnd).drop 12
        crc := raw[payloadEnd]
        computedCrc := crc8 (raw.take payloadEnd) }

def Envelope.ensureCrc (env : Envelope) : Except TtlockError Unit :=
  if env.crc = env.computedCrc then .ok ()
  else .error (.crcMismatch env.crc env.computedCrc)

def Envelope.decryptCommand (C : Cipher) (env : Envelope) (aesKey : AesKey) :
    Except TtlockError PlainCommand := do
  match ← aesDecrypt C env.data aesKey with
  | commandType :: response :: data => return { commandType, response, data }
  | _ => throw (.shortResponse "plain command header")

/-! ## Building frames -/

def buildEnvelope (C : Cipher) (version : LockVersion) (commandType : UInt8)
    (plaintext : List UInt8) (aesKey : AesKey) : Except TtlockError (List UInt8) :=
  let encrypted := aesEncrypt C plaintext aesKey
  if encrypted.length ≤ 255 then
    let frame := [0x7f, 0x5a] ++ version.toBytes ++
      [commandType, APP_COMMAND, UInt8.ofNat encrypted.length] ++ encrypted
    .ok (frame ++ [crc8 frame] ++ CRLF)
  else .error (.message "encrypted payload is longer than 255 bytes")

/-- `slice::chunks(2)`, then each chunk as text, then each text as a `u8`; what fails is skipped. -/
def dateTimeToBytes (dateTime : String) : List UInt8 :=
  (dateTime.toUTF8.toList.toChunks 2).filterMap (fun chunk => String.fromUTF8? chunk.toByteArray)
    |>.filterMap (fun part => (parseUnsigned 255 part).map UInt8.ofNat)

/-- `copy_from_slice` into `data` at position `pos`. -/
def copyInto (data : List UInt8) (pos : Nat) (bytes : List UInt8) : List UInt8 :=
  data.take pos ++ bytes ++ data.drop (pos + bytes.length)

def buildCheckUserTimePayload (uid : UInt32) (startDate endDate : String) (lockFlagPos : UInt32) :
    List UInt8 :=
  let data := List.replicate 17 0
  let startBytes := dateTimeToBytes startDate
  let endBytes := dateTimeToBytes endDate
  let startLen := min startBytes.length data.length
  let data := copyInto data 0 (startBytes.take startLen)
  let data := copyInto data 9 (BigEndian.toBytes32 lockFlagPos)
  let endLen := min endBytes.length 5
  let data := copyInto data 5 (endBytes.take endLen)
  copyInto data 13 (BigEndian.toBytes32 uid)

/-- `now` is the clock's `timestamp()`; a time outside `u32` becomes its largest value. -/
def buildLockPayload (now : Int) (psFromLock : UInt32) (unlockKey : UnlockKey) : List UInt8 :=
  let sum := psFromLock + unlockKey.get
  let now : UInt32 := if 0 ≤ now ∧ now < 4294967296 then UInt32.ofNat now.toNat else 0xffffffff
  BigEndian.toBytes32 sum ++ BigEndian.toBytes32 now

/-! ## Reading responses -/

def parseCheckUserTimeResponse (command : PlainCommand) : Except TtlockError UInt32 :=
  if command.commandType ≠ COMM_CHECK_USER_TIME then
    .error (.unexpectedCommand COMM_CHECK_USER_TIME command.commandType)
  else if command.response ≠ 1 then
    .error (.commandFailed COMM_CHECK_USER_TIME command.response)
  else match command.data with
    | a :: b :: c :: d :: _ => .ok (BigEndian.ofBytes32 a b c d)
    | _ => .error (.shortResponse "check-user-time ps")

def parseSuccessResponse (command : PlainCommand) (expectedCommand : UInt8) :
    Except TtlockError Unit :=
  if command.commandType ≠ expectedCommand then
    .error (.unexpectedCommand expectedCommand command.commandType)
  else if command.response = 1 then .ok ()
  else .error (.commandFailed expectedCommand command.response)

def parseStatusResponse (command : PlainCommand) : Except TtlockError Int :=
  if command.commandType ≠ COMM_SEARCH_BICYCLE_STATUS then
    .error (.unexpectedCommand COMM_SEARCH_BICYCLE_STATUS command.commandType)
  else if command.response ≠ 1 then
    .error (.commandFailed COMM_SEARCH_BICYCLE_STATUS command.response)
  else match command.data[1]? with
    | some value => .ok value.toNat
    | none => .error (.shortResponse "status byte")

end TTLock
