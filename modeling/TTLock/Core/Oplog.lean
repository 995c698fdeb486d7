import TTLock.Core.Advertisement
import TTLock.Core.Ops
import TTLock.Core.Text

set_option autoImplicit false

/-! # The operate log (`ttlock-core/src/oplog.rs`)

One `LogPageOp` fetches one page; `parsePage` decodes its body. Which dates and times exist is the
`chrono` crate's business and a parameter. -/

namespace TTLock

/-- A record's position in the log. `0xFFFF` is reserved on the wire. -/
structure Sequence where
  get : UInt16
  ne_sentinel : get ≠ 0xffff
deriving DecidableEq, Repr

def Sequence.SENTINEL : UInt16 := 0xffff

def Sequence.new (value : UInt16) : Option Sequence :=
  if h : value = SENTINEL then none else some ⟨value, h⟩

/-- Where to begin reading. -/
inductive LogCursor where
  /-- Everything the lock still holds, from the oldest record on. -/
  | beginning
  | after (sequence : Sequence)
  /-- Records the lock has not handed over since the last sentinel read. -/
  | sinceLastRead
deriving DecidableEq, Repr

def LogCursor.toWire (self : LogCursor) : List UInt8 :=
  let value := match self with
    | .beginning => 0
    | .after sequence => sequence.get
    | .sinceLastRead => Sequence.SENTINEL
  BigEndian.toBytes16 value

/-! ## Records -/

/-- A date and a time of day, by their fields. -/
structure NaiveDateTime where
  year : Int
  month : Nat
  day : Nat
  hour : Nat
  minute : Nat
  second : Nat
deriving DecidableEq, Repr

/-- What `chrono` decides: which dates `from_ymd_opt` and which times `and_hms_opt` accept. -/
structure Chrono where
  ymdOk : (year : Int) → (month day : Nat) → Bool
  hmsOk : (hour minute second : Nat) → Bool

/-- One entry in the lock's audit trail. -/
structure LogRecord where
  sequence : Sequence
  code : UInt8
  /-- `at` in the source. -/
  atTime : NaiveDateTime
  battery : Percent
  tail : List UInt8
deriving DecidableEq, Repr

/-- The vendor's operation codes and the two that were identified from behaviour. -/
def DESCRIPTIONS : List (UInt8 × String) :=
  [(1, "mobile unlock"), (3, "server unlock"), (4, "keyboard password unlock"),
    (5, "keyboard modify password"), (6, "keyboard remove single password"),
    (7, "error password unlock"), (8, "keyboard remove all passwords"),
    (9, "keyboard password kicked"), (10, "use delete code"), (11, "passcode expired"),
    (12, "space insufficient"), (13, "passcode in black list"), (14, "door reboot"), (15, "add ic"),
    (16, "clear ic succeed"), (17, "ic unlock succeed"), (18, "delete ic succeed"),
    (19, "bong unlock"), (20, "fr unlock succeed"), (21, "add fr"), (22, "fr unlock failed"),
    (23, "delete fr succeed"), (24, "clear fr succeed"), (25, "ic unlock failed"),
    (26, "operate ble lock"), (27, "operate key unlock"), (28, "gateway unlock"),
    (29, "illegal unlock"), (30, "door sensor lock"), (31, "door sensor unlock"),
    (32, "door go out"), (33, "fr lock"), (34, "passcode lock"), (35, "ic lock"),
    (36, "operate key lock"), (37, "remote control key"),
    (38, "passcode unlock failed lock reverse"), (39, "ic unlock failed lock reverse"),
    (40, "fr unlock failed lock reverse"), (41, "app unlock failed lock reverse"),
    (47, "keypad lock"), (48, "keypad lock failed (unconfirmed)"),
    (51, "ic unlock failed blacklist"), (52, "app dead lock"), (55, "wireless key fob"),
    (56, "wireless key pad"), (57, "qr code unlock success"), (58, "qr code unlock failed"),
    (67, "face 3d unlock success"), (68, "face 3d unlock failed lock reverse"),
    (69, "face 3d lock"), (70, "face 3d add success"), (71, "face 3d unlock failed invalid time"),
    (72, "face 3d delete success"), (73, "face 3d clear success"), (74, "cpu card unlock failed"),
    (75, "app auth key unlock success"), (76, "gateway auth key unlock success"),
    (77, "double check key unlock"), (78, "double check passcode unlock"),
    (79, "double check finger print unlock"), (80, "double check card unlock"),
    (81, "double check face unlock"), (82, "double check key fob unlock"),
    (83, "double check palm vein unlock"), (84, "palm vein unlock success"),
    (85, "palm vein unlock failed lock reverse"), (86, "palm vein lock"),
    (87, "palm vein add success"), (88, "palm vein unlock failed"),
    (89, "palm vein delete success"), (90, "palm vein clear success"), (91, "card unlock failed"),
    (92, "admin code unlock"), (93, "add passcode successfully"),
    (94, "third device unlock success"), (95, "third device lock success"),
    (96, "third device unlock failed lock reverse"),
    (97, "third device unlock failed invalid time"), (98, "double check third device verify"),
    (99, "add third device"), (100, "delete third device"), (101, "clear third device")]

/-- The name of an operation code, a `match` in the source. `none` for a code that is unknown. -/
def describe (code : UInt8) : Option String := DESCRIPTIONS.lookup code

def LogRecord.description (self : LogRecord) : Option String := describe self.code

def CODE_KEYBOARD_PASSCODE_UNLOCK : UInt8 := 4

/-- The keypad passcode that a record discloses: text behind a length byte, if it is all digits. -/
def LogRecord.passcode (self : LogRecord) : Option String := do
  if self.code ≠ CODE_KEYBOARD_PASSCODE_UNLOCK then none
  else
    let length ← self.tail.head?
    let digits := (self.tail.drop 1).take length.toNat
    if digits.length < length.toNat then none
    else
      let text ← fromUtf8 digits
      if text.toList.all Char.isDigit then some text else none

/-- One page of the log. -/
structure LogPage where
  records : List LogRecord
  /-- The sequence to continue from, or `none` at the end of the log. -/
  next : Option Sequence
deriving DecidableEq, Repr

def LogPage.isEndOfLog (self : LogPage) : Bool := self.next.isNone

/-! ## Decoding a page -/

variable (C : Cipher) (chrono : Chrono)

def pageError (reason : String) : TtlockError := .message ("operate log: " ++ reason)

/-- Six bytes of `YY MM DD HH MM SS`, with the year offset from 2000. -/
def decodeDate (yy mm dd h m s : UInt8) : Except TtlockError NaiveDateTime :=
  let year : Int := 2000 + yy.toNat
  if chrono.ymdOk year mm.toNat dd.toNat && chrono.hmsOk h.toNat m.toNat s.toNat then
    .ok ⟨year, mm.toNat, dd.toNat, h.toNat, m.toNat, s.toNat⟩
  else .error (pageError "record carries an impossible date")

/-- A record body has at least its eight-byte fixed header; `parseRecords` has checked that. -/
def parseRecord (sequence : Sequence) : List UInt8 → Except TtlockError LogRecord
  | code :: yy :: mm :: dd :: h :: m :: s :: rawBattery :: tail => do
      let atTime ← decodeDate chrono yy mm dd h m s
      match Percent.new rawBattery with
      | none => throw (pageError "record battery byte exceeds 100")
      | some battery => return { sequence, code, atTime, battery, tail }
  | _ => .error (pageError "record is shorter than its fixed header")

/-- The loop over the records of a page. Each takes at least nine bytes, so the length of the input
    is fuel enough. -/
def parseRecords (sequence : Sequence) : Nat → List UInt8 → Except TtlockError (List LogRecord)
  | _, [] => .ok []
  | 0, _ :: _ => .error (pageError "record runs past the end of the page")
  | fuel + 1, recordLength :: rest => do
      if recordLength.toNat < 8 then
        throw (pageError "record is shorter than its fixed header")
      if rest.length < recordLength.toNat then
        throw (pageError "record runs past the end of the page")
      let record ← parseRecord chrono sequence (rest.take recordLength.toNat)
      let records ← parseRecords sequence fuel (rest.drop recordLength.toNat)
      return record :: records

/-- Decode one page body: `[total_len u16][sequence u16]`, then `[record_len u8][record]` repeated. -/
def parsePage (data : List UInt8) : Except TtlockError LogPage :=
  match data with
  | l₁ :: l₀ :: body =>
      if BigEndian.ofBytes16 l₁ l₀ = 0 then .ok { records := [], next := none }
      else match body with
        | s₁ :: s₀ :: body =>
            match Sequence.new (BigEndian.ofBytes16 s₁ s₀) with
            | none => .error (pageError "page sequence is the reserved sentinel")
            | some sequence => do
                let records ← parseRecords chrono sequence body.length body
                if records.isEmpty then
                  throw (pageError "page header promised records but none decoded")
                return { records, next := some sequence }
        | _ => .error (pageError "page claims records but carries no sequence")
  | _ => .error (pageError "page has no length header")

/-! ## Fetching a page -/

structure LogPageOp where
  aesKey : AesKey
  version : LockVersion
  cursor : LogCursor
  awaitingResponse : Bool
deriving DecidableEq

namespace LogPageOp

def new (aesKey : AesKey) (version : LockVersion) (cursor : LogCursor) : LogPageOp :=
  { aesKey, version, cursor, awaitingResponse := false }

def start : OpM LogPageOp (Step LogPage) := do
  let self ← get
  let frame ← buildEnvelope C self.version COMM_GET_OPERATE_LOG self.cursor.toWire self.aesKey
  set { self with awaitingResponse := true }
  return .write frame

def handleFrame (raw : List UInt8) : OpM LogPageOp (Step LogPage) := do
  let self ← get
  if !self.awaitingResponse then throw unexpectedFrame
  let envelope ← Envelope.parse raw
  envelope.ensureCrc
  let command ← envelope.decryptCommand C self.aesKey
  parseSuccessResponse command COMM_GET_OPERATE_LOG
  let page ← parsePage chrono command.data
  set { self with awaitingResponse := false }
  return .done page

def operation : Operation LogPageOp LogPage where
  start := start C
  handleFrame _ raw := handleFrame C chrono raw

end LogPageOp

end TTLock
