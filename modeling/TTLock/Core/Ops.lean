import TTLock.Core.Packet

set_option autoImplicit false

/-! # Operations (`ttlock-core/src/ops.rs`)

An operation is a protocol exchange driven by its caller: `start` gives the first frame to write,
`handleFrame` takes each reassembled response. Both are methods on `&mut self` that may return early
with an error, so they live in `OpM`: a failing method keeps whatever it had written to the state by
then. -/

namespace TTLock

/-- A fallible method on `&mut self`. -/
abbrev OpM (σ α : Type) := ExceptT TtlockError (StateM σ) α

/-- Call a method: its result and the state it leaves. -/
def OpM.call {σ α : Type} (method : OpM σ α) (self : σ) : Except TtlockError α × σ :=
  method.run.run self

inductive Step (T : Type) where
  /-- Write this frame to the lock and wait for a response frame. -/
  | write (frame : List UInt8)
  | done (output : T)
deriving DecidableEq, Repr

/-- The `Operation` trait. `now` is the clock a `handleFrame` call may read. -/
structure Operation (σ T : Type) where
  start : OpM σ (Step T)
  handleFrame : (now : Int) → (raw : List UInt8) → OpM σ (Step T)

/-- Parse, CRC-check, and decrypt one response frame. -/
def decryptResponse (C : Cipher) (raw : List UInt8) (aesKey : AesKey) :
    Except TtlockError PlainCommand := do
  let envelope ← Envelope.parse raw
  envelope.ensureCrc
  envelope.decryptCommand C aesKey

def unexpectedFrame : TtlockError := .message "received a frame when none was expected"

/-! ## Status -/

inductive LockState where
  | locked
  | unlocked
  /-- A status byte that is not recognized, preserved as it is. -/
  | unknown (value : UInt8)
deriving DecidableEq, Repr

def LockState.ofByte (value : UInt8) : LockState :=
  if value = 0 then .locked else if value = 1 then .unlocked else .unknown value

structure StatusOp where
  aesKey : AesKey
  version : LockVersion
  awaitingResponse : Bool
deriving DecidableEq

namespace StatusOp

variable (C : Cipher)

def new (aesKey : AesKey) (version : LockVersion) : StatusOp :=
  { aesKey, version, awaitingResponse := false }

def start : OpM StatusOp (Step LockState) := do
  let self ← get
  let frame ← buildEnvelope C self.version COMM_SEARCH_BICYCLE_STATUS "SCIENER".toUTF8.toList
    self.aesKey
  set { self with awaitingResponse := true }
  return .write frame

def handleFrame (raw : List UInt8) : OpM StatusOp (Step LockState) := do
  let self ← get
  if !self.awaitingResponse then throw unexpectedFrame
  let plain ← decryptResponse C raw self.aesKey
  let state ← parseStatusResponse plain
  set { self with awaitingResponse := false }
  -- `u8::try_from(state).unwrap_or(u8::MAX)`
  return .done (LockState.ofByte (if 0 ≤ state ∧ state < 256 then UInt8.ofNat state.toNat else 255))

def operation : Operation StatusOp LockState where
  start := start C
  handleFrame _ raw := handleFrame C raw

end StatusOp

/-! ## Lock and unlock -/

/-- Which way to move the bolt. -/
inductive Actuation where
  | lock
  | unlock
deriving DecidableEq, Repr

def Actuation.commandType : Actuation → UInt8
  | .lock => COMM_FUNCTION_LOCK
  | .unlock => COMM_UNLOCK

inductive ActuateState where
  | idle
  | awaitingCheckUserTime
  | awaitingActuate
  | done
deriving DecidableEq, Repr

/-- A check-user-time handshake followed by the actuation command. -/
structure ActuateOp where
  commandType : UInt8
  aesKey : AesKey
  unlockKey : UnlockKey
  version : LockVersion
  state : ActuateState
deriving DecidableEq

namespace ActuateOp

variable (C : Cipher)

def new (commandType : UInt8) (aesKey : AesKey) (unlockKey : UnlockKey) (version : LockVersion) :
    ActuateOp :=
  { commandType, aesKey, unlockKey, version, state := .idle }

def start : OpM ActuateOp (Step Unit) := do
  let self ← get
  let payload := buildCheckUserTimePayload 0 "0001311400" "9911301400" 0
  let frame ← buildEnvelope C self.version COMM_CHECK_USER_TIME payload self.aesKey
  set { self with state := ActuateState.awaitingCheckUserTime }
  return .write frame

def handleFrame (now : Int) (raw : List UInt8) : OpM ActuateOp (Step Unit) := do
  let self ← get
  match self.state with
  | .awaitingCheckUserTime =>
      let plain ← decryptResponse C raw self.aesKey
      let psFromLock ← parseCheckUserTimeResponse plain
      let payload := buildLockPayload now psFromLock self.unlockKey
      let frame ← buildEnvelope C self.version self.commandType payload self.aesKey
      set { self with state := ActuateState.awaitingActuate }
      return .write frame
  | .awaitingActuate =>
      let plain ← decryptResponse C raw self.aesKey
      parseSuccessResponse plain self.commandType
      set { self with state := ActuateState.done }
      return .done ()
  | .idle | .done => throw unexpectedFrame

def operation : Operation ActuateOp Unit where
  start := start C
  handleFrame := handleFrame C

end ActuateOp

/-- Build the operation that performs this actuation. -/
def Actuation.op (self : Actuation) (aesKey : AesKey) (unlockKey : UnlockKey)
    (version : LockVersion) : ActuateOp :=
  ActuateOp.new self.commandType aesKey unlockKey version

/-- `LockOp` and `UnlockOp` wrap an `ActuateOp` and delegate both methods to it. -/
abbrev LockOp := ActuateOp
abbrev UnlockOp := ActuateOp

def LockOp.new (aesKey : AesKey) (unlockKey : UnlockKey) (version : LockVersion) : LockOp :=
  ActuateOp.new COMM_FUNCTION_LOCK aesKey unlockKey version

def LockOp.operation (C : Cipher) : Operation LockOp Unit := ActuateOp.operation C

def UnlockOp.new (aesKey : AesKey) (unlockKey : UnlockKey) (version : LockVersion) : UnlockOp :=
  ActuateOp.new COMM_UNLOCK aesKey unlockKey version

def UnlockOp.operation (C : Cipher) : Operation UnlockOp Unit := ActuateOp.operation C

end TTLock
