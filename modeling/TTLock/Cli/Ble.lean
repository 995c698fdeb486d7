import TTLock.Core.Advertisement
import TTLock.Core.Ops
import Mathlib.Data.List.Infix

set_option autoImplicit false

/-! # The radio (`ttlock/src/ble.rs`)

Scanning for the lock, connecting to it and driving an operation over the connection. The Bluetooth
stack answers as it likes: its answers are inputs, lists of them where a loop asks again, and a loop
whose list has run out has reached its deadline. -/

namespace TTLock

/-- The part of the error type that Bluetooth, the credential file and the import can cause. A driver
    error is its `{:?}` rendering. -/
inductive CliError where
  | core (error : TtlockError)
  | ble (rendered : String)
  | sqlite (rendered : String)
  | noAdapter
  | deviceNotFound
  | writeCharacteristicNotFound
  | notifyCharacteristicNotFound
  | timeout
  | disconnected
deriving DecidableEq, Repr

/-- `str::contains`, on characters. -/
def contains (text pattern : List Char) : Bool := decide (pattern <:+: text)

/-! ## Scanning -/

/-- What the stack says about a peripheral when asked for its properties. -/
structure PeripheralProperties where
  localName : Option String
  manufacturerData : ManufacturerData
deriving DecidableEq

/-- A peripheral the adapter lists. On macOS its `address` is all zeros. -/
structure Peripheral where
  address : String
  properties : Except CliError (Option PeripheralProperties)
deriving DecidableEq

structure PeripheralInfo where
  localName : Option String
  address : String
  manufacturerData : ManufacturerData
deriving DecidableEq

def propertiesFor (peripheral : Peripheral) : Except CliError PeripheralInfo := do
  match ← peripheral.properties with
  | none => return {
      localName := none, address := peripheral.address
      manufacturerData := ⟨[], List.nodup_nil⟩ }
  | some p => return {
      localName := p.localName, address := peripheral.address
      manufacturerData := p.manufacturerData }

structure ScannedLock where
  peripheral : Peripheral
  localName : Option String
  btleplugAddress : String
  advertisement : Advertisement
deriving DecidableEq

def matchesTarget (lock : ScannedLock) (targetAddress targetName : Option String) : Bool :=
  let addressMatch := targetAddress.any fun target =>
    eqIgnoreAsciiCase lock.btleplugAddress target ||
      lock.advertisement.address.any fun address => eqIgnoreAsciiCase address target
  let nameMatch := targetName.any fun target =>
    lock.localName.any fun name => contains (toAsciiLowercase name) (toAsciiLowercase target)
  addressMatch || nameMatch

/-- One round of the scan loop: the clock when it begins, in milliseconds since the scan did, and what
    the adapter lists. -/
structure Poll where
  elapsedMs : Nat
  peripherals : Except CliError (List Peripheral)
deriving DecidableEq

/-- The inner loop of `find_lock`. -/
def findAmong (targetAddress targetName : Option String) : List Peripheral → Option ScannedLock
  | [] => none
  | peripheral :: rest =>
      -- the fast path: a saved address that matches is enough, the properties are not asked for
      if targetAddress.any fun target => eqIgnoreAsciiCase peripheral.address target then
        some {
          peripheral, localName := none, btleplugAddress := peripheral.address
          advertisement := .unrecognized }
      else
        let lock : ScannedLock := match propertiesFor peripheral with
          | .ok info => {
              peripheral, localName := info.localName, btleplugAddress := info.address
              advertisement := parseManufacturerMap info.manufacturerData targetAddress }
          | .error _ => {
              peripheral, localName := none, btleplugAddress := peripheral.address
              advertisement := .unrecognized }
        if matchesTarget lock targetAddress targetName then some lock
        else findAmong targetAddress targetName rest

/-- `find_lock`, once the adapter is scanning. -/
def findLock (targetAddress targetName : Option String) (seconds : Nat) :
    List Poll → Except CliError ScannedLock
  | [] => .error .deviceNotFound
  | poll :: polls =>
      if poll.elapsedMs < seconds * 1000 then do
        let peripherals ← poll.peripherals
        match findAmong targetAddress targetName peripherals with
        | some lock => return lock
        | none => findLock targetAddress targetName seconds polls
      else .error .deviceNotFound

/-! ## Advertisements of the continuous scan -/

/-- An adapter event. All but the first two kinds are never looked into. -/
inductive CentralEvent where
  | manufacturerDataAdvertisement (manufacturerData : ManufacturerData)
  | deviceDiscovered
  | other
deriving DecidableEq

/-- Whether lock state is derived from an event, and the payload it carries. -/
def stateBearingEvent : CentralEvent → Option (Option ManufacturerData)
  | .manufacturerDataAdvertisement manufacturerData => some (some manufacturerData)
  | .deviceDiscovered => some none
  | .other => none

/-- `advertisement_from_event`. `peripheral` is what the adapter gives for the event's id. -/
def advertisementFromEvent (peripheral : Except CliError Peripheral) (event : CentralEvent)
    (targetAddress targetName : Option String) : Option Advertisement := do
  let payload ← stateBearingEvent event
  let peripheral ← peripheral.toOption
  let info ← (propertiesFor peripheral).toOption
  let advertisement := parseManufacturerMap (payload.getD info.manufacturerData) targetAddress
  let lock : ScannedLock := {
    peripheral, localName := info.localName, btleplugAddress := info.address, advertisement }
  if matchesTarget lock targetAddress targetName then some lock.advertisement else none

/-! ## Connecting -/

/-- `is_bluez_stale_object_error`. -/
def isBluezStaleObjectError (rendered : String) : Bool :=
  ["UnknownObject", "GetAll", "No discovery started"].any fun s => contains rendered.toList s.toList

/-- Try something again after it failed. Of two failures the second is told only if it is the
    stale-object symptom. -/
def twice (first second : Except String Unit) : Except CliError Unit :=
  match first, second with
  | .ok (), _ | .error _, .ok () => .ok ()
  | .error e, .error e' => .error (.ble (if isBluezStaleObjectError e' then e' else e))

/-- A connection, by what it will answer: the outcome of each write to come, then each read to come
    with the clock after it. A read that times out is an `.error .timeout`, whether the transport says
    so or the deadline had passed before. -/
structure Link where
  writes : List (Except CliError Unit)
  reads : List (Except CliError (Int × List UInt8))
  disconnect : Except String Unit
deriving DecidableEq

/-- What the stack answers while a connection is made. -/
structure Dial where
  connect : Except String Unit
  connectAgain : Except String Unit
  discoverServices : Except String Unit
  discoverServicesAgain : Except String Unit
  hasWriteCharacteristic : Bool
  hasNotifyCharacteristic : Bool
  notifications : Except String Unit
  subscribe : Except String Unit
  link : Link
deriving DecidableEq

/-- `BleConnection::connect`. -/
def BleConnection.connect (dial : Dial) : Except CliError Link := do
  twice dial.connect dial.connectAgain
  twice dial.discoverServices dial.discoverServicesAgain
  if !dial.hasWriteCharacteristic then throw .writeCharacteristicNotFound
  if !dial.hasNotifyCharacteristic then throw .notifyCharacteristicNotFound
  dial.notifications.mapError .ble
  dial.subscribe.mapError .ble
  return dial.link

/-- `BleConnection::disconnect`. -/
def BleConnection.disconnect (self : Link) : Except CliError Unit :=
  match self.disconnect with
  | .ok () => .ok ()
  | .error e => if isBluezStaleObjectError e then .ok () else .error (.ble e)

/-! ## Driving an operation -/

def CRC_RETRIES : Nat := 2
def MAX_STRAY_FRAMES : Nat := 4

/-- How a call over a link ended, and every frame it handed to the link for writing. -/
structure Driven (T : Type) where
  result : Except CliError T
  written : List (List UInt8)
deriving DecidableEq

/-- Write `frame`, and go on if that succeeds. The rest of the link's writes is the continuation's. -/
def writeFrame {T : Type} (frame : List UInt8) (writes : List (Except CliError Unit))
    (next : List (Except CliError Unit) → Driven T) : Driven T :=
  let driven : Driven T := match writes with
    | [] => ⟨.error .disconnected, []⟩
    | .error e :: _ => ⟨.error e, []⟩
    | .ok () :: writes => next writes
  { driven with written := frame :: driven.written }

/-- The loops of `run_op`, from where it waits for the reply to `frame`. -/
def awaitReply {σ T : Type} (op : Operation σ T) (frame : List UInt8) (crcRetries strayFrames : Nat)
    (self : σ) (writes : List (Except CliError Unit)) :
    List (Except CliError (Int × List UInt8)) → Driven T
  | [] => ⟨.error .timeout, []⟩
  | .error e :: _ => ⟨.error e, []⟩
  | .ok (now, raw) :: reads => match (op.handleFrame now raw).call self with
    | (.ok (.done output), _) => ⟨.ok output, []⟩
    | (.ok (.write next), self) =>
        writeFrame next writes fun writes => awaitReply op next 0 0 self writes reads
    | (.error e, self) =>
        -- not our reply: discard it and keep reading, without re-sending
        if e.isStaleFrame && strayFrames < MAX_STRAY_FRAMES then
          awaitReply op frame crcRetries (strayFrames + 1) self writes reads
        else if e.isRetryable && crcRetries < CRC_RETRIES then
          writeFrame frame writes fun writes =>
            awaitReply op frame (crcRetries + 1) strayFrames self writes reads
        else ⟨.error (.core e), []⟩

/-- Drive an operation over a link. -/
def runOp {σ T : Type} (op : Operation σ T) (self : σ) (link : Link) : Driven T :=
  match op.start.call self with
  | (.error e, _) => ⟨.error (.core e), []⟩
  | (.ok (.done output), _) => ⟨.ok output, []⟩
  | (.ok (.write frame), self) =>
      writeFrame frame link.writes fun writes => awaitReply op frame 0 0 self writes link.reads

end TTLock
