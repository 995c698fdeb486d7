import TTLock.Cli.Ble
import TTLock.Cli.Worker
import TTLock.Core.Config
import TTLock.Lib.Runs

set_option autoImplicit false

/-! # Actuating the lock (`ttlock/src/main.rs`, and the worker that calls it)

`actuate` reads the credential file, scans, connects and runs the operation. `WorkerRun` is the
daemon's worker with the radio attached: what its scan hears goes to the tracker, and each command it
receives ends in a call of `actuate`, which is recorded. -/

namespace TTLock

structure ConnectOpts where
  name : Option String
  address : Option String
  scanSeconds : Nat
  connectAttempts : Nat
deriving DecidableEq, Repr

/-- What one scan-and-connect attempt meets. -/
structure Attempt where
  /-- Finding an adapter and starting the scan. -/
  startScan : Except CliError Unit
  polls : List Poll
  dial : Dial
deriving DecidableEq

/-- What one call of `actuate` meets: the credential file, and the attempts by their number. -/
structure Surroundings where
  loadLockData : Except TtlockError (List LockData)
  attempt : Nat → Attempt

/-- One scan-and-connect attempt. -/
def connectOnce (targetAddress name : Option String) (scanSeconds : Nat) (attempt : Attempt) :
    Except CliError (Link × LockVersion) := do
  attempt.startScan
  let scanned ← findLock targetAddress name scanSeconds attempt.polls
  let version := scanned.advertisement.lockVersion.getD LockVersion.default
  let connection ← BleConnection.connect attempt.dial
  return (connection, version)

/-- The retry loop of `select_and_connect`, with `left` attempts to make from number `attempt` on. -/
def connectAttempts (targetAddress name : Option String) (scanSeconds : Nat)
    (radio : Nat → Attempt) : (left attempt : Nat) → Except CliError (Link × LockVersion)
  | 0, _ => .error .deviceNotFound
  | left + 1, attempt => match connectOnce targetAddress name scanSeconds (radio attempt) with
    | .ok connected => .ok connected
    | .error e =>
        if left = 0 then .error e
        else connectAttempts targetAddress name scanSeconds radio left (attempt + 1)

/-- The address a selected entry is looked for by: the one asked for, else the entry's own. -/
def targetAddress (opts : ConnectOpts) (selected : LockData) : Option String :=
  opts.address <|> if selected.address.isEmpty then none else some selected.address

/-- Resolve the target lock and connect. -/
def selectAndConnect (opts : ConnectOpts) (around : Surroundings) :
    Except CliError (Link × LockVersion × LockData) := do
  let locks ← around.loadLockData.mapError .core
  let selected ← (selectLock locks opts.address).mapError .core
  let attempts := max opts.connectAttempts 1
  let (connection, version) ← connectAttempts (targetAddress opts selected) opts.name
    opts.scanSeconds around.attempt attempts 1
  return (connection, version, selected)

/-- Connect, run one actuation to completion, and disconnect. Whether one more frame arrives before
    that makes no difference. -/
def actuate (C : Cipher) (hexDecode : String → Except String (List UInt8)) (opts : ConnectOpts)
    (action : Actuation) (around : Surroundings) : Driven Unit :=
  let prepared : Except CliError (Link × ActuateOp) := do
    let (connection, version, lockData) ← selectAndConnect opts around
    let aesKey ← (lockData.aesKey hexDecode).mapError .core
    let unlockKey ← lockData.unlockKey.mapError .core
    return (connection, action.op aesKey unlockKey version)
  match prepared with
  | .error e => ⟨.error e, []⟩
  | .ok (connection, op) =>
      let driven := runOp (ActuateOp.operation C) op connection
      { driven with result := driven.result.bind fun () => BleConnection.disconnect connection }

/-! ## The worker with its radio (`ttlock/src/daemon.rs`) -/

/-- Which lock the daemon tracks, resolved once at startup. -/
structure Target where
  address : Option String
  name : Option String
deriving DecidableEq, Repr

def resolveTarget (connect : ConnectOpts) (loadLockData : Except TtlockError (List LockData)) :
    Except CliError Target := do
  let nonEmpty (text : Option String) : Option String := text.filter fun t => !t.isEmpty
  let name := nonEmpty connect.name
  let address ← match nonEmpty connect.address with
    | some address => pure (some address)
    | none => do
        let locks ← loadLockData.mapError .core
        let selected ← (selectLock locks none).mapError .core
        pure (nonEmpty (some selected.address))
  if address.isNone && name.isNone then
    throw (.core (.message
      "daemon needs a lock address (in lockData.json or via --address) or a --name to match advertisements"))
  return { address, name }

/-- A past call of `actuate`: the version the tracker knew then, and the frames that were written. -/
structure PastActuation where
  learned : Option LockVersion
  written : List (List UInt8)
deriving DecidableEq

/-- The worker, what it was set up with, and the actuations it has made. -/
structure WorkerRun where
  connect : ConnectOpts
  target : Target
  worker : BleWorker
  actuations : List PastActuation
deriving DecidableEq

inductive RunEvent where
  /-- The worker's timers, and the scan starting or ending. -/
  | own (event : WorkerEvent)
  /-- The scan delivers an event; `peripheral` is what the adapter gives for its id. -/
  | heard (nowMs : UInt64) (peripheral : Except CliError Peripheral) (event : CentralEvent)
  | receive (message : WorkerMessage)
  | publish
  /-- `actuate` runs, for `blind`. -/
  | actuate (around : Surroundings) (blind : Duration) (nowMs : UInt64)

namespace WorkerRun

def new (connect : ConnectOpts) (target : Target) : WorkerRun :=
  { connect, target, worker := .new, actuations := [] }

variable (C : Cipher) (hexDecode : String → Except String (List UInt8)) (offlineAfter : Duration)

def step (self : WorkerRun) : RunEvent → Option WorkerRun
  | .own event => match event with
      | .advertisement .. | .actuated .. => none
      | .scanStarted | .scanFailed | .eventsEnded | .retryElapsed | .offlineTick _ =>
          (self.worker.step offlineAfter event).map fun worker => { self with worker }
  | .heard nowMs peripheral event =>
      match advertisementFromEvent peripheral event self.target.address self.target.name with
      | none => some self
      | some advertisement =>
          (self.worker.step offlineAfter (.advertisement nowMs advertisement)).map fun worker =>
            { self with worker }
  | .receive message => (self.worker.receive message).map fun worker => { self with worker }
  | .publish => self.worker.published.map fun (_, worker) => { self with worker }
  | .actuate around blind nowMs => match self.worker.activity with
      | .waiting | .publishing .. => none
      | .actuating action =>
          let driven := TTLock.actuate C hexDecode self.connect action around
          let succeeded := driven.result.toBool
          (self.worker.step offlineAfter (.actuated succeeded blind nowMs)).map fun worker =>
            { self with
              worker
              actuations := self.actuations ++ [⟨self.worker.tracker.lockVersion, driven.written⟩] }

end WorkerRun

end TTLock
