import TTLock.HomeAssistant.Coordinator
import TTLock.HomeAssistant.Exchange
import TTLock.Lib.FairLock

set_option autoImplicit false

/-! # Commands that overlap (`custom_components/ttlock_ble/coordinator.py`)

`_async_actuate`, `async_refresh_status`, `_async_run_op` and `_async_connect_and_drive`, called any number
of times at once. A call runs until it awaits something, and goes on when that has come. What comes, and
when, is not up to it. `_async_drive` is one such wait here: in between it touches nothing that another
call sees but the link. A call is not cancelled. -/

namespace TTLock

/-! ## Attempts -/

/-- The wait after the first failed attempt, in seconds. -/
def RETRY_BASE_DELAY : Nat := 2

def RETRY_MAX_DELAY : Nat := 15

/-- The wait after failed attempt number `attempt`. -/
def retryDelay (attempt : Nat) : Nat := min (RETRY_BASE_DELAY * 2 ^ (attempt - 1)) RETRY_MAX_DELAY

/-- Whether an exception with this traceback (its files, outermost first) is the package's own. -/
def raisedInThisIntegration (packageDir : String) (traceback : List String) : Bool :=
  match traceback.getLast? with
  | none => false
  | some innermost => innermost.startsWith packageDir

/-- What an exception of the Bluetooth stack is. -/
structure BleakException where
  /-- One of `BLEAK_RETRY_EXCEPTIONS`. -/
  retryable : Bool
  attributeError : Bool
  traceback : List String

/-- What a call asks for. -/
inductive CallRequest where
  /-- `async_lock` or `async_unlock`. -/
  | actuate (action : Actuation)
  /-- `async_refresh_status`. -/
  | status
deriving DecidableEq, Repr

/-- What an operation gives. -/
inductive Output where
  | actuated
  | status (state : LockState)
deriving DecidableEq, Repr

/-- What a call raises. -/
inductive CallError where
  /-- The exception of its last attempt. -/
  | raised (err : HaError)
  /-- "failed after {attempts} attempt(s)". -/
  | failedAfter (attempts : Nat) (lastError : HaError)
deriving DecidableEq

/-- What a coordinator is set up with. -/
structure Setup (τ : Type) where
  cipher : Cipher
  aesKey : AesKey
  unlockKey : UnlockKey
  connectAttempts : Int
  packageDir : String
  /-- What the stack's exceptions are, by their texts. -/
  exception : String → BleakException
  client : Transport HaError τ

namespace Setup

variable {τ : Type} (setup : Setup τ)

/-- `max(1, connect_attempts)`. -/
def attempts : Nat := (max 1 setup.connectAttempts).toNat

/-- Whether another attempt may follow. -/
def retries : HaError → Bool
  | .transient => true
  | .bleak rendered =>
      let err := setup.exception rendered
      err.retryable &&
        !(err.attributeError && raisedInThisIntegration setup.packageDir err.traceback)
  | .ttlock _ | .homeAssistantError _ | .assertion => false

/-- `_async_drive` with an operation that is built for the call. None of them takes more than two
    replies. -/
def drive (request : CallRequest) (version : Option LockVersion) (link : τ) :
    Option (Except HaError Output × τ) :=
  let version := version.getD LockVersion.default
  match request with
  | .actuate action =>
      (HomeAssistant.asyncDrive setup.client (ActuateOp.operation setup.cipher) 2
        (action.op setup.aesKey setup.unlockKey version) link).map fun (result, _, link) =>
          (result.map fun () => .actuated, link)
  | .status =>
      (HomeAssistant.asyncDrive setup.client (StatusOp.operation setup.cipher) 2
        (StatusOp.new setup.aesKey version) link).map fun (result, _, link) =>
          (result.map .status, link)

end Setup

/-! ## One call -/

/-- What the call that holds the connect lock awaits. -/
inductive Work where
  /-- A connection. The operation was built before it was asked for. -/
  | connecting (attempt : Nat) (version : Option LockVersion)
  | driving (attempt : Nat) (version : Option LockVersion)
  /-- `stop_notify`, in the `finally`. -/
  | stopping (attempt : Nat) (drove : Except HaError Output)
  /-- `disconnect`. -/
  | disconnecting (attempt : Nat) (drove : Except HaError Output)
  | sleeping (attempt : Nat)

/-- What it does next. -/
inductive Turn where
  | goesOn (work : Work)
  | ends (result : Except CallError Output)

/-- What comes of what is awaited. -/
inductive Wakeup (τ : Type) where
  /-- A connection, with the lock at the other end as `link` says. -/
  | connected (link : τ)
  /-- An exception. If no device is in range, `_TransientError`. -/
  | raised (err : HaError)
  | drove
  /-- `stop_notify`, `disconnect` or `sleep` returned. -/
  | returned

variable {τ : Type}

/-- The `except` clause of the loop over the attempts. -/
def Setup.afterFailure (setup : Setup τ) (attempt : Nat) (err : HaError) : Turn :=
  if setup.retries err then
    -- no backoff after the last attempt
    if attempt = setup.attempts then .ends (.error (.failedAfter setup.attempts err))
    else .goesOn (.sleeping attempt)
  else .ends (.error (.raised err))

/-- The call goes on, with the version the tracker has `learned` by now. Whatever `stop_notify` and
    `disconnect` raise is suppressed. -/
def Work.resume (setup : Setup τ) (request : CallRequest) (learned : Option LockVersion) :
    Work → Wakeup τ → τ → Option (Turn × τ)
  | .connecting attempt version, .connected link, _ => some (.goesOn (.driving attempt version), link)
  | .connecting attempt _, .raised err, link => some (setup.afterFailure attempt err, link)
  | .driving attempt version, .drove, link =>
      (setup.drive request version link).map fun (drove, link) =>
        (.goesOn (.stopping attempt drove), link)
  | .driving attempt _, .raised err, link =>
      -- `start_notify` failed
      some (.goesOn (.stopping attempt (.error err)), link)
  | .stopping attempt drove, .returned, link | .stopping attempt drove, .raised _, link =>
      some (.goesOn (.disconnecting attempt drove), link)
  | .disconnecting attempt drove, .returned, link | .disconnecting attempt drove, .raised _, link =>
      match drove with
      | .ok output => some (.ends (.ok output), link)
      | .error err => some (setup.afterFailure attempt err, link)
  -- the next attempt builds its operation anew
  | .sleeping attempt, .returned, link => some (.goesOn (.connecting (attempt + 1) learned), link)
  | _, _, _ => none

/-! ## All calls -/

inductive Phase where
  /-- It waits for the connect lock. -/
  | acquiring
  | working (work : Work)
  | ended (result : Except CallError Output)

structure Call where
  request : CallRequest
  phase : Phase

/-- What is done to a link. -/
inductive LinkAct where
  | connected (attempt : Nat)
  | stopNotify (attempt : Nat)
  | disconnect (attempt : Nat)
  | slept (seconds : Nat)
deriving DecidableEq, Repr

/-- What a call has done when it gets to this point. -/
def Work.act : Work → Option LinkAct
  | .connecting .. => none
  | .driving attempt _ => some (.connected attempt)
  | .stopping attempt _ => some (.stopNotify attempt)
  | .disconnecting attempt _ => some (.disconnect attempt)
  | .sleeping attempt => some (.slept (retryDelay attempt))

/-- The coordinator and its calls, in the order they were made. -/
structure CoordinatorRun (τ : Type) where
  tracker : LockTracker
  connectLock : FairLock Nat
  calls : List Call
  /-- The link as the connection that was made last has left it. -/
  link : τ
  /-- What was done to links so far, and by which call. -/
  log : List (Nat × LinkAct)

inductive CallEvent (τ : Type) where
  | called (request : CallRequest)
  /-- The first call that waits for the connect lock gets its turn. -/
  | granted
  | resumed (number : Nat) (wakeup : Wakeup τ) (blind : Duration) (nowMs : UInt64)
  | advertisement (nowMs : UInt64) (advertisement : Advertisement)
  | unavailable

namespace CoordinatorRun

def idle (tracker : LockTracker) (link : τ) : CoordinatorRun τ :=
  { tracker, connectLock := .free, calls := [], link, log := [] }

def setPhase (number : Nat) (phase : Phase) (calls : List Call) : List Call :=
  calls.modify number fun call => { call with phase }

/-- What the tracker is told when a call has ended. -/
def finished (request : CallRequest) (result : Except CallError Output) (blind : Duration) (nowMs : UInt64)
    (tracker : LockTracker) : LockTracker :=
  match request, result with
  | .actuate action, .ok _ => ((tracker.creditBlindTime blind).onCommandAcknowledged nowMs action).1
  | .actuate _, .error _ => (tracker.creditBlindTime blind).onCommandFailed.1
  | .status, .ok (.status .locked) => (tracker.onCommandAcknowledged nowMs .lock).1
  | .status, .ok (.status .unlocked) => (tracker.onCommandAcknowledged nowMs .unlock).1
  | .status, _ => tracker

/-- What the tracker is told when a call is made. -/
def announced (request : CallRequest) (tracker : LockTracker) : LockTracker :=
  match request with
  | .actuate action => (tracker.onCommandStarted action).1
  | .status => tracker

def step (setup : Setup τ) (run : CoordinatorRun τ) : CallEvent τ → Option (CoordinatorRun τ)
  | .called request =>
      let tracker := announced request run.tracker
      let number := run.calls.length
      let connectLock := run.connectLock.acquire number
      let phase := if connectLock.holder = some number then .working (.connecting 1 tracker.lockVersion)
        else .acquiring
      some { run with tracker, connectLock, calls := run.calls ++ [{ request, phase }] }
  | .granted => run.connectLock.grant.map fun (number, connectLock) =>
      { run with
        connectLock
        calls := setPhase number (.working (.connecting 1 run.tracker.lockVersion)) run.calls }
  | .resumed number wakeup blind nowMs => match run.calls[number]? with
      | some { request, phase := .working work } =>
          (work.resume setup request run.tracker.lockVersion wakeup run.link).map fun
            | (.goesOn work, link) =>
                { run with
                  calls := setPhase number (.working work) run.calls
                  link
                  log := run.log ++ work.act.toList.map fun act => (number, act) }
            | (.ends result, link) =>
                { run with
                  tracker := finished request result blind nowMs run.tracker
                  connectLock := run.connectLock.release
                  calls := setPhase number (.ended result) run.calls
                  link }
      | _ => none
  | .advertisement nowMs advertisement =>
      some { run with tracker := (run.tracker.onAdvertisement nowMs advertisement).1 }
  | .unavailable => some { run with tracker := run.tracker.onUnavailable.1 }

end CoordinatorRun

end TTLock
