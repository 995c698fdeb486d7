import TTLock.Core.Advertisement
import TTLock.Core.Ops

set_option autoImplicit false

/-! # The tracker (`ttlock-core/src/tracker.rs`)

What is believed about a lock, and why. The rule: never report a bolt position that has not been
observed. Every mutating method also returns which observable facts it changed. -/

namespace TTLock

/-- The state to report to a home-automation system. -/
inductive ReportedState where
  | locked
  | unlocked
  /-- A lock command is in flight. Says nothing about the bolt. -/
  | locking
  | unlocking
deriving DecidableEq, Repr

def ReportedState.payload : ReportedState → String
  | .locked => "LOCKED"
  | .unlocked => "UNLOCKED"
  | .locking => "LOCKING"
  | .unlocking => "UNLOCKING"

/-- Which observable facts changed. -/
structure Changed where
  state : Bool
  available : Bool
  battery : Bool
deriving DecidableEq, Repr

def Changed.ALL : Changed := { state := true, available := true, battery := true }

/-- `Changed::default`: nothing changed. -/
def Changed.default : Changed := { state := false, available := false, battery := false }

/-- What is known about the bolt. -/
inductive Knowledge where
  | unknown
  /-- A position was observed, and no command is in flight. -/
  | observed (bolt : Bolt)
  /-- A command is in flight; its outcome is not yet known. -/
  | inProgress (lastObserved : Option Bolt) (action : Actuation)
deriving DecidableEq, Repr

/-- The last observed position, ignoring any command in flight. -/
def Knowledge.observed? : Knowledge → Option Bolt
  | .unknown => none
  | .observed bolt => some bolt
  | .inProgress lastObserved _ => lastObserved

/-- The command in flight, if any. -/
def Knowledge.pending : Knowledge → Option Actuation
  | .inProgress _ action => some action
  | .unknown | .observed _ => none

/-! ## Time

Instants are the caller's monotonic milliseconds in a `u64`; spans are `std::time::Duration`s. -/

/-- `u64::MAX`, in milliseconds wherever it is used here. -/
def U64_MAX : Nat := 18446744073709551615

structure Duration where
  secs : UInt64
  nanos : UInt32
  nanos_lt : nanos < 1000000000
deriving DecidableEq, Repr

/-- `Duration::from_secs`. -/
def Duration.fromSecs (secs : UInt64) : Duration := ⟨secs, 0, by decide⟩

def Duration.asMillis (d : Duration) : Nat := d.secs.toNat * 1000 + d.nanos.toNat / 1000000

/-- `u64::try_from(d.as_millis()).unwrap_or(u64::MAX)`. -/
def Duration.millisU64 (d : Duration) : UInt64 := UInt64.ofNat (min d.asMillis U64_MAX)

/-- `u64::saturating_add`. -/
def saturatingAdd (a b : UInt64) : UInt64 := UInt64.ofNat (min (a.toNat + b.toNat) U64_MAX)

/-- `u64::saturating_sub`. -/
def saturatingSub (a b : UInt64) : UInt64 := UInt64.ofNat (a.toNat - b.toNat)

/-! ## The tracker -/

structure LockTracker where
  knowledge : Knowledge
  battery : Option Percent
  version : Option LockVersion
  available : Bool
  lastSeenMs : Option UInt64
deriving DecidableEq, Repr

/-- Everything a caller can publish, used to diff a mutation against what preceded it. -/
structure Snapshot where
  state : Option ReportedState
  available : Bool
  battery : Option Percent
deriving DecidableEq, Repr

namespace LockTracker

/-- A tracker that has heard nothing yet. -/
def new : LockTracker :=
  { knowledge := .unknown, battery := none, version := none, available := false, lastSeenMs := none }

/-- What to report, or `none` if nothing has ever been observed. -/
def reportedState (self : LockTracker) : Option ReportedState :=
  match self.knowledge with
  | .unknown => none
  | .observed .locked => some .locked
  | .observed .unlocked => some .unlocked
  | .inProgress _ .lock => some .locking
  | .inProgress _ .unlock => some .unlocking

/-- The last observed bolt position, ignoring any command in flight. -/
def isLocked (self : LockTracker) : Option Bool := self.knowledge.observed?.map Bolt.isLocked

def pending (self : LockTracker) : Option Actuation := self.knowledge.pending

def batteryLevel (self : LockTracker) : Option UInt8 := self.battery.map Percent.get

def lockVersion (self : LockTracker) : Option LockVersion := self.version

def snapshot (self : LockTracker) : Snapshot :=
  { state := self.reportedState, available := self.available, battery := self.battery }

def diff (before after : Snapshot) : Changed :=
  { state := before.state != after.state
    available := before.available != after.available
    battery := before.battery != after.battery }

/-! ## Mutating methods -/

/-- Record an advertisement, received at `nowMs`. -/
def onAdvertisement (self : LockTracker) (nowMs : UInt64) (advertisement : Advertisement) :
    LockTracker × Changed :=
  let before := self.snapshot
  let self := match advertisement.status with
    | some status =>
        let self := { self with knowledge := .observed status.bolt }
        match status.battery with
        | some battery => { self with battery := some battery }
        | none => self
    | none => self
  let self := match advertisement.lockVersion with
    | some version => { self with version := some version }
    | none => self
  let self := { self with lastSeenMs := some nowMs, available := true }
  (self, diff before self.snapshot)

/-- Record that a command has been sent and its outcome is not yet known. -/
def onCommandStarted (self : LockTracker) (action : Actuation) : LockTracker × Changed :=
  let before := self.snapshot
  let self := { self with knowledge := .inProgress self.knowledge.observed? action }
  (self, diff before self.snapshot)

/-- Record that the lock acknowledged a command. -/
def onCommandAcknowledged (self : LockTracker) (nowMs : UInt64) (action : Actuation) :
    LockTracker × Changed :=
  let before := self.snapshot
  let bolt := match action with
    | .lock => Bolt.locked
    | .unlock => Bolt.unlocked
  let self := { self with
    knowledge := .observed bolt, lastSeenMs := some nowMs, available := true }
  (self, diff before self.snapshot)

/-- Record that a command failed. Its outcome stays unknown, so nothing changes. -/
def onCommandFailed (self : LockTracker) : LockTracker × Changed :=
  let before := self.snapshot
  (self, diff before self.snapshot)

/-- Give back time during which the radio could not have heard an advertisement. -/
def creditBlindTime (self : LockTracker) (blind : Duration) : LockTracker :=
  match self.lastSeenMs with
  | some lastSeen => { self with lastSeenMs := some (saturatingAdd lastSeen blind.millisU64) }
  | none => self

/-- Record that the lock can no longer be heard. -/
def onUnavailable (self : LockTracker) : LockTracker × Changed :=
  let before := self.snapshot
  let self := { self with available := false }
  let self := match self.knowledge.observed? with
    | some bolt => { self with knowledge := .observed bolt }
    | none => { self with knowledge := .unknown }
  (self, diff before self.snapshot)

/-- Whether nothing has been heard for `offlineAfter`. -/
def expired (self : LockTracker) (nowMs : UInt64) (offlineAfter : Duration) : Bool :=
  match self.lastSeenMs with
  | some seen => saturatingSub nowMs seen ≥ offlineAfter.millisU64
  | none => true

/-- Expire availability if nothing has been heard for `offlineAfter`. -/
def pollAvailability (self : LockTracker) (nowMs : UInt64) (offlineAfter : Duration) :
    LockTracker × Changed :=
  if self.expired nowMs offlineAfter then self.onUnavailable
  else (self, Changed.default)

end LockTracker

/-! ## Runs -/

/-- One call of a mutating method. -/
inductive TrackerCall where
  | onAdvertisement (nowMs : UInt64) (advertisement : Advertisement)
  | onCommandStarted (action : Actuation)
  | onCommandAcknowledged (nowMs : UInt64) (action : Actuation)
  | onCommandFailed
  | creditBlindTime (blind : Duration)
  | pollAvailability (nowMs : UInt64) (offlineAfter : Duration)
  | onUnavailable
deriving DecidableEq

/-- The tracker after one call. -/
def LockTracker.apply (self : LockTracker) : TrackerCall → LockTracker
  | .onAdvertisement nowMs advertisement => (self.onAdvertisement nowMs advertisement).1
  | .onCommandStarted action => (self.onCommandStarted action).1
  | .onCommandAcknowledged nowMs action => (self.onCommandAcknowledged nowMs action).1
  | .onCommandFailed => self.onCommandFailed.1
  | .creditBlindTime blind => self.creditBlindTime blind
  | .pollAvailability nowMs offlineAfter => (self.pollAvailability nowMs offlineAfter).1
  | .onUnavailable => self.onUnavailable.1

/-- The tracker after a sequence of calls. -/
def LockTracker.run (self : LockTracker) (calls : List TrackerCall) : LockTracker :=
  calls.foldl LockTracker.apply self

end TTLock
