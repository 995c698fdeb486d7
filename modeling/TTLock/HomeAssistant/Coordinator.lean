import TTLock.Core.Tracker
import TTLock.Lib.Runs

set_option autoImplicit false

/-! # The Home Assistant coordinator (`custom_components/ttlock_ble/coordinator.py`)

`_async_actuate` records that a command was started before it waits for the connect lock, and how it
ended after it has given the lock back; the lock is first come, first served. So of any number of
overlapping calls the one started first finishes first, and in between the tracker hears everything:
later starts and advertisements. How the connection is made and driven is left out; an operation
succeeds or fails. -/

namespace TTLock

/-- A command that was started, and whether a bolt-bearing advertisement arrived since. -/
structure Issued where
  action : Actuation
  heardSince : Bool
deriving DecidableEq, Repr

/-- How the last command to finish did. -/
structure Finished where
  failed : Bool
  heardSince : Bool
deriving DecidableEq, Repr

/-- The coordinator, its unfinished commands in the order they were started, and the last one that
    finished. The first of the unfinished ones holds the connect lock. -/
structure Coordinator where
  tracker : LockTracker
  unfinished : List Issued
  lastFinished : Option Finished
deriving DecidableEq

inductive CoordinatorEvent where
  /-- `async_lock` or `async_unlock` is called. -/
  | started (action : Actuation)
  /-- The operation of the command that holds the lock returned, after `blind`. -/
  | acknowledged (blind : Duration) (nowMs : UInt64)
  /-- It raised. -/
  | failed (blind : Duration)
  | advertisement (nowMs : UInt64) (advertisement : Advertisement)
deriving DecidableEq

namespace Coordinator

/-- A coordinator with nothing in flight, whatever it believes. -/
def idle (tracker : LockTracker) : Coordinator := { tracker, unfinished := [], lastFinished := none }

def step (self : Coordinator) : CoordinatorEvent → Option Coordinator
  | .started action => some { self with
      tracker := (self.tracker.onCommandStarted action).1
      unfinished := self.unfinished ++ [⟨action, false⟩] }
  | .acknowledged blind nowMs => match self.unfinished with
      | [] => none
      | command :: unfinished => some
          { tracker :=
              ((self.tracker.creditBlindTime blind).onCommandAcknowledged nowMs command.action).1
            unfinished
            lastFinished := some ⟨false, command.heardSince⟩ }
  | .failed blind => match self.unfinished with
      | [] => none
      | command :: unfinished => some
          { tracker := (self.tracker.creditBlindTime blind).onCommandFailed.1
            unfinished
            lastFinished := some ⟨true, command.heardSince⟩ }
  | .advertisement nowMs advertisement =>
      let heard := advertisement.status.isSome
      some
        { tracker := (self.tracker.onAdvertisement nowMs advertisement).1
          unfinished := self.unfinished.map fun c => { c with heardSince := c.heardSince || heard }
          lastFinished := self.lastFinished.map fun f =>
            { f with heardSince := f.heardSince || heard } }

/-- `Locking` or `Unlocking` is reported. -/
def InProgress (self : Coordinator) : Prop :=
  self.tracker.reportedState = some .locking ∨ self.tracker.reportedState = some .unlocking

/-- Commands whose outcome nothing has told are reported as in progress: those that are unfinished,
    and the last to finish if it failed. -/
def ReportsUnknownOutcomes (self : Coordinator) : Prop :=
  (∀ command ∈ self.unfinished, command.heardSince = false → self.InProgress) ∧
  ∀ last, self.lastFinished = some last → last.failed = true → last.heardSince = false →
    self.InProgress

end Coordinator

end TTLock
