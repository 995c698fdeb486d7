import TTLock.Cli.Worker
import TTLock.Lib.Runs

set_option autoImplicit false

/-! # The worker and the broker's retained values

The worker with its message queue on one side and the topics the broker retains on the other.
Publishes are delivered reliably and in order, so a publish is an update of the retained values. When
the broker connection is lost the broker may publish the Last-Will, and every reconnection, the first
connection included, is followed by a `Republish` message. -/

namespace TTLock

/-- What the broker retains for the lock, by topic. -/
structure Retained where
  availability : Option String
  state : Option String
  battery : Option String
deriving DecidableEq, Repr

def Retained.publish (self : Retained) (p : Publication) : Retained :=
  match p.topic with
  | .availability => { self with availability := some p.payload }
  | .state => { self with state := some p.payload }
  | .battery => { self with battery := some p.payload }

/-- The worker, the broker and the queue between them. `served` and `calls` record what has happened:
    whether a `Republish` was received yet, and the tracker calls the worker has made. -/
structure Bridge where
  worker : BleWorker
  retained : Retained
  messages : List WorkerMessage
  served : Bool
  calls : List TrackerCall
deriving DecidableEq

inductive BridgeAction where
  | worker (event : WorkerEvent)
  | receive
  | publish
  | command (command : Command)
  /-- The broker reconnects, having published the Last-Will or not. -/
  | reconnect (lastWill : Bool)
deriving DecidableEq

namespace Bridge

/-- A new worker in front of a broker that may retain anything. -/
def init (retained : Retained) : Bridge :=
  { worker := .new, retained, messages := [], served := false, calls := [] }

def step (offlineAfter : Duration) (self : Bridge) : BridgeAction → Option Bridge
  | .worker event => (self.worker.step offlineAfter event).map fun worker =>
      { self with
        worker, calls := self.calls ++ event.calls offlineAfter self.worker.activity }
  | .receive => match self.messages with
      | [] => none
      | message :: messages => (self.worker.receive message).map fun worker =>
          { self with
            worker, messages, served := self.served || message == .republish
            calls := self.calls ++ message.calls }
  | .publish => self.worker.published.map fun (p, worker) =>
      { self with worker, retained := self.retained.publish p }
  | .command command => some { self with messages := self.messages ++ [.command command] }
  | .reconnect lastWill => some { self with
      retained := if lastWill then self.retained.publish ⟨.availability, PAYLOAD_NOT_AVAILABLE⟩
        else self.retained
      messages := self.messages ++ [.republish] }

/-- Between handlers, a `Republish` served and none queued. -/
def Settled (self : Bridge) : Prop :=
  self.worker.activity = .waiting ∧ self.served = true ∧ .republish ∉ self.messages

/-- The broker's retained values are the tracker's. -/
def Mirrors (self : Bridge) : Prop :=
  (self.retained.availability = some PAYLOAD_AVAILABLE ↔ self.worker.tracker.available = true) ∧
  self.retained.state = self.worker.tracker.reportedState.map ReportedState.payload ∧
  self.retained.battery = self.worker.tracker.batteryLevel.map fun b => toString b.toNat

end Bridge

end TTLock
