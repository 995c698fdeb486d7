import TTLock.Cli.Broker
import TTLock.Cli.Discovery
import Mathlib.Logic.Function.Basic

set_option autoImplicit false

/-! # Several daemons at one broker

Each daemon is a `Bridge`, but for what the broker retains, which they share. Whatever else is connected to
the broker may publish anything on any topic, as long as it is not to be retained. A daemon hears what is
published on its command topic once it has announced itself. As for a `Bridge`, what is published is retained
or heard at once: what a daemon publishes while it is cut off from the broker, and what others publish to it
meanwhile, is not looked at. -/

namespace TTLock

/-- What can be retained at a topic. -/
inductive Payload where
  | text (payload : String)
  | document (value : Value)

def Payload.text? : Payload → Option String
  | .text payload => some payload
  | .document _ => none

/-- What a daemon is started with. -/
structure Station where
  discoveryPrefix : String
  baseTopic : String
  address : String
  offlineAfter : Duration
deriving DecidableEq

def Station.topics (self : Station) : Topics := .new self.discoveryPrefix self.baseTopic self.address

/-- A daemon. `served` and `calls` are as in `Bridge`. -/
structure Member where
  worker : BleWorker
  messages : List WorkerMessage
  /-- It has announced itself, and subscribed to its command topic. -/
  subscribed : Bool
  served : Bool
  calls : List TrackerCall
deriving DecidableEq

structure Fleet (ι : Type) where
  retained : String → Option Payload
  members : ι → Member

inductive FleetAction (ι : Type) where
  | worker (i : ι) (event : WorkerEvent)
  | receive (i : ι)
  | publish (i : ι)
  /-- The broker reconnects to this daemon, having published its Last-Will or not. -/
  | reconnect (i : ι) (lastWill : Bool)
  /-- Something is published by anybody else, and not retained. -/
  | client (topic payload : String)

/-- A member that is sent this. Only its command topic is looked at. -/
def Member.hear (self : Member) (topics : Topics) (topic payload : String) : Member :=
  if self.subscribed ∧ topic = topics.command then
    match parseCommand payload with
    | some command => { self with messages := self.messages ++ [.command command] }
    | none => self
  else self

namespace Fleet

variable {ι : Type} [DecidableEq ι]

/-- New daemons in front of a broker that may retain anything. -/
def init (retained : String → Option Payload) : Fleet ι :=
  { retained
    members := fun _ =>
      { worker := .new, messages := [], subscribed := false, served := false, calls := [] } }

def setMember (self : Fleet ι) (i : ι) (member : Member) : Fleet ι :=
  { self with members := Function.update self.members i member }

def retain (self : Fleet ι) (topic : String) (payload : Payload) : Fleet ι :=
  { self with retained := Function.update self.retained topic (some payload) }

/-- `announce`, but for the subscription. -/
def announce (self : Fleet ι) (station : Station) : Fleet ι :=
  (self.retain station.topics.lockDiscovery
      (.document (lockDiscoveryPayload station.topics station.address))).retain
    station.topics.batteryDiscovery (.document (batteryDiscoveryPayload station.topics station.address))

def step (stations : ι → Station) (self : Fleet ι) : FleetAction ι → Option (Fleet ι)
  | .worker i event =>
      let member := self.members i
      (member.worker.step (stations i).offlineAfter event).map fun worker => self.setMember i
        { member with
          worker, calls := member.calls ++ event.calls (stations i).offlineAfter member.worker.activity }
  | .receive i =>
      let member := self.members i
      match member.messages with
      | [] => none
      | message :: messages => (member.worker.receive message).map fun worker => self.setMember i
          { member with
            worker, messages, served := member.served || message == .republish
            calls := member.calls ++ message.calls }
  | .publish i =>
      let member := self.members i
      member.worker.published.map fun (p, worker) =>
        (self.setMember i { member with worker }).retain ((stations i).topics.ofTopic p.topic)
          (.text p.payload)
  | .reconnect i lastWill =>
      let member := self.members i
      -- the Last-Will is out before the daemon is back
      let self := if lastWill then
          self.retain (stations i).topics.availability (.text PAYLOAD_NOT_AVAILABLE)
        else self
      some ((self.announce (stations i)).setMember i
        { member with subscribed := true, messages := member.messages ++ [.republish] })
  | .client topic payload => some
      { self with members := fun i => (self.members i).hear (stations i).topics topic payload }

end Fleet

end TTLock
