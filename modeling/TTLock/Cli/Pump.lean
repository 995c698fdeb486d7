import TTLock.Cli.Worker
import TTLock.Lib.Runs

set_option autoImplicit false

/-! # The two tasks and their queues (`run` in `ttlock/src/daemon.rs`)

The pump polls the MQTT event loop, and between polls announces and forwards messages; the worker does
everything else. They meet in two bounded queues: the pump fills the message queue and the worker
empties it; both fill the client's request queue, and only a poll on an established connection empties
that. Sending to a full queue waits. Of `rumqttc` it is assumed that a poll which connects returns the
`ConnAck` before it takes any request. Where an established connection is lost, it takes what is queued then
into its own hands: these are steps `request` right before `connectionError`. The queues' other ends never go away: the worker ends only when
the pump has, and the pump only when the worker has. -/

namespace TTLock

/-- `AsyncClient::new(options, 16)`. -/
def REQUEST_CAPACITY : Nat := 16

/-- `mpsc::channel::<WorkerMessage>(8)`. -/
def MESSAGE_CAPACITY : Nat := 8

/-- What a client can put into the request queue. -/
inductive Request where
  | publish (publication : Publication)
  | lockDiscovery
  | batteryDiscovery
  | subscribe
deriving DecidableEq, Repr

/-- What `announce` puts there. -/
def announcement : List Request := [.lockDiscovery, .batteryDiscovery, .subscribe]

/-- Where the pump is in its loop. -/
inductive Pump where
  /-- In `eventloop.poll()`. -/
  | polling
  /-- In `sleep(backoff)`, after a connection error. -/
  | backoff
  /-- In `announce`, with these requests still to send. -/
  | announcing (rest : List Request)
  /-- In `message_tx.send`. -/
  | sending (message : WorkerMessage)
deriving DecidableEq, Repr

structure Daemon where
  pump : Pump
  connected : Bool
  worker : BleWorker
  messages : List WorkerMessage
  requests : List Request
deriving DecidableEq

/-- What either task does next, or what the broker does to a poll. -/
inductive DaemonAction where
  /-- A poll connects and returns `ConnAck`. -/
  | connAck
  /-- A poll returns a payload on the command topic. -/
  | incoming (payload : String)
  /-- A poll takes a request out of the queue: to send it, or to keep it, as the connection is being lost. -/
  | request
  /-- A poll fails: the connection is lost, with the queue emptied before, or could not be made. -/
  | connectionError
  | backoffElapsed
  /-- `announce` sends its next request. -/
  | announce
  /-- `message_tx.send` goes through. -/
  | send
  | worker (event : WorkerEvent)
  /-- The worker receives a message. -/
  | receive
  /-- The client takes the worker's next publication. -/
  | publish
deriving DecidableEq

namespace Daemon

def init : Daemon :=
  { pump := .polling, connected := false, worker := .new, messages := [], requests := [] }

def step (offlineAfter : Duration) (self : Daemon) : DaemonAction → Option Daemon
  | .connAck =>
      if self.pump = .polling ∧ self.connected = false then
        some { self with pump := .announcing announcement, connected := true }
      else none
  | .incoming payload =>
      if self.pump = .polling ∧ self.connected = true then
        match parseCommand payload with
        | some command => some { self with pump := .sending (.command command) }
        | none => some self
      else none
  | .request =>
      if self.pump = .polling ∧ self.connected = true ∧ self.requests ≠ [] then
        some { self with requests := self.requests.tail }
      else none
  | .connectionError =>
      if self.pump = .polling then some { self with pump := .backoff, connected := false } else none
  | .backoffElapsed => if self.pump = .backoff then some { self with pump := .polling } else none
  | .announce => match self.pump with
      | .announcing (request :: rest) =>
          if self.requests.length < REQUEST_CAPACITY then
            some { self with
              -- the worker is asked to republish once everything is announced
              pump := if rest.isEmpty then .sending .republish else .announcing rest
              requests := self.requests ++ [request] }
          else none
      | _ => none
  | .send => match self.pump with
      | .sending message =>
          if self.messages.length < MESSAGE_CAPACITY then
            some { self with pump := .polling, messages := self.messages ++ [message] }
          else none
      | _ => none
  | .worker event =>
      (self.worker.step offlineAfter event).map fun worker => { self with worker }
  | .receive => match self.messages with
      | [] => none
      | message :: messages =>
          (self.worker.receive message).map fun worker => { self with worker, messages }
  | .publish =>
      if self.requests.length < REQUEST_CAPACITY then
        self.worker.published.map fun (publication, worker) =>
          { self with worker, requests := self.requests ++ [.publish publication] }
      else none

/-- The worker waits for a slot in the request queue. -/
def WorkerBlocked (self : Daemon) : Prop :=
  self.worker.activity.outstanding ≠ [] ∧ self.requests.length = REQUEST_CAPACITY

/-- The pump waits for a slot that only its own next poll could free, or only a worker that waits for
    such a slot itself. -/
def Deadlocked (self : Daemon) : Prop :=
  ((∃ request rest, self.pump = .announcing (request :: rest)) ∧
    self.requests.length = REQUEST_CAPACITY) ∨
  ((∃ message, self.pump = .sending message) ∧ self.messages.length = MESSAGE_CAPACITY ∧
    self.WorkerBlocked)

end Daemon

end TTLock
