import TTLock.Cli.Mqtt

set_option autoImplicit false

/-! # The Bluetooth worker (`BleWorker` in `ttlock/src/daemon.rs`)

The worker is one task. It waits for the next event or message, and each handler then runs to its end
before it waits again; but a handler awaits the client at every publish and the lock while it
actuates, and other tasks run meanwhile. So `Activity` says how far the current handler is, and what
is left of it is data: the publications still to make and what comes after them. A handler never
changes the tracker between its publishes, so what they will say is known when they begin. -/

namespace TTLock

/-- What the MQTT task asks the worker to do. -/
inductive WorkerMessage where
  | command (command : Command)
  /-- Publish everything the worker believes, sent after every (re)connection to the broker. -/
  | republish
deriving DecidableEq, Repr

/-- `publish`: the parts of the tracker's view named by `changed`. -/
def publications (tracker : LockTracker) (changed : Changed) : List Publication :=
  (if changed.available then
    [⟨.availability, if tracker.available then PAYLOAD_AVAILABLE else PAYLOAD_NOT_AVAILABLE⟩]
  else []) ++
  (if changed.state then (tracker.reportedState.map fun s => ⟨.state, s.payload⟩).toList else []) ++
  (if changed.battery then
    (tracker.batteryLevel.map fun b => ⟨.battery, toString b.toNat⟩).toList else [])

/-- Where a handler goes on once it has published. -/
inductive Resume where
  | wait
  | actuate (action : Actuation)
deriving DecidableEq, Repr

inductive Activity where
  /-- In a `select!`, between handlers. -/
  | waiting
  | publishing (next : Publication) (rest : List Publication) (resume : Resume)
  /-- Connecting to the lock and running the operation. -/
  | actuating (action : Actuation)
deriving DecidableEq, Repr

/-- Publish these, then go on. -/
def Activity.publish : List Publication → Resume → Activity
  | [], .wait => .waiting
  | [], .actuate action => .actuating action
  | next :: rest, resume => .publishing next rest resume

/-- The publications the current handler has not made yet. -/
def Activity.outstanding : Activity → List Publication
  | .publishing next rest _ => next :: rest
  | .waiting | .actuating _ => []

/-- Which of its loops the worker waits in. -/
inductive Mode where
  /-- Setting a scan up: nothing is received yet. -/
  | starting
  /-- `scan_until_interrupt`. -/
  | scanning
  /-- `idle_until_rescan`, after a scan that failed. -/
  | idle
deriving DecidableEq, Repr

structure BleWorker where
  tracker : LockTracker
  mode : Mode
  activity : Activity
deriving DecidableEq

/-- What happens to the worker other than through its two queues. An advertisement is one of the
    target lock's; times are what `now_ms` reads. -/
inductive WorkerEvent where
  | scanStarted
  | scanFailed
  /-- The adapter's event stream came to an end. -/
  | eventsEnded
  | retryElapsed
  | advertisement (nowMs : UInt64) (advertisement : Advertisement)
  | offlineTick (nowMs : UInt64)
  /-- `actuate` returned, after `blind`. -/
  | actuated (succeeded : Bool) (blind : Duration) (nowMs : UInt64)
deriving DecidableEq

/-- The tracker calls a worker event makes. -/
def WorkerEvent.calls (offlineAfter : Duration) (activity : Activity) : WorkerEvent → List TrackerCall
  | .advertisement nowMs ad => [.onAdvertisement nowMs ad]
  | .offlineTick nowMs => [.pollAvailability nowMs offlineAfter]
  | .actuated succeeded blind nowMs => match activity with
      | .actuating action =>
          [.creditBlindTime blind,
            if succeeded then .onCommandAcknowledged nowMs action else .onCommandFailed]
      | .waiting | .publishing .. => []
  | .scanStarted | .scanFailed | .eventsEnded | .retryElapsed => []

def WorkerMessage.calls : WorkerMessage → List TrackerCall
  | .command c => [.onCommandStarted c.toActuation]
  | .republish => []

namespace BleWorker

def new : BleWorker := { tracker := .new, mode := .starting, activity := .waiting }

/-- Take a tracker mutation over and publish what it changed. -/
def report (self : BleWorker) (mutated : LockTracker × Changed) (resume : Resume) : BleWorker :=
  { self with tracker := mutated.1, activity := .publish (publications mutated.1 mutated.2) resume }

/-- `on_event`, once the event is known to be an advertisement of the target. -/
def onEvent (self : BleWorker) (nowMs : UInt64) (advertisement : Advertisement) : BleWorker :=
  self.report (self.tracker.onAdvertisement nowMs advertisement) .wait

def checkOffline (self : BleWorker) (offlineAfter : Duration) (nowMs : UInt64) : BleWorker :=
  self.report (self.tracker.pollAvailability nowMs offlineAfter) .wait

/-- `handle_message`, up to where it awaits. -/
def handleMessage (self : BleWorker) : WorkerMessage → BleWorker
  | .command command =>
      let action := command.toActuation
      self.report (self.tracker.onCommandStarted action) (.actuate action)
  | .republish => self.report (self.tracker, Changed.ALL) .wait

/-- The rest of `handle_command`, after `actuate` returned. -/
def finishCommand (self : BleWorker) (action : Actuation) (succeeded : Bool) (blind : Duration)
    (nowMs : UInt64) : BleWorker :=
  let tracker := self.tracker.creditBlindTime blind
  let mutated := if succeeded then tracker.onCommandAcknowledged nowMs action
    else tracker.onCommandFailed
  self.report mutated .wait

/-- Receive a message. Only a command tears a running scan down. -/
def receive (self : BleWorker) (message : WorkerMessage) : Option BleWorker :=
  match self.activity, self.mode, message with
  | .waiting, .scanning, .republish => some (self.handleMessage message)
  | .waiting, .scanning, .command _ => some ({ self with mode := .starting }.handleMessage message)
  | .waiting, .idle, _ => some (self.handleMessage message)
  | _, _, _ => none

/-- The client accepted the next publication. -/
def published (self : BleWorker) : Option (Publication × BleWorker) :=
  match self.activity with
  | .publishing next rest resume => some (next, { self with activity := .publish rest resume })
  | .waiting | .actuating _ => none

/-- An event of the worker's own, if it can happen now. -/
def step (offlineAfter : Duration) (self : BleWorker) (event : WorkerEvent) : Option BleWorker :=
  match self.activity, self.mode, event with
  | .waiting, .starting, .scanStarted => some { self with mode := .scanning }
  | .waiting, .starting, .scanFailed => some { self with mode := .idle }
  | .waiting, .scanning, .eventsEnded => some { self with mode := .idle }
  | .waiting, .idle, .retryElapsed => some { self with mode := .starting }
  | .waiting, .scanning, .advertisement nowMs advertisement => some (self.onEvent nowMs advertisement)
  | .waiting, .scanning, .offlineTick nowMs => some (self.checkOffline offlineAfter nowMs)
  | .waiting, .idle, .offlineTick nowMs => some (self.checkOffline offlineAfter nowMs)
  | .actuating action, _, .actuated succeeded blind nowMs =>
      some (self.finishCommand action succeeded blind nowMs)
  | _, _, _ => none

end BleWorker

end TTLock
