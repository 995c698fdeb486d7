import TTLock.Cli.Worker
import TTLock.Lib.Runs

set_option autoImplicit false

/-! # The worker's loops (`BleWorker::run` in `ttlock/src/daemon.rs`)

`BleWorker` says what the handlers do; here are the loops around them and the channel they receive
from. `scan_until_interrupt` serves in place what needs no radio; for anything else it stops the scan
and returns an `Interrupt`, which `run` acts on. After a scan that failed, `idle_until_rescan` serves
everything in place until the retry timer. -/

namespace TTLock

/-- Why `scan_until_interrupt` returned. -/
inductive Interrupt where
  | message (message : WorkerMessage)
  | scanError
  | channelClosed
deriving DecidableEq, Repr

/-- Something the worker did, for the record. -/
inductive Occurrence where
  | received (message : WorkerMessage)
  | called (call : TrackerCall)
  /-- `actuate` ran. -/
  | actuated (action : Actuation)
  | published (publication : Publication)
deriving DecidableEq

/-- What an event leaves on the record. -/
def WorkerEvent.occurrences (offlineAfter : Duration) (activity : Activity) (event : WorkerEvent) :
    List Occurrence :=
  (match event, activity with
    | .actuated .., .actuating action => [.actuated action]
    | _, _ => []) ++
  (event.calls offlineAfter activity).map .called

structure RunLoop where
  worker : BleWorker
  /-- What `scan_until_interrupt` is going to return, while it stops the scan. -/
  interrupt : Option Interrupt
  exited : Bool
  /-- The channel: what was sent and not received yet, and whether it is closed. -/
  messages : List WorkerMessage
  closed : Bool
  /-- Everything that was ever sent, and everything the worker did. -/
  sent : List WorkerMessage
  record : List Occurrence
deriving DecidableEq

inductive LoopAction where
  | send (message : WorkerMessage)
  | close
  /-- A timer, a scan that starts, fails or ends, an advertisement, or `actuate` returning. -/
  | own (event : WorkerEvent)
  | receive
  | scanStopped
  | publish
deriving DecidableEq

namespace RunLoop

def new : RunLoop :=
  { worker := .new, interrupt := none, exited := false, messages := [], closed := false, sent := []
    record := [] }

/-- `messages.recv()` in whichever `select!` the worker waits. -/
def receive (self : RunLoop) : Option RunLoop :=
  match self.worker.activity, self.worker.mode, self.messages with
  | .waiting, .scanning, .republish :: messages => some { self with
      worker := self.worker.handleMessage .republish
      messages, record := self.record ++ [.received .republish] }
  | .waiting, .scanning, message :: messages => some { self with
      interrupt := some (.message message), messages
      record := self.record ++ [.received message] }
  | .waiting, .scanning, [] =>
      if self.closed then some { self with interrupt := some .channelClosed } else none
  | .waiting, .idle, message :: messages => some { self with
      worker := self.worker.handleMessage message
      messages, record := self.record ++ .received message :: message.calls.map .called }
  | .waiting, .idle, [] => if self.closed then some { self with exited := true } else none
  | _, _, _ => none

/-- `run` acts on the interrupt it was returned. -/
def interrupted (self : RunLoop) : Interrupt → RunLoop
  | .message message => { self with
      worker := { self.worker with mode := .starting }.handleMessage message
      interrupt := none, record := self.record ++ message.calls.map .called }
  | .scanError => { self with worker := { self.worker with mode := .idle }, interrupt := none }
  | .channelClosed => { self with exited := true, interrupt := none }

/-- An event of the worker's own. The scan ending is an interrupt; the scan not starting is one that
    has nothing to stop. -/
def own (offlineAfter : Duration) (self : RunLoop) (event : WorkerEvent) : Option RunLoop :=
  (self.worker.step offlineAfter event).map fun worker =>
    if event = .eventsEnded then { self with interrupt := some .scanError }
    else { self with
      worker, record := self.record ++ event.occurrences offlineAfter self.worker.activity }

def step (offlineAfter : Duration) (self : RunLoop) : LoopAction → Option RunLoop
  | .send message =>
      if self.closed then none
      else some { self with messages := self.messages ++ [message], sent := self.sent ++ [message] }
  | .close => some { self with closed := true }
  | .own event =>
      if self.interrupt = none ∧ self.exited = false then self.own offlineAfter event else none
  | .receive => if self.interrupt = none ∧ self.exited = false then self.receive else none
  | .scanStopped => self.interrupt.map self.interrupted
  | .publish => self.worker.published.map fun (publication, worker) =>
      { self with worker, record := self.record ++ [.published publication] }

end RunLoop

end TTLock
