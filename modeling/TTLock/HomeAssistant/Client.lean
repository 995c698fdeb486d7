import TTLock.Cli.FrameLink
import TTLock.Core.Proofs.Framing
import TTLock.HomeAssistant.Exchange

set_option autoImplicit false

/-! # The client that Home Assistant drives an operation over
(`custom_components/ttlock_ble/coordinator.py`)

`on_notify` is called back whenever the event loop gets to it, and puts every frame that is complete by
then into a queue; waiting for a response is waiting for the queue. A client is described by what is still
to come, all of it before the deadline of the wait it is needed in. -/

namespace TTLock

/-- An assembler from which every complete frame was taken. -/
structure Drained where
  assembler : FrameAssembler
  drained : assembler.drain.1 = []

structure Client where
  assembler : Drained
  queue : List (List UInt8)
  /-- The data of the notifications that are still to come. -/
  notifications : List (List UInt8)
  /-- How many of them come during each write. -/
  early : List Nat
  /-- The outcome of each chunk that is written. -/
  chunkWrites : List (Except HaError Unit)
  /-- What `write_gatt_char` raises when there is no outcome left. -/
  gone : HaError

namespace Client

/-- `on_notify`. -/
def onNotify (data : List UInt8) (self : Client) : Client :=
  let pushed := self.assembler.assembler.push data
  { self with
    assembler := ⟨pushed.drain.2, pushed.drain_drain⟩
    queue := self.queue ++ pushed.drain.1 }

/-- The event loop gets to so many notifications. -/
def notified : (count : Nat) → Client → Client
  | 0, self => self
  | count + 1, self => match self.notifications with
    | [] => self
    | data :: notifications => notified count ({ self with notifications }.onNotify data)

def writeFrame (payload : List UInt8) (self : Client) : Except HaError Unit × Client :=
  let (result, chunkWrites) :=
    FrameLink.writeChunks self.gone (FrameLink.chunksOf payload) self.chunkWrites
  (result, notified (self.early.headD 0) { self with chunkWrites, early := self.early.tail })

/-- `queue.get()`, with so many notifications that may come while the queue is empty. -/
def awaitFrame : (left : Nat) → Client → Option (List UInt8) × Client
  | left, self => match self.queue with
    | frame :: queue => (some frame, { self with queue })
    | [] => match left with
      | 0 => (none, self)
      | left + 1 => awaitFrame left (self.notified 1)

def nextFrame (clock : Int) (self : Client) : Except HaError (Int × List UInt8) × Client :=
  match self.awaitFrame self.notifications.length with
  | (some frame, self) => (.ok (clock, frame), self)
  | (none, self) => (.error .transient, self)

def transport (clock : Int) : Transport HaError Client where
  writeFrame := writeFrame
  nextFrame := nextFrame clock

end Client

end TTLock
