import TTLock.Cli.Oplog

set_option autoImplicit false

/-! # A link to a lock that holds a log

What `walk` reads from, as the `LogLink` of its tests: the lock decodes the cursor of every request and
answers it by one reply, and replies come in the order of the requests. The lock is a function of the
cursors it was asked for so far. The link may deliver pushes before a reply and spoil the CRC of what it
delivers, a reply that is spoilt being gone; `noise` says what it does in each step, that is until
the next reply comes through unspoilt. -/

namespace TTLock

/-- One thing the link does in a step, before a reply comes through. A CRC is spoilt by a `mask` that is
    not zero. -/
inductive Disturbance where
  | push (raw : List UInt8)
  | spoiltPush (raw : List UInt8) (mask : UInt8)
  | spoiltReply (mask : UInt8)
deriving DecidableEq, Repr

structure LogLink where
  /-- The cursors of all requests, the last one first. -/
  cursors : List UInt16
  /-- Replies that are still to be delivered. -/
  inFlight : List (List UInt8)
  step : Nat
  /-- What is still to happen in this step. -/
  coming : List Disturbance
  /-- The replies that came through, and what had been asked for last by then. -/
  answered : List (UInt16 × List UInt8)
deriving DecidableEq

namespace LogLink

def new (noise : Nat → List Disturbance) : LogLink :=
  { cursors := [], inFlight := [], step := 0, coming := noise 0, answered := [] }

/-- A frame whose CRC byte was changed on the way. -/
def spoil (raw : List UInt8) (mask : UInt8) : List UInt8 :=
  raw.modify (12 + (raw[11]?.getD 0).toNat) (· ^^^ mask)

/-- The cursor a frame asks for, as the lock decodes it. -/
def requestedCursor (C : Cipher) (aesKey : AesKey) (raw : List UInt8) : Except TtlockError UInt16 := do
  let envelope ← Envelope.parse raw
  match ← aesDecrypt C envelope.data aesKey with
  | [high, low] => return BigEndian.ofBytes16 high low
  | _ => throw (.message "cursor was not two bytes")

variable (C : Cipher) (aesKey : AesKey) (lock : List UInt16 → List UInt8)
  (noise : Nat → List Disturbance)

def writeFrame (raw : List UInt8) (self : LogLink) : Except CliError Unit × LogLink :=
  match requestedCursor C aesKey raw with
  | .error e => (.error (.core e), self)
  | .ok cursor =>
      let cursors := cursor :: self.cursors
      (.ok (), { self with cursors, inFlight := self.inFlight ++ [lock cursors] })

def nextFrame (self : LogLink) : Except CliError (Int × List UInt8) × LogLink :=
  match self.coming, self.inFlight with
  | .push raw :: coming, _ => (.ok (0, raw), { self with coming })
  | .spoiltPush raw mask :: coming, _ => (.ok (0, spoil raw mask), { self with coming })
  | .spoiltReply mask :: coming, reply :: inFlight =>
      (.ok (0, spoil reply mask), { self with inFlight, coming })
  | [], reply :: inFlight =>
      (.ok (0, reply), { self with
        inFlight
        step := self.step + 1
        coming := noise (self.step + 1)
        answered := self.answered ++ [(self.cursors.headD 0, reply)] })
  | .spoiltReply _ :: _, [] | [], [] => (.error .timeout, self)

def transport : Transport CliError LogLink where
  writeFrame := writeFrame C aesKey lock
  nextFrame := nextFrame noise

end LogLink

/-- `walk` over such a link from the beginning on, keeping the records. -/
def Oplog.walkLog (C : Cipher) (chrono : Chrono) (aesKey : AesKey) (version : LockVersion)
    (lock : List UInt16 → List UInt8) (noise : Nat → List Disturbance) (start : LogCursor)
    (limit : Option Nat) (fuel : Nat) : Option (Except CliError Walk × LogLink × List LogRecord) :=
  walk C chrono (LogLink.transport C aesKey lock noise) aesKey version start limit collect fuel
    (.new noise) []

end TTLock
