import TTLock.Cli.Transport
import TTLock.Core.Proofs.Tracker
import TTLock.Core.Proofs.Wire

set_option autoImplicit false

/-! # A link to a lock

The other end of the protocol, as `docs/protocol-and-design.md` describes it. The lock decrypts a frame,
rejects it if its version header is not the lock's own, hands out a challenge, and moves its bolt for the
sum of the last challenge and its unlock key. A challenge stays good until the next one.

A frame on its way to the lock is heard at once or never, and never if writing it failed. Only a reply may be
delivered late, again, out of order or never, with anything else in between. -/

namespace TTLock

/-- A lock that was paired, with what does not change during a connection. -/
structure PairedLock where
  version : LockVersion
  aesKey : AesKey
  unlockKey : UnlockKey
  battery : UInt8
  /-- The challenges it hands out, by their number. -/
  challenge : Nat → UInt32
  /-- The response byte it rejects a command with. -/
  rejection : UInt8
  rejection_ne : rejection ≠ 1

/-- What changes. -/
structure LockSession where
  issued : Nat
  bolt : Bolt
  /-- What it has done, in order. -/
  performed : List Actuation
  clock : UInt32
deriving DecidableEq

/-- The actuation a command byte asks for. -/
def Actuation.ofCommand (command : UInt8) : Option Actuation :=
  if command = COMM_FUNCTION_LOCK then some .lock
  else if command = COMM_UNLOCK then some .unlock
  else none

def Bolt.statusByte : Bolt → UInt8
  | .locked => 0
  | .unlocked => 1

namespace PairedLock

variable (C : Cipher) (lock : PairedLock)

/-- What the lock reads in a frame: the version header, the command and the plaintext. It reads nothing in
    a frame that is damaged or was not encrypted for it. -/
def read (raw : List UInt8) : Option WireCommand :=
  match Envelope.parse raw with
  | .error _ => none
  | .ok env =>
      if env.crc = env.computedCrc then
        match aesDecrypt C env.data lock.aesKey with
        | .error _ => none
        | .ok plaintext => some
            { version := ⟨env.protocolType, env.protocolVersion, env.scene, env.groupId, env.orgId⟩
              commandType := env.commandType, aesKey := lock.aesKey, plaintext }
      else none

/-- The challenge that is good now. -/
def current (session : LockSession) : Option UInt32 :=
  if session.issued = 0 then none else some (lock.challenge (session.issued - 1))

/-- The sum and the time of an actuation. -/
def readPayload : (plaintext : List UInt8) → Option (UInt32 × UInt32)
  | [a, b, c, d, e, f, g, h] => some (BigEndian.ofBytes32 a b c d, BigEndian.ofBytes32 e f g h)
  | _ => none

/-- The response byte and the data a command is answered with, and what the lock does. -/
def execute (request : WireCommand) (session : LockSession) : (UInt8 × List UInt8) × LockSession :=
  if request.version ≠ lock.version then ((lock.rejection, []), session)
  else if request.commandType = COMM_CHECK_USER_TIME then
    ((1, BigEndian.toBytes32 (lock.challenge session.issued)),
      { session with issued := session.issued + 1 })
  else if request.commandType = COMM_SEARCH_BICYCLE_STATUS then
    ((1, [lock.battery, session.bolt.statusByte]), session)
  else match Actuation.ofCommand request.commandType, lock.current session,
      readPayload request.plaintext with
  | some action, some ps, some (sum, time) =>
      if sum = ps + lock.unlockKey.get then
        ((1, []), { session with
          bolt := action.target, performed := session.performed ++ [action], clock := time })
      else ((lock.rejection, []), session)
  | _, _, _ => ((lock.rejection, []), session)

/-- A reply, as the assembler yields it. -/
def reply (command response : UInt8) (data : List UInt8) : List UInt8 :=
  WireCommand.frame C
    { version := lock.version, commandType := COMM_RESPONSE, aesKey := lock.aesKey
      plaintext := command :: response :: data }

def receive (raw : List UInt8) (session : LockSession) : Option (List UInt8 × LockSession) :=
  (lock.read C raw).map fun request =>
    let ((response, data), session) := lock.execute request session
    (lock.reply C request.commandType response data, session)

end PairedLock

/-! ## The link -/

/-- What becomes of a frame on its way to the lock. -/
inductive Fate where
  | heard
  | lost
  /-- The connection breaks instead, and the lock hears nothing. -/
  | failed
deriving DecidableEq, Repr

/-- What is delivered next, and the clock it is handled at. -/
inductive Delivery where
  /-- The lock's reply of this number. -/
  | reply (now : Int) (number : Nat)
  /-- Anything else. -/
  | other (now : Int) (raw : List UInt8)
  /-- Nothing, until the wait is over. -/
  | nothing
  /-- Nothing, for the connection breaks. -/
  | broken
deriving DecidableEq

structure LockLink where
  session : LockSession
  /-- How many frames were written. -/
  writes : Nat
  /-- Every reply of the lock so far, in order. -/
  replies : List (List UInt8)
  /-- What is still to be delivered. -/
  script : List Delivery
deriving DecidableEq

namespace LockLink

def new (session : LockSession) (script : List Delivery) : LockLink :=
  { session, writes := 0, replies := [], script }

variable {ε : Type} (timeout disconnected : ε) (C : Cipher) (lock : PairedLock) (fate : Nat → Fate)

def writeFrame (raw : List UInt8) (self : LockLink) : Except ε Unit × LockLink :=
  match fate self.writes with
  | .failed => (.error disconnected, { self with writes := self.writes + 1 })
  | .lost => (.ok (), { self with writes := self.writes + 1 })
  | .heard => match lock.receive C raw self.session with
    | none => (.ok (), { self with writes := self.writes + 1 })
    | some (reply, session) =>
        (.ok (), { self with session, writes := self.writes + 1, replies := self.replies ++ [reply] })

/-- A reply that the lock has not given cannot be delivered. -/
def nextFrame (self : LockLink) : Except ε (Int × List UInt8) × LockLink :=
  match self.script with
  | [] => (.error timeout, self)
  | .nothing :: script => (.error timeout, { self with script })
  | .broken :: script => (.error disconnected, { self with script })
  | .other now raw :: script => (.ok (now, raw), { self with script })
  | .reply now number :: script => match self.replies[number]? with
    | some raw => (.ok (now, raw), { self with script })
    | none => (.error timeout, { self with script })

def transport : Transport ε LockLink where
  writeFrame := writeFrame disconnected C lock fate
  nextFrame := nextFrame timeout disconnected

end LockLink

end TTLock
