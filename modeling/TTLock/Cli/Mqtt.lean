import TTLock.Core.Tracker

set_option autoImplicit false

/-! # MQTT payloads (`ttlock/src/mqtt.rs`)

What goes over the command and state topics. The texts of topics, and the discovery documents, are in
`Discovery`. -/

namespace TTLock

inductive Command where
  | lock
  | unlock
deriving DecidableEq, Repr

/-- `From<Command> for Actuation`. -/
def Command.toActuation : Command → Actuation
  | .lock => .lock
  | .unlock => .unlock

def PAYLOAD_LOCK : String := "LOCK"
def PAYLOAD_UNLOCK : String := "UNLOCK"
def PAYLOAD_AVAILABLE : String := "online"
def PAYLOAD_NOT_AVAILABLE : String := "offline"

/-- Parse an inbound command-topic payload. -/
def parseCommand (payload : String) : Option Command :=
  let command := (trim payload).map Char.toUpper
  if command = PAYLOAD_LOCK.toList then some .lock
  else if command = PAYLOAD_UNLOCK.toList then some .unlock
  else none

/-- The topics whose values the broker retains for the lock itself. -/
inductive Topic where
  | availability
  | state
  | battery
deriving DecidableEq, Repr

/-- One retained publish. -/
structure Publication where
  topic : Topic
  payload : String
deriving DecidableEq, Repr

end TTLock
