import TTLock.Cli.Mqtt

set_option autoImplicit false

/-! # Topics and discovery documents (`ttlock/src/mqtt.rs`)

Every topic of a daemon is made of its discovery prefix or its base topic and of its node id. The discovery
documents tell Home Assistant those topics and the payloads that are used on them. -/

namespace TTLock

/-- `node_id`: every character but an ASCII letter or digit becomes `_`. -/
def nodeId (address : String) : String :=
  "ttlock_" ++ String.ofList (address.toList.map fun c => if c.isAlphanum then c.toLower else '_')

structure Topics where
  discoveryPrefix : String
  baseTopic : String
  nodeId : String
deriving DecidableEq, Repr

namespace Topics

def new (discoveryPrefix baseTopic address : String) : Topics :=
  { discoveryPrefix := String.ofList (trimEndMatches discoveryPrefix.toList '/')
    baseTopic := String.ofList (trimEndMatches baseTopic.toList '/')
    nodeId := TTLock.nodeId address }

def lockDiscovery (self : Topics) : String :=
  self.discoveryPrefix ++ "/lock/" ++ self.nodeId ++ "/config"

def batteryDiscovery (self : Topics) : String :=
  self.discoveryPrefix ++ "/sensor/" ++ self.nodeId ++ "_battery/config"

def base (self : Topics) : String := self.baseTopic ++ "/" ++ self.nodeId

def state (self : Topics) : String := self.base ++ "/state"

def command (self : Topics) : String := self.base ++ "/set"

def battery (self : Topics) : String := self.base ++ "/battery"

def availability (self : Topics) : String := self.base ++ "/availability"

/-- The topic a publication of the worker goes to. -/
def ofTopic (self : Topics) : Topic → String
  | .availability => self.availability
  | .state => self.state
  | .battery => self.battery

end Topics

/-! ## Documents -/

/-- A `serde_json::Value`, as far as the documents need it. -/
inductive Value where
  | null
  | bool (value : Bool)
  | string (value : String)
  | array (items : List Value)
  | object (entries : List (String × Value))
deriving Repr

/-- The entry of an object under this key. -/
def Value.get? (key : String) : Value → Option Value
  | .object entries => entries.lookup key
  | .null | .bool _ | .string _ | .array _ => none

/-- `device_block`. -/
def deviceBlock (topics : Topics) (address : String) : Value :=
  .object [
    ("identifiers", .array [.string topics.nodeId]),
    ("name", .string ("TTLock " ++ address)),
    ("manufacturer", .string "TTLock"),
    ("model", .string "BLE lock")]

def lockDiscoveryPayload (topics : Topics) (address : String) : Value :=
  .object [
    ("name", .null),
    ("unique_id", .string topics.nodeId),
    ("command_topic", .string topics.command),
    ("state_topic", .string topics.state),
    ("payload_lock", .string PAYLOAD_LOCK),
    ("payload_unlock", .string PAYLOAD_UNLOCK),
    ("state_locked", .string ReportedState.locked.payload),
    ("state_unlocked", .string ReportedState.unlocked.payload),
    ("state_locking", .string ReportedState.locking.payload),
    ("state_unlocking", .string ReportedState.unlocking.payload),
    ("optimistic", .bool true),
    ("availability_topic", .string topics.availability),
    ("payload_available", .string PAYLOAD_AVAILABLE),
    ("payload_not_available", .string PAYLOAD_NOT_AVAILABLE),
    ("device", deviceBlock topics address)]

def batteryDiscoveryPayload (topics : Topics) (address : String) : Value :=
  .object [
    ("name", .string "Battery"),
    ("unique_id", .string (topics.nodeId ++ "_battery")),
    ("state_topic", .string topics.battery),
    ("device_class", .string "battery"),
    ("unit_of_measurement", .string "%"),
    ("state_class", .string "measurement"),
    ("availability_topic", .string topics.availability),
    ("payload_available", .string PAYLOAD_AVAILABLE),
    ("payload_not_available", .string PAYLOAD_NOT_AVAILABLE),
    ("device", deviceBlock topics address)]

end TTLock
