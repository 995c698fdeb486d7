import TTLock.HomeAssistant.Binding
import TTLock.HomeAssistant.Command

set_option autoImplicit false

/-! # Setting locks up (`custom_components/ttlock_ble/config_flow.py`, `__init__.py`, `const.py`)

Each step of a flow is a function from the flow and what was submitted to the flow and what Home Assistant
is to do next. Around them stand Home Assistant's entries and the flows in progress: it validates a form
against its schema before the step sees it, gives an entry the unique id of the flow that creates it, and
may drop a flow or remove an entry at any time. Discoveries the user has ignored are left out. -/

namespace TTLock

/-! ## Constants -/

def DEFAULT_COMMAND_TIMEOUT : Int := 15
def MIN_COMMAND_TIMEOUT : Int := 5
def MAX_COMMAND_TIMEOUT : Int := 120
def DEFAULT_CONNECT_ATTEMPTS : Int := 4
def MIN_CONNECT_ATTEMPTS : Int := 1
def MAX_CONNECT_ATTEMPTS : Int := 10

def CONF_AES_KEY : String := "aes_key"
def CONF_UNLOCK_KEY : String := "unlock_key"

/-! ## Entries -/

/-- `entry.data`. -/
structure EntryData where
  address : Option String
  aesKey : String
  unlockKey : Int
deriving DecidableEq, Repr

/-- `entry.options`: empty until the options flow has filled them. -/
structure EntryOptions where
  connectAttempts : Option Int
  commandTimeout : Option Int
deriving DecidableEq, Repr

structure ConfigEntry where
  entryId : Nat
  uniqueId : Option String
  title : String
  data : EntryData
  options : EntryOptions
deriving DecidableEq, Repr

/-! ## The steps of a flow -/

/-- What Home Assistant tells about a device it has heard. -/
structure ServiceInfo where
  address : String
  name : String
deriving DecidableEq, Repr

/-- A filled-in credentials form. Its schema wants two texts. -/
structure CredentialsInput where
  aesKey : String
  unlockKey : String
deriving DecidableEq, Repr

/-- What a step returns. -/
inductive FlowResult where
  /-- The form of step "user": the addresses to choose from, and how they are shown. -/
  | userForm (choices : List (String × String))
  /-- The form of step "credentials", with the fields that are in error. -/
  | credentialsForm (errors : List (String × String)) (name : String)
  /-- The form of step "reconfigure", with the values it suggests. -/
  | reconfigureForm (suggested : EntryData) (errors : List (String × String)) (name : String)
  | abort (reason : String)
  | createEntry (title : String) (data : EntryData)
  /-- `async_update_reload_and_abort`. -/
  | updateReloadAndAbort (aesKey : String) (unlockKey : Int)
deriving DecidableEq, Repr

/-- What an f-string makes of a text or `None`. -/
def pyStr : Option String → String
  | some text => text
  | none => "None"

/-- `a or b`. -/
def pyOr (a b : String) : String := if a = "" then b else a

/-- `_normalize_aes_key`. Every exception of the binding is a `TtlockError`. -/
def normalizeAesKey? (hexEncode : List UInt8 → String)
    (hexDecode : String → Except String (List UInt8)) (value : PyValue) : Option String :=
  (normalizeAesKey hexEncode hexDecode value).toOption

/-- `_normalize_unlock_key`. -/
def normalizeUnlockKey? (value : PyValue) : Option Int := (normalizeUnlockKey value).toOption

/-- The fields of a credentials form that are in error. -/
def credentialErrors (aesKey : Option String) (unlockKey : Option Int) : List (String × String) :=
  (if aesKey.isNone then [(CONF_AES_KEY, "invalid_aes_key")] else []) ++
    if unlockKey.isNone then [(CONF_UNLOCK_KEY, "invalid_unlock_key")] else []

structure TTLockConfigFlow where
  uniqueId : Option String
  discovery : Option ServiceInfo
  /-- A dictionary with the addresses for keys. -/
  discovered : List ServiceInfo
deriving DecidableEq, Repr

namespace TTLockConfigFlow

variable (hexEncode : List UInt8 → String) (hexDecode : String → Except String (List UInt8))

def new : TTLockConfigFlow := { uniqueId := none, discovery := none, discovered := [] }

/-- The address and the title of the entry that is created. -/
def address (flow : TTLockConfigFlow) : Option String :=
  match flow.discovery with
  | some info => some info.address
  | none => flow.uniqueId

def title (flow : TTLockConfigFlow) : String :=
  pyOr ((flow.discovery.map ServiceInfo.name).getD "") ("TTLock " ++ pyStr flow.address)

/-- The lock's name in the form. -/
def name (flow : TTLockConfigFlow) : String :=
  match flow.discovery with
  | some info => info.name
  | none => pyOr (flow.uniqueId.getD "") "the lock"

def asyncStepCredentials (flow : TTLockConfigFlow) (userInput : Option CredentialsInput) : FlowResult :=
  match userInput with
  | none => .credentialsForm [] flow.name
  | some input =>
      let aesKey := normalizeAesKey? hexEncode hexDecode (.text input.aesKey)
      let unlockKey := normalizeUnlockKey? (.text input.unlockKey)
      match aesKey, unlockKey with
      | some aesKey, some unlockKey =>
          .createEntry flow.title { address := flow.address, aesKey, unlockKey }
      | _, _ => .credentialsForm (credentialErrors aesKey unlockKey) flow.name

/-- `inProgress` and `configured` are the unique ids of the other flows and of the entries. -/
def asyncStepBluetooth (inProgress configured : List String) (flow : TTLockConfigFlow)
    (info : ServiceInfo) : TTLockConfigFlow × FlowResult :=
  let flow := { flow with uniqueId := some info.address }
  -- the first abort is `async_set_unique_id`'s own
  if info.address ∈ inProgress then (flow, .abort "already_in_progress")
  else if info.address ∈ configured then (flow, .abort "already_configured")
  else
    let flow := { flow with discovery := some info }
    (flow, asyncStepCredentials hexEncode hexDecode flow none)

/-- `seen` is what `async_discovered_service_info` gives. -/
def asyncStepUser (configured : List String) (seen : List ServiceInfo) (flow : TTLockConfigFlow) :
    Option String → TTLockConfigFlow × FlowResult
  | some address =>
      -- `raise_on_progress=False`: another flow for this lock is no obstacle
      let flow := { flow with uniqueId := some address }
      if address ∈ configured then (flow, .abort "already_configured")
      else
        let flow := { flow with discovery := flow.discovered.find? fun info => info.address = address }
        (flow, asyncStepCredentials hexEncode hexDecode flow none)
  | none =>
      let discovered := seen.foldl (fun discovered info =>
        if info.address ∈ configured ∨ info.address ∈ discovered.map ServiceInfo.address then discovered
        else discovered ++ [info]) flow.discovered
      let flow := { flow with discovered }
      if discovered = [] then (flow, .abort "no_devices_found")
      else (flow, .userForm (discovered.map fun info =>
        (info.address, pyOr info.name "TTLock" ++ " (" ++ info.address ++ ")")))

def asyncStepReconfigure (entry : ConfigEntry) (userInput : Option CredentialsInput) : FlowResult :=
  match userInput with
  | none => .reconfigureForm entry.data [] entry.title
  | some input =>
      let aesKey := normalizeAesKey? hexEncode hexDecode (.text input.aesKey)
      let unlockKey := normalizeUnlockKey? (.text input.unlockKey)
      match aesKey, unlockKey with
      | some aesKey, some unlockKey => .updateReloadAndAbort aesKey unlockKey
      | _, _ => .reconfigureForm entry.data (credentialErrors aesKey unlockKey) entry.title

end TTLockConfigFlow

/-- `vol.All(vol.Coerce(int), vol.Range(min=…, max=…))`, of what `int` makes of the field, if anything. -/
def coercedInRange (min max : Int) (field : Option Int) : Option Int :=
  field.filter fun value => min ≤ value && value ≤ max

/-- The schema of the options form, and `async_create_entry` with what it lets through. -/
def TTLockOptionsFlow.asyncStepInit (connectAttempts commandTimeout : Option Int) : Option EntryOptions :=
  match coercedInRange MIN_CONNECT_ATTEMPTS MAX_CONNECT_ATTEMPTS connectAttempts,
    coercedInRange MIN_COMMAND_TIMEOUT MAX_COMMAND_TIMEOUT commandTimeout with
  | some connectAttempts, some commandTimeout =>
      some { connectAttempts := some connectAttempts, commandTimeout := some commandTimeout }
  | _, _ => none

/-! ## Setting an entry up -/

/-- What `TTLockCoordinator` is constructed with. -/
structure CoordinatorArgs where
  address : Option String
  aesKey : List UInt8
  unlockKey : Int
  connectAttempts : Int
  commandTimeout : Int
deriving DecidableEq, Repr

inductive SetupError where
  /-- `ConfigEntryNotReady`: Home Assistant tries again later. -/
  | notReady (text : String)
  /-- `bytes.fromhex` raises a `ValueError`. -/
  | valueError
deriving DecidableEq, Repr

/-- `async_setup_entry`, up to the subscription. `present` is `async_address_present`. -/
def asyncSetupEntry (present : Bool) (entry : ConfigEntry) : Except SetupError CoordinatorArgs :=
  if !present then
    .error (.notReady
      ("TTLock " ++ pyStr entry.data.address ++ " not seen yet; waiting for an advertisement"))
  else match bytesFromHex entry.data.aesKey.toList with
    | none => .error .valueError
    | some aesKey => .ok
        { address := entry.data.address
          aesKey
          unlockKey := entry.data.unlockKey
          connectAttempts := entry.options.connectAttempts.getD DEFAULT_CONNECT_ATTEMPTS
          commandTimeout := entry.options.commandTimeout.getD DEFAULT_COMMAND_TIMEOUT }

/-! ## Home Assistant's entries and flows -/

/-- The form a flow is at. -/
inductive FlowStep where
  | user
  | credentials
  | reconfigure (entryId : Nat)
deriving DecidableEq, Repr

structure FlowInProgress where
  flowId : Nat
  step : FlowStep
  flow : TTLockConfigFlow
deriving DecidableEq, Repr

structure ConfigEntries where
  entries : List ConfigEntry
  flows : List FlowInProgress
  /-- No entry or flow has this id or a higher one. -/
  nextId : Nat
deriving DecidableEq, Repr

inductive FlowEvent where
  /-- A lock is heard for the first time. -/
  | discovered (info : ServiceInfo)
  /-- The user adds a device, or edits an entry. -/
  | added (seen : List ServiceInfo)
  | reconfigured (entryId : Nat)
  /-- A form is submitted, or asked for again. -/
  | submittedUser (flowId : Nat) (address : Option String) (seen : List ServiceInfo)
  | submittedCredentials (flowId : Nat) (userInput : Option CredentialsInput)
  | submittedOptions (entryId : Nat) (connectAttempts commandTimeout : Option Int)
  | dropped (flowId : Nat)
  | removed (entryId : Nat)
deriving DecidableEq, Repr

namespace ConfigEntries

variable (hexEncode : List UInt8 → String) (hexDecode : String → Except String (List UInt8))

def empty : ConfigEntries := { entries := [], flows := [], nextId := 0 }

/-- `_async_current_ids`. -/
def currentIds (self : ConfigEntries) : List String := self.entries.filterMap ConfigEntry.uniqueId

def idsInProgress (self : ConfigEntries) : List String :=
  self.flows.filterMap fun running => running.flow.uniqueId

def drop (self : ConfigEntries) (flowId : Nat) : ConfigEntries :=
  { self with flows := self.flows.filter fun running => running.flowId ≠ flowId }

/-- The flow goes on at this form. -/
def waitAt (self : ConfigEntries) (running : FlowInProgress) : ConfigEntries :=
  { self with flows := running :: (self.drop running.flowId).flows }

/-- `async_update_entry`. -/
def update (self : ConfigEntries) (entryId : Nat) (change : ConfigEntry → ConfigEntry) : ConfigEntries :=
  { self with
    entries := self.entries.map fun entry => if entry.entryId = entryId then change entry else entry }

/-- What Home Assistant does with the result of a step of a flow. -/
def finish (self : ConfigEntries) (running : FlowInProgress) : FlowResult → ConfigEntries
  | .userForm _ => self.waitAt { running with step := .user }
  | .credentialsForm _ _ => self.waitAt { running with step := .credentials }
  | .reconfigureForm _ _ _ => self.waitAt running
  | .abort _ => self.drop running.flowId
  | .createEntry title data =>
      { self.drop running.flowId with
        entries := self.entries ++ [
          { entryId := self.nextId, uniqueId := running.flow.uniqueId, title, data
            options := { connectAttempts := none, commandTimeout := none } }]
        nextId := self.nextId + 1 }
  | .updateReloadAndAbort aesKey unlockKey => match running.step with
      | .reconfigure entryId => (self.drop running.flowId).update entryId fun entry =>
          { entry with data := { entry.data with aesKey, unlockKey } }
      | .user | .credentials => self.drop running.flowId

/-- The flow with this id, and the entry with that one. -/
def flow? (self : ConfigEntries) (flowId : Nat) : Option FlowInProgress :=
  self.flows.find? fun running => running.flowId = flowId

def entry? (self : ConfigEntries) (entryId : Nat) : Option ConfigEntry :=
  self.entries.find? fun entry => entry.entryId = entryId

/-- A flow starts with what its first step returned. -/
def start (self : ConfigEntries) (step : FlowStep) (flow : TTLockConfigFlow) (result : FlowResult) :
    ConfigEntries :=
  { self with nextId := self.nextId + 1 }.finish { flowId := self.nextId, step, flow } result

def step (self : ConfigEntries) : FlowEvent → Option ConfigEntries
  | .discovered info =>
      let (flow, result) :=
        TTLockConfigFlow.new.asyncStepBluetooth hexEncode hexDecode self.idsInProgress self.currentIds info
      some (self.start .credentials flow result)
  | .added seen =>
      let (flow, result) :=
        TTLockConfigFlow.new.asyncStepUser hexEncode hexDecode self.currentIds seen none
      some (self.start .user flow result)
  | .reconfigured entryId => (self.entry? entryId).map fun entry =>
      self.start (.reconfigure entryId) .new
        (TTLockConfigFlow.asyncStepReconfigure hexEncode hexDecode entry none)
  | .submittedUser flowId address seen => match self.flow? flowId with
      | some { flowId, step := .user, flow } =>
          -- `vol.In` the addresses that are shown
          if address.all (· ∈ flow.discovered.map ServiceInfo.address) then
            let (flow, result) := flow.asyncStepUser hexEncode hexDecode self.currentIds seen address
            some (self.finish { flowId, step := .user, flow } result)
          else none
      | _ => none
  | .submittedCredentials flowId userInput => match self.flow? flowId with
      | some { flowId, step := .credentials, flow } =>
          some (self.finish { flowId, step := .credentials, flow }
            (flow.asyncStepCredentials hexEncode hexDecode userInput))
      | some { flowId, step := .reconfigure entryId, flow } =>
          (self.entry? entryId).map fun entry =>
            self.finish { flowId, step := .reconfigure entryId, flow }
              (TTLockConfigFlow.asyncStepReconfigure hexEncode hexDecode entry userInput)
      | _ => none
  | .submittedOptions entryId connectAttempts commandTimeout =>
      (TTLockOptionsFlow.asyncStepInit connectAttempts commandTimeout).map fun options =>
        self.update entryId fun entry => { entry with options }
  | .dropped flowId => some (self.drop flowId)
  | .removed entryId =>
      some { self with entries := self.entries.filter fun entry => entry.entryId ≠ entryId }

end ConfigEntries

end TTLock
