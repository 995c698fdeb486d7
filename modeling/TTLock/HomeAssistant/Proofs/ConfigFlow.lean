import Mathlib.Data.List.Nodup
import TTLock.Core.Proofs.Sciener
import TTLock.HomeAssistant.ConfigFlow

set_option autoImplicit false

/-! # The keys that are in force

Whatever users, discoveries and Home Assistant do, a lock is commanded with the keys of the last form that
was accepted for its entry, and a form that spells the keys an entry has changes nothing. -/

namespace TTLock

/-! ## Through the binding and back -/

theorem bytesFromHex_pair {c d : Char} {rest : List Char} {bytes : List UInt8} {high low : Nat}
    (hspace : isAsciiSpace c = false) (hhigh : Hex.value c = some high) (hlow : Hex.value d = some low)
    (hrest : bytesFromHex rest = some bytes) :
    bytesFromHex (c :: d :: rest) = some (UInt8.ofNat (high * 16 + low) :: bytes) := by
  rw [bytesFromHex, hspace, if_neg Bool.false_ne_true, hhigh, hlow, hrest]
  rfl

/-- Home Assistant reads back the bytes that were written. -/
theorem bytesFromHex_encode (bytes : List UInt8) : bytesFromHex (Hex.encode bytes) = some bytes := by
  induction bytes with
  | nil => rfl
  | cons byte rest ih =>
      have hbyte := byte.toNat_lt
      have hhigh := Hex.value_digit (byte.toNat / 16) (by omega)
      have hlow := Hex.value_digit (byte.toNat % 16) (by omega)
      have hdigit := (kept_of_hexDigit (by rw [hhigh]; rfl)).1
      have hspace : isAsciiSpace (Hex.digit (byte.toNat / 16)) = false := by
        rw [isAsciiSpace, hdigit, Bool.false_and]
      have hspelled : byte.toNat / 16 * 16 + byte.toNat % 16 = byte.toNat := by omega
      rw [Hex.encode, bytesFromHex_pair hspace hhigh hlow ih, hspelled, UInt8.ofNat_toNat]

section

variable {hexEncode : List UInt8 → String} {hexDecode : String → Except String (List UInt8)}

theorem aesKeyArg_bytes (key : AesKey) : aesKeyArg hexDecode (.bytes key.asBytes.toList) = .ok key := by
  rw [aesKeyArg, dif_pos (by simp)]
  rfl

theorem unlockKeyArg_int (key : UnlockKey) : unlockKeyArg (.int key.get.toNat) = .ok key := by
  have hrange : (0 : Int) ≤ key.get.toNat ∧ (key.get.toNat : Int) ≤ 4294967295 := by
    have hlt := key.get.toNat_lt
    omega
  rw [unlockKeyArg, if_pos hrange, Int.toNat_natCast, UInt32.ofNat_toNat, UnlockKey.new,
    dif_pos key.ne_zero]

theorem normalizeAesKey?_text {text key : String} :
    normalizeAesKey? hexEncode hexDecode (.text text) = some key ↔
      ∃ aesKey, AesKey.fromHex hexDecode text = .ok aesKey ∧ key = hexEncode aesKey.asBytes.toList := by
  rw [normalizeAesKey?, normalizeAesKey, aesKeyArg]
  cases AesKey.fromHex hexDecode text with
  | error e => simp [Except.mapError, Except.map, Except.toOption]
  | ok aesKey => simp [Except.mapError, Except.map, Except.toOption, eq_comm]

theorem normalizeUnlockKey?_text {text : String} {key : Int} :
    normalizeUnlockKey? (.text text) = some key ↔
      ∃ unlockKey, UnlockKey.fromStr text = .ok unlockKey ∧ key = unlockKey.get.toNat := by
  rw [normalizeUnlockKey?, normalizeUnlockKey, unlockKeyArg]
  cases UnlockKey.fromStr text with
  | error e => simp [Except.mapError, Except.map, Except.toOption]
  | ok unlockKey => simp [Except.mapError, Except.map, Except.toOption, eq_comm]

end

/-! ## What a step may return -/

/-- The two keys a form spells. -/
structure CredentialsInput.Spells (hexDecode : String → Except String (List UInt8))
    (input : CredentialsInput) (aesKey : AesKey) (unlockKey : UnlockKey) : Prop where
  aesKey_eq : AesKey.fromHex hexDecode input.aesKey = .ok aesKey
  unlockKey_eq : UnlockKey.fromStr input.unlockKey = .ok unlockKey

/-- The two keys an entry holds. -/
structure EntryData.Holds (hexEncode : List UInt8 → String) (data : EntryData) (aesKey : AesKey)
    (unlockKey : UnlockKey) : Prop where
  aesKey_eq : data.aesKey = hexEncode aesKey.asBytes.toList
  unlockKey_eq : data.unlockKey = unlockKey.get.toNat

section

variable {hexEncode : List UInt8 → String} {hexDecode : String → Except String (List UInt8)}

/-- A form is accepted if it spells two keys, and only then. -/
theorem normalized_cases (hexEncode : List UInt8 → String) (input : CredentialsInput) :
    (∃ aesKey unlockKey, input.Spells hexDecode aesKey unlockKey ∧
      normalizeAesKey? hexEncode hexDecode (.text input.aesKey) = some (hexEncode aesKey.asBytes.toList) ∧
      normalizeUnlockKey? (.text input.unlockKey) = some (unlockKey.get.toNat : Int)) ∨
    (∀ aesKey unlockKey, ¬input.Spells hexDecode aesKey unlockKey) ∧
      (normalizeAesKey? hexEncode hexDecode (.text input.aesKey) = none ∨
        normalizeUnlockKey? (.text input.unlockKey) = none) := by
  cases haes : normalizeAesKey? hexEncode hexDecode (.text input.aesKey) with
  | none =>
      refine .inr ⟨fun aesKey unlockKey h => ?_, .inl rfl⟩
      rw [normalizeAesKey?_text.2 ⟨aesKey, h.aesKey_eq, rfl⟩] at haes
      cases haes
  | some hex => cases hunlock : normalizeUnlockKey? (.text input.unlockKey) with
    | none =>
        refine .inr ⟨fun aesKey unlockKey h => ?_, .inr rfl⟩
        rw [normalizeUnlockKey?_text.2 ⟨unlockKey, h.unlockKey_eq, rfl⟩] at hunlock
        cases hunlock
    | some value =>
        obtain ⟨aesKey, haesKey, rfl⟩ := normalizeAesKey?_text.1 haes
        obtain ⟨unlockKey, hunlockKey, rfl⟩ := normalizeUnlockKey?_text.1 hunlock
        exact .inl ⟨aesKey, unlockKey, ⟨haesKey, hunlockKey⟩, rfl, rfl⟩

/-- The result of a step that leaves the entries as they are. -/
def FlowResult.Idle : FlowResult → Prop
  | .createEntry _ _ | .updateReloadAndAbort _ _ => False
  | .userForm _ | .credentialsForm _ _ | .reconfigureForm _ _ _ | .abort _ => True

/-- What a flow has been told fits together. -/
def TTLockConfigFlow.Heard (flow : TTLockConfigFlow) : Prop :=
  ∀ info, flow.discovery = some info → flow.uniqueId = some info.address

theorem asyncStepCredentials_cases {flow : TTLockConfigFlow} (hheard : flow.Heard)
    (input : CredentialsInput) :
    (∃ aesKey unlockKey title data, input.Spells hexDecode aesKey unlockKey ∧
      data.Holds hexEncode aesKey unlockKey ∧ data.address = flow.uniqueId ∧
      flow.asyncStepCredentials hexEncode hexDecode (some input) = .createEntry title data) ∨
    (∀ aesKey unlockKey, ¬input.Spells hexDecode aesKey unlockKey) ∧
      ∃ errors name,
        flow.asyncStepCredentials hexEncode hexDecode (some input) = .credentialsForm errors name := by
  rcases normalized_cases hexEncode input with ⟨aesKey, unlockKey, hspells, haes, hunlock⟩ | ⟨hnot, hnone⟩
  · refine .inl ⟨aesKey, unlockKey, flow.title, ⟨flow.address, _, _⟩, hspells, ⟨rfl, rfl⟩, ?_, ?_⟩
    · rw [TTLockConfigFlow.address]
      cases hdiscovery : flow.discovery with
      | none => rfl
      | some info => exact (hheard info hdiscovery).symm
    · rw [TTLockConfigFlow.asyncStepCredentials, haes, hunlock]
  · refine .inr ⟨hnot, credentialErrors (normalizeAesKey? hexEncode hexDecode (.text input.aesKey))
      (normalizeUnlockKey? (.text input.unlockKey)), flow.name, ?_⟩
    rw [TTLockConfigFlow.asyncStepCredentials]
    rcases hnone with haes | hunlock
    · rw [haes]
    · rw [hunlock]
      cases normalizeAesKey? hexEncode hexDecode (.text input.aesKey) <;> rfl

theorem asyncStepReconfigure_cases (hexEncode : List UInt8 → String)
    (hexDecode : String → Except String (List UInt8)) (entry : ConfigEntry) (input : CredentialsInput) :
    (∃ aesKey unlockKey, input.Spells hexDecode aesKey unlockKey ∧
      TTLockConfigFlow.asyncStepReconfigure hexEncode hexDecode entry (some input) =
        .updateReloadAndAbort (hexEncode aesKey.asBytes.toList) unlockKey.get.toNat) ∨
    (∀ aesKey unlockKey, ¬input.Spells hexDecode aesKey unlockKey) ∧
      ∃ errors, TTLockConfigFlow.asyncStepReconfigure hexEncode hexDecode entry (some input) =
          .reconfigureForm entry.data errors entry.title := by
  rw [TTLockConfigFlow.asyncStepReconfigure]
  rcases normalized_cases hexEncode input with ⟨aesKey, unlockKey, hspells, haes, hunlock⟩ | ⟨hnot, hnone⟩
  · exact .inl ⟨aesKey, unlockKey, hspells, by rw [haes, hunlock]⟩
  · refine .inr ⟨hnot, credentialErrors (normalizeAesKey? hexEncode hexDecode (.text input.aesKey))
      (normalizeUnlockKey? (.text input.unlockKey)), ?_⟩
    rcases hnone with haes | hunlock
    · rw [haes]
    · rw [hunlock]
      cases normalizeAesKey? hexEncode hexDecode (.text input.aesKey) <;> rfl

/-- A step that does not end the flow leaves one that fits together, and has a name when it asks for
    credentials. -/
structure Asks (flow : TTLockConfigFlow) (result : FlowResult) : Prop where
  heard : (∀ reason, result ≠ .abort reason) → flow.Heard
  named : ∀ errors name, result = .credentialsForm errors name → ∃ address, flow.uniqueId = some address

theorem asks_abort (flow : TTLockConfigFlow) (reason : String) :
    Asks flow (.abort reason) ∧ (FlowResult.abort reason).Idle :=
  ⟨⟨fun h => absurd rfl (h reason), nofun⟩, trivial⟩

theorem asyncStepBluetooth_asks (hexEncode : List UInt8 → String)
    (hexDecode : String → Except String (List UInt8)) (inProgress configured : List String)
    (info : ServiceInfo) :
    Asks (TTLockConfigFlow.new.asyncStepBluetooth hexEncode hexDecode inProgress configured info).1
      (TTLockConfigFlow.new.asyncStepBluetooth hexEncode hexDecode inProgress configured info).2 ∧
    (TTLockConfigFlow.new.asyncStepBluetooth hexEncode hexDecode inProgress configured info).2.Idle := by
  rw [TTLockConfigFlow.asyncStepBluetooth]
  split
  · exact asks_abort _ _
  · split
    · exact asks_abort _ _
    · refine ⟨⟨fun _ => ?_, fun _ _ _ => ⟨info.address, rfl⟩⟩, trivial⟩
      rintro _ ⟨⟩
      rfl

theorem asyncStepBluetooth_uniqueId (inProgress configured : List String) (info : ServiceInfo) :
    (TTLockConfigFlow.new.asyncStepBluetooth hexEncode hexDecode inProgress configured info).1.uniqueId =
      some info.address := by
  rw [TTLockConfigFlow.asyncStepBluetooth]
  split
  · rfl
  · split <;> rfl

theorem asyncStepUser_asks (hexEncode : List UInt8 → String)
    (hexDecode : String → Except String (List UInt8)) {flow : TTLockConfigFlow} (hheard : flow.Heard)
    (configured : List String) (seen : List ServiceInfo) (address : Option String) :
    Asks (flow.asyncStepUser hexEncode hexDecode configured seen address).1
      (flow.asyncStepUser hexEncode hexDecode configured seen address).2 ∧
    (flow.asyncStepUser hexEncode hexDecode configured seen address).2.Idle := by
  cases address with
  | none =>
      rw [TTLockConfigFlow.asyncStepUser]
      split
      · exact asks_abort _ _
      · exact ⟨⟨fun _ => hheard, nofun⟩, trivial⟩
  | some address =>
      rw [TTLockConfigFlow.asyncStepUser]
      split
      · exact asks_abort _ _
      · refine ⟨⟨fun _ info hinfo => ?_, fun _ _ _ => ⟨address, rfl⟩⟩, trivial⟩
        have haddress : info.address = address := by simpa using List.find?_some hinfo
        rw [haddress]

end

/-! ## What a step does to the entries -/

def EntryOptions.InRange (options : EntryOptions) : Prop :=
  (∀ n, options.connectAttempts = some n → MIN_CONNECT_ATTEMPTS ≤ n ∧ n ≤ MAX_CONNECT_ATTEMPTS) ∧
  ∀ n, options.commandTimeout = some n → MIN_COMMAND_TIMEOUT ≤ n ∧ n ≤ MAX_COMMAND_TIMEOUT

theorem coercedInRange_eq_some {min max value : Int} {field : Option Int}
    (h : coercedInRange min max field = some value) : min ≤ value ∧ value ≤ max := by
  have hrange := (Option.filter_eq_some_iff.1 h).2
  simpa using hrange

theorem asyncStepInit_inRange {connectAttempts commandTimeout : Option Int} {options : EntryOptions}
    (h : TTLockOptionsFlow.asyncStepInit connectAttempts commandTimeout = some options) :
    options.InRange := by
  rw [TTLockOptionsFlow.asyncStepInit] at h
  split at h
  · next hattempts htimeout =>
      obtain rfl := Option.some.inj h
      refine ⟨?_, ?_⟩
      · rintro _ ⟨⟩
        exact coercedInRange_eq_some hattempts
      · rintro _ ⟨⟩
        exact coercedInRange_eq_some htimeout
  · cases h

/-- A flow in progress fits together, and has a name if it is at the credentials form. -/
structure FlowInProgress.Identified (running : FlowInProgress) : Prop where
  heard : running.flow.Heard
  named : running.step = .credentials → ∃ address, running.flow.uniqueId = some address

/-- Both fields of a form can be read. -/
def CredentialsInput.valid (hexDecode : String → Except String (List UInt8)) (input : CredentialsInput) :
    Bool :=
  (AesKey.fromHex hexDecode input.aesKey).isOk && (UnlockKey.fromStr input.unlockKey).isOk

namespace ConfigEntries

/-- The form that is accepted in a step, and the entry it is accepted for. -/
def accepts (hexDecode : String → Except String (List UInt8)) (self : ConfigEntries) :
    FlowEvent → Option (Nat × CredentialsInput)
  | .submittedCredentials flowId (some input) =>
      if input.valid hexDecode then match (self.flow? flowId).map FlowInProgress.step with
        | some .credentials => some (self.nextId, input)
        | some (.reconfigure entryId) => some (entryId, input)
        | _ => none
      else none
  | _ => none

/-- What a step does to the entries, given what it accepts. -/
inductive Changed (hexEncode : List UInt8 → String) (hexDecode : String → Except String (List UInt8))
    (self : ConfigEntries) : Option (Nat × CredentialsInput) → ConfigEntries → Prop
  | kept {self' : ConfigEntries} (hentries : self'.entries = self.entries)
      (hid : self.nextId ≤ self'.nextId) : Changed hexEncode hexDecode self none self'
  | created {self' : ConfigEntries} {input : CredentialsInput} {aesKey : AesKey} {unlockKey : UnlockKey}
      {title address : String} {data : EntryData} (hspells : input.Spells hexDecode aesKey unlockKey)
      (hholds : data.Holds hexEncode aesKey unlockKey) (haddress : data.address = some address)
      (hentries : self'.entries = self.entries ++
        [⟨self.nextId, some address, title, data, ⟨none, none⟩⟩])
      (hid : self'.nextId = self.nextId + 1) :
      Changed hexEncode hexDecode self (some (self.nextId, input)) self'
  | updated {self' : ConfigEntries} {entryId : Nat} {input : CredentialsInput} {aesKey : AesKey}
      {unlockKey : UnlockKey} (hspells : input.Spells hexDecode aesKey unlockKey)
      (hentries : self'.entries = (self.update entryId fun entry => { entry with data := {
        entry.data with aesKey := hexEncode aesKey.asBytes.toList
                        unlockKey := unlockKey.get.toNat } }).entries)
      (hid : self'.nextId = self.nextId) :
      Changed hexEncode hexDecode self (some (entryId, input)) self'
  | tuned {self' : ConfigEntries} {entryId : Nat} {options : EntryOptions} (hrange : options.InRange)
      (hentries : self'.entries = (self.update entryId fun entry => { entry with options }).entries)
      (hid : self'.nextId = self.nextId) : Changed hexEncode hexDecode self none self'
  | removed {self' : ConfigEntries} {entryId : Nat}
      (hentries : self'.entries = self.entries.filter fun entry => entry.entryId ≠ entryId)
      (hid : self'.nextId = self.nextId) : Changed hexEncode hexDecode self none self'

section

variable {hexEncode : List UInt8 → String} {hexDecode : String → Except String (List UInt8)}
  {self self' : ConfigEntries} {running : FlowInProgress} {result : FlowResult}

theorem finish_idle (self : ConfigEntries) (running : FlowInProgress) (h : result.Idle) :
    (self.finish running result).entries = self.entries ∧
      (self.finish running result).nextId = self.nextId := by
  cases result with
  | createEntry | updateReloadAndAbort => exact h.elim
  | userForm | credentialsForm | reconfigureForm | abort => exact ⟨rfl, rfl⟩

theorem start_changed {step : FlowStep} {flow : TTLockConfigFlow} (h : result.Idle) :
    Changed hexEncode hexDecode self none (self.start step flow result) := by
  obtain ⟨hentries, hid⟩ := finish_idle { self with nextId := self.nextId + 1 }
    { flowId := self.nextId, step, flow } h
  exact .kept hentries (hid ▸ Nat.le_succ _)

theorem flow?_mem {flowId : Nat} (h : self.flow? flowId = some running) : running ∈ self.flows :=
  List.mem_of_find?_eq_some h

/-- A form that spells two keys is valid, and no other one. -/
theorem valid_of_spells {input : CredentialsInput} {aesKey : AesKey} {unlockKey : UnlockKey}
    (h : input.Spells hexDecode aesKey unlockKey) : input.valid hexDecode = true := by
  rw [CredentialsInput.valid, h.aesKey_eq, h.unlockKey_eq]
  rfl

theorem not_valid {input : CredentialsInput}
    (h : ∀ aesKey unlockKey, ¬input.Spells hexDecode aesKey unlockKey) :
    input.valid hexDecode = false := by
  rw [CredentialsInput.valid]
  cases haes : AesKey.fromHex hexDecode input.aesKey with
  | error e => rfl
  | ok aesKey => cases hunlock : UnlockKey.fromStr input.unlockKey with
    | error e => rfl
    | ok unlockKey => exact absurd ⟨haes, hunlock⟩ (h aesKey unlockKey)

/-! ### Flows -/

theorem mem_drop_flows {flowId : Nat} (h : running ∈ (self.drop flowId).flows) : running ∈ self.flows :=
  (List.mem_filter.1 h).1

/-- What is in progress after a step was in progress before, or is the flow that goes on. -/
theorem finish_identified (hflows : ∀ running ∈ self.flows, running.Identified)
    (hasks : Asks running.flow result)
    (hnamed : running.step = .credentials → ∃ address, running.flow.uniqueId = some address) :
    ∀ running' ∈ (self.finish running result).flows, running'.Identified := by
  have hwaits : ∀ step, (running.flow.Heard) →
      (step = .credentials → ∃ address, running.flow.uniqueId = some address) →
      ∀ running' ∈ (self.waitAt { running with step }).flows, running'.Identified := by
    intro step hheard hstep running' hmem
    rcases List.mem_cons.1 hmem with rfl | hmem
    · exact ⟨hheard, hstep⟩
    · exact hflows running' (mem_drop_flows hmem)
  cases result with
  | userForm choices => exact hwaits .user (hasks.heard nofun) nofun
  | credentialsForm errors name =>
      exact hwaits .credentials (hasks.heard nofun) fun _ => hasks.named errors name rfl
  | reconfigureForm suggested errors name => exact hwaits running.step (hasks.heard nofun) hnamed
  | abort reason => exact fun running' hmem => hflows running' (mem_drop_flows hmem)
  | createEntry title data => exact fun running' hmem => hflows running' (mem_drop_flows hmem)
  | updateReloadAndAbort aesKey unlockKey =>
      intro running' hmem
      have hdropped : running' ∈ (self.drop running.flowId).flows := by
        rw [finish] at hmem
        cases hstep : running.step with
        | reconfigure entryId =>
            rw [hstep] at hmem
            exact hmem
        | user | credentials =>
            rw [hstep] at hmem
            exact hmem
      exact hflows running' (mem_drop_flows hdropped)

theorem start_identified (hflows : ∀ running ∈ self.flows, running.Identified) {step : FlowStep}
    {flow : TTLockConfigFlow} (hasks : Asks flow result)
    (hnamed : step = .credentials → ∃ address, flow.uniqueId = some address) :
    ∀ running' ∈ (self.start step flow result).flows, running'.Identified :=
  @finish_identified { self with nextId := self.nextId + 1 } { flowId := self.nextId, step, flow } result
    hflows hasks hnamed

/-! ### Steps -/

theorem heard_new : TTLockConfigFlow.new.Heard := nofun

/-- A form that spells no two keys is not accepted, whatever it is for. -/
theorem accepts_not_valid {flowId : Nat} {input : CredentialsInput}
    (hnot : ∀ aesKey unlockKey, ¬input.Spells hexDecode aesKey unlockKey) :
    self.accepts hexDecode (.submittedCredentials flowId (some input)) = none := by
  rw [accepts, not_valid hnot, if_neg Bool.false_ne_true]

/-- The credentials form, by what it spells. -/
theorem credentials_changed {flowId : Nat} {flow : TTLockConfigFlow} {input : CredentialsInput}
    (hflow : self.flow? flowId = some ⟨flowId, .credentials, flow⟩)
    (hok : (⟨flowId, .credentials, flow⟩ : FlowInProgress).Identified) :
    Changed hexEncode hexDecode self (self.accepts hexDecode (.submittedCredentials flowId (some input)))
      (self.finish ⟨flowId, .credentials, flow⟩
        (flow.asyncStepCredentials hexEncode hexDecode (some input))) := by
  rcases asyncStepCredentials_cases hok.heard input with
    ⟨aesKey, unlockKey, title, data, hspells, hholds, haddress, hresult⟩ | ⟨hnot, errors, name, hresult⟩
  · obtain ⟨address, hname⟩ := hok.named rfl
    have haccepts : self.accepts hexDecode (.submittedCredentials flowId (some input)) =
        some (self.nextId, input) := by
      rw [accepts, if_pos (valid_of_spells hspells), hflow]
      rfl
    rw [haccepts, hresult]
    exact .created hspells hholds (haddress.trans hname) (by rw [finish, hname]) rfl
  · rw [accepts_not_valid hnot, hresult]
    exact .kept rfl (Nat.le_refl _)

theorem reconfigure_changed {flowId entryId : Nat} {flow : TTLockConfigFlow} {entry : ConfigEntry}
    {input : CredentialsInput} (hflow : self.flow? flowId = some ⟨flowId, .reconfigure entryId, flow⟩) :
    Changed hexEncode hexDecode self (self.accepts hexDecode (.submittedCredentials flowId (some input)))
      (self.finish ⟨flowId, .reconfigure entryId, flow⟩
        (TTLockConfigFlow.asyncStepReconfigure hexEncode hexDecode entry (some input))) := by
  rcases asyncStepReconfigure_cases hexEncode hexDecode entry input with
    ⟨aesKey, unlockKey, hspells, hresult⟩ | ⟨hnot, errors, hresult⟩
  · have haccepts : self.accepts hexDecode (.submittedCredentials flowId (some input)) =
        some (entryId, input) := by
      rw [accepts, if_pos (valid_of_spells hspells), hflow]
      rfl
    rw [haccepts, hresult]
    exact .updated hspells rfl rfl
  · rw [accepts_not_valid hnot, hresult]
    exact .kept rfl (Nat.le_refl _)

theorem flow?_flowId {flowId : Nat} (h : self.flow? flowId = some running) : running.flowId = flowId := by
  simpa using List.find?_some h

/-- **What a step does**, and what it leaves in progress. -/
theorem step_cases {event : FlowEvent} (hflows : ∀ running ∈ self.flows, running.Identified)
    (h : self.step hexEncode hexDecode event = some self') :
    Changed hexEncode hexDecode self (self.accepts hexDecode event) self' ∧
      ∀ running ∈ self'.flows, running.Identified := by
  cases event with
  | discovered info =>
      obtain rfl := Option.some.inj h
      obtain ⟨hasks, hidle⟩ :=
        asyncStepBluetooth_asks hexEncode hexDecode self.idsInProgress self.currentIds info
      exact ⟨start_changed hidle,
        start_identified hflows hasks fun _ => ⟨info.address, asyncStepBluetooth_uniqueId _ _ _⟩⟩
  | added seen =>
      obtain rfl := Option.some.inj h
      obtain ⟨hasks, hidle⟩ := asyncStepUser_asks hexEncode hexDecode heard_new self.currentIds seen none
      exact ⟨start_changed hidle, start_identified hflows hasks nofun⟩
  | reconfigured entryId =>
      obtain ⟨entry, -, rfl⟩ := Option.map_eq_some_iff.1 h
      have hasks : Asks .new (TTLockConfigFlow.asyncStepReconfigure hexEncode hexDecode entry none) :=
        ⟨fun _ => heard_new, nofun⟩
      have hidle : (TTLockConfigFlow.asyncStepReconfigure hexEncode hexDecode entry none).Idle := trivial
      exact ⟨start_changed hidle, start_identified hflows hasks nofun⟩
  | submittedUser flowId address seen =>
      rw [step] at h
      split at h
      · next flowId' flow hflow =>
          split at h
          · obtain rfl := Option.some.inj h
            obtain ⟨hasks, hidle⟩ := asyncStepUser_asks hexEncode hexDecode
              (hflows _ (flow?_mem hflow)).heard self.currentIds seen address
            obtain ⟨hentries, hid⟩ := finish_idle self ⟨flowId', .user, _⟩ hidle
            exact ⟨.kept hentries hid.ge, finish_identified hflows hasks nofun⟩
          · cases h
      · cases h
  | submittedCredentials flowId userInput =>
      rw [step] at h
      split at h
      · next flowId' flow hflow =>
          obtain rfl := Option.some.inj h
          obtain rfl : flowId' = flowId := flow?_flowId hflow
          have hok := hflows _ (flow?_mem hflow)
          refine ⟨?_, finish_identified hflows ⟨fun _ => hok.heard, fun _ _ _ => hok.named rfl⟩ hok.named⟩
          cases userInput with
          | none => exact .kept rfl (Nat.le_refl _)
          | some input => exact credentials_changed hflow hok
      · next flowId' entryId flow hflow =>
          obtain ⟨entry, -, rfl⟩ := Option.map_eq_some_iff.1 h
          obtain rfl : flowId' = flowId := flow?_flowId hflow
          have hok := hflows _ (flow?_mem hflow)
          refine ⟨?_, finish_identified hflows ⟨fun _ => hok.heard, ?_⟩ hok.named⟩
          · cases userInput with
            | none => exact .kept rfl (Nat.le_refl _)
            | some input => exact reconfigure_changed hflow
          · intro errors name hresult
            cases userInput with
            | none => cases hresult
            | some input =>
                rcases asyncStepReconfigure_cases hexEncode hexDecode entry input with
                  ⟨_, _, -, h⟩ | ⟨-, _, h⟩
                · rw [h] at hresult
                  cases hresult
                · rw [h] at hresult
                  cases hresult
      · cases h
  | submittedOptions entryId connectAttempts commandTimeout =>
      obtain ⟨options, hoptions, rfl⟩ := Option.map_eq_some_iff.1 h
      exact ⟨.tuned (asyncStepInit_inRange hoptions) rfl rfl, hflows⟩
  | dropped flowId =>
      obtain rfl := Option.some.inj h
      exact ⟨.kept rfl (Nat.le_refl _), fun running hmem => hflows running (mem_drop_flows hmem)⟩
  | removed entryId =>
      obtain rfl := Option.some.inj h
      exact ⟨.removed rfl rfl, hflows⟩

end

end ConfigEntries

/-! ## Runs -/

/-- The form that was accepted last for an entry. -/
def lastFor (entryId : Nat) (accepted : List (Nat × CredentialsInput)) : Option CredentialsInput :=
  accepted.reverse.lookup entryId

theorem lastFor_concat_self (entryId : Nat) (accepted : List (Nat × CredentialsInput))
    (input : CredentialsInput) : lastFor entryId (accepted ++ [(entryId, input)]) = some input := by
  rw [lastFor, List.reverse_append, List.reverse_singleton, List.singleton_append, List.lookup_cons_self]

theorem lastFor_concat_ne {entryId entryId' : Nat} (hne : entryId ≠ entryId')
    (accepted : List (Nat × CredentialsInput)) (input : CredentialsInput) :
    lastFor entryId (accepted ++ [(entryId', input)]) = lastFor entryId accepted := by
  rw [lastFor, List.reverse_append, List.reverse_singleton, List.singleton_append, List.lookup_cons,
    beq_false_of_ne hne]
  rfl

section

variable (hexEncode : List UInt8 → String) (hexDecode : String → Except String (List UInt8))

/-- An entry has the keys of the form that was accepted last for it, the address it is known by, and
    options that are allowed. -/
structure ConfigEntry.InForce (accepted : List (Nat × CredentialsInput)) (entry : ConfigEntry) : Prop where
  keys : ∃ input aesKey unlockKey, lastFor entry.entryId accepted = some input ∧
    input.Spells hexDecode aesKey unlockKey ∧ entry.data.Holds hexEncode aesKey unlockKey
  address : ∃ address, entry.uniqueId = some address ∧ entry.data.address = some address
  options : entry.options.InRange

namespace ConfigEntries

/-- What every step keeps. -/
structure Kept (registry : ConfigEntries) (accepted : List (Nat × CredentialsInput)) : Prop where
  inForce : ∀ entry ∈ registry.entries, entry.InForce hexEncode hexDecode accepted
  distinct : (registry.entries.map ConfigEntry.entryId).Nodup
  below : ∀ entryId ∈ registry.entries.map ConfigEntry.entryId, entryId < registry.nextId
  identified : ∀ running ∈ registry.flows, running.Identified

/-- The forms accepted in a run, in their order. -/
def accepted (events : List FlowEvent) : List (Nat × CredentialsInput) :=
  Runs.projected (step hexEncode hexDecode) (fun self event => (self.accepts hexDecode event).toList) empty
    events

end ConfigEntries

end

theorem ConfigEntry.InForce.concat_ne {hexEncode : List UInt8 → String}
    {hexDecode : String → Except String (List UInt8)} {accepted : List (Nat × CredentialsInput)}
    {entry : ConfigEntry} {entryId : Nat} {input : CredentialsInput}
    (h : entry.InForce hexEncode hexDecode accepted) (hne : entry.entryId ≠ entryId) :
    entry.InForce hexEncode hexDecode (accepted ++ [(entryId, input)]) := by
  obtain ⟨⟨input', aesKey, unlockKey, hlast, hkeys⟩, haddress, hoptions⟩ := h
  exact ⟨⟨input', aesKey, unlockKey, (lastFor_concat_ne hne accepted input).trans hlast, hkeys⟩, haddress,
    hoptions⟩

namespace ConfigEntries

variable {hexEncode : List UInt8 → String} {hexDecode : String → Except String (List UInt8)}
  {self self' : ConfigEntries}

theorem mem_update {entryId : Nat} {change : ConfigEntry → ConfigEntry} {entry' : ConfigEntry}
    (h : entry' ∈ (self.update entryId change).entries) :
    ∃ entry ∈ self.entries, entry.entryId = entryId ∧ entry' = change entry ∨
      entry.entryId ≠ entryId ∧ entry' = entry := by
  obtain ⟨entry, hentry, rfl⟩ := List.mem_map.1 h
  refine ⟨entry, hentry, ?_⟩
  by_cases hid : entry.entryId = entryId
  · exact .inl ⟨hid, if_pos hid⟩
  · exact .inr ⟨hid, if_neg hid⟩

theorem entryIds_update {entryId : Nat} {change : ConfigEntry → ConfigEntry}
    (hchange : ∀ entry, (change entry).entryId = entry.entryId) :
    (self.update entryId change).entries.map ConfigEntry.entryId =
      self.entries.map ConfigEntry.entryId := by
  rw [update, List.map_map]
  refine List.map_congr_left fun entry _ => ?_
  show (if entry.entryId = entryId then change entry else entry).entryId = entry.entryId
  split
  · exact hchange entry
  · rfl

theorem Kept.empty : (ConfigEntries.empty).Kept hexEncode hexDecode [] :=
  ⟨nofun, List.nodup_nil, nofun, nofun⟩

/-- An update leaves the other entries as they are. -/
theorem Kept.update {accepted : List (Nat × CredentialsInput)} {form : Option (Nat × CredentialsInput)}
    {entryId : Nat} {change : ConfigEntry → ConfigEntry} (hkept : self.Kept hexEncode hexDecode accepted)
    (hentries : self'.entries = (self.update entryId change).entries) (hid : self'.nextId = self.nextId)
    (hidentified : ∀ running ∈ self'.flows, running.Identified)
    (hchange : ∀ entry, (change entry).entryId = entry.entryId)
    (hchanged : ∀ entry ∈ self.entries, entry.entryId = entryId →
      (change entry).InForce hexEncode hexDecode (accepted ++ form.toList))
    (hother : ∀ entry ∈ self.entries, entry.entryId ≠ entryId →
      entry.InForce hexEncode hexDecode (accepted ++ form.toList)) :
    self'.Kept hexEncode hexDecode (accepted ++ form.toList) := by
  have hids : self'.entries.map ConfigEntry.entryId = self.entries.map ConfigEntry.entryId := by
    rw [hentries, entryIds_update hchange]
  refine ⟨fun entry' hentry' => ?_, hids ▸ hkept.distinct, ?_, hidentified⟩
  · obtain ⟨entry, hentry, ⟨heq, rfl⟩ | ⟨hne, rfl⟩⟩ := mem_update (hentries ▸ hentry')
    · exact hchanged entry hentry heq
    · exact hother entry' hentry hne
  · rw [hids, hid]
    exact hkept.below

/-- **Every step keeps it.** -/
theorem Kept.step {accepted : List (Nat × CredentialsInput)} {event : FlowEvent}
    (hkept : self.Kept hexEncode hexDecode accepted)
    (h : self.step hexEncode hexDecode event = some self') :
    self'.Kept hexEncode hexDecode (accepted ++ (self.accepts hexDecode event).toList) := by
  obtain ⟨hchanged, hidentified⟩ := step_cases hkept.identified h
  generalize self.accepts hexDecode event = form at hchanged
  cases hchanged with
  | kept hentries hid =>
      rw [Option.toList_none, List.append_nil]
      exact ⟨hentries ▸ hkept.inForce, hentries ▸ hkept.distinct,
        fun entryId hmem => (hkept.below entryId (hentries ▸ hmem)).trans_le hid, hidentified⟩
  | @created _ input aesKey unlockKey title address data hspells hholds haddress hentries hid =>
      have hfresh : ∀ entry ∈ self.entries, entry.entryId ≠ self.nextId := fun entry hentry =>
        (hkept.below _ (List.mem_map_of_mem hentry)).ne
      refine ⟨fun entry hentry => ?_, ?_, fun entryId hmem => ?_, hidentified⟩
      · rw [hentries] at hentry
        rcases List.mem_append.1 hentry with hentry | hentry
        · exact (hkept.inForce entry hentry).concat_ne (hfresh entry hentry)
        · obtain rfl := List.mem_singleton.1 hentry
          exact ⟨⟨input, aesKey, unlockKey, lastFor_concat_self _ _ _, hspells, hholds⟩,
            ⟨address, rfl, haddress⟩, nofun, nofun⟩
      · rw [hentries, List.map_append, List.nodup_append]
        refine ⟨hkept.distinct, List.nodup_singleton _, ?_⟩
        rintro _ hold _ hnew rfl
        exact (hkept.below _ hold).ne (List.mem_singleton.1 hnew)
      · rw [hentries, List.map_append] at hmem
        rw [hid]
        rcases List.mem_append.1 hmem with hmem | hmem
        · exact Nat.lt_succ_of_lt (hkept.below entryId hmem)
        · obtain rfl := List.mem_singleton.1 hmem
          exact Nat.lt_succ_self _
  | @updated _ entryId input aesKey unlockKey hspells hentries hid =>
      refine hkept.update hentries hid hidentified (fun _ => rfl) ?_ ?_
      · rintro entry hentry rfl
        obtain ⟨-, haddress, hoptions⟩ := hkept.inForce entry hentry
        have hlast := lastFor_concat_self entry.entryId accepted input
        exact ⟨⟨input, aesKey, unlockKey, hlast, hspells, rfl, rfl⟩, haddress, hoptions⟩
      · intro entry hentry hne
        exact (hkept.inForce entry hentry).concat_ne hne
  | @tuned _ entryId options hrange hentries hid =>
      refine hkept.update hentries hid hidentified (fun _ => rfl) ?_ ?_
      · intro entry hentry _
        rw [Option.toList_none, List.append_nil]
        obtain ⟨hkeys, haddress, -⟩ := hkept.inForce entry hentry
        exact ⟨hkeys, haddress, hrange⟩
      · intro entry hentry _
        rw [Option.toList_none, List.append_nil]
        exact hkept.inForce entry hentry
  | @removed _ entryId hentries hid =>
      rw [Option.toList_none, List.append_nil]
      have hsub : (self'.entries.map ConfigEntry.entryId).Sublist
          (self.entries.map ConfigEntry.entryId) := by
        rw [hentries]
        exact List.filter_sublist.map _
      refine ⟨fun entry hentry => ?_, hkept.distinct.sublist hsub, fun entryId hmem => ?_, hidentified⟩
      · rw [hentries] at hentry
        exact hkept.inForce entry (List.mem_of_mem_filter hentry)
      · rw [hid]
        exact hkept.below entryId (hsub.subset hmem)

/-- **Every run keeps it.** -/
theorem kept_of_exec {events : List FlowEvent} {registry : ConfigEntries}
    (hrun : Runs.exec (step hexEncode hexDecode) empty events = some registry) :
    registry.Kept hexEncode hexDecode (accepted hexEncode hexDecode events) := by
  have hkept := Runs.exec_traced (g := fun self event => (self.accepts hexDecode event).toList)
    (I := fun self accepted => self.Kept hexEncode hexDecode accepted)
    (fun _ _ _ _ hkept h => hkept.step h) hrun Kept.empty
  rwa [List.nil_append] at hkept

end ConfigEntries

/-- What an entry is set up with, if it has the keys of a form. -/
theorem ConfigEntry.setup_of_holds {hexEncode : List UInt8 → String}
    (hencode : ∀ bytes, (hexEncode bytes).toList = Hex.encode bytes) {aesKey : AesKey}
    {unlockKey : UnlockKey} {entry : ConfigEntry} (hholds : entry.data.Holds hexEncode aesKey unlockKey) :
    asyncSetupEntry true entry = .ok
      { address := entry.data.address
        aesKey := aesKey.asBytes.toList
        unlockKey := unlockKey.get.toNat
        connectAttempts := entry.options.connectAttempts.getD DEFAULT_CONNECT_ATTEMPTS
        commandTimeout := entry.options.commandTimeout.getD DEFAULT_COMMAND_TIMEOUT } := by
  rw [asyncSetupEntry, if_neg (by decide), hholds.aesKey_eq, hencode, bytesFromHex_encode,
    hholds.unlockKey_eq]

/-- Options that are allowed, or their defaults. -/
theorem EntryOptions.InRange.getD {options : EntryOptions} (h : options.InRange) :
    (1 ≤ options.connectAttempts.getD DEFAULT_CONNECT_ATTEMPTS ∧
      options.connectAttempts.getD DEFAULT_CONNECT_ATTEMPTS ≤ 10) ∧
    5 ≤ options.commandTimeout.getD DEFAULT_COMMAND_TIMEOUT ∧
      options.commandTimeout.getD DEFAULT_COMMAND_TIMEOUT ≤ 120 := by
  constructor
  · cases hattempts : options.connectAttempts with
    | none => decide
    | some n => exact h.1 n hattempts
  · cases htimeout : options.commandTimeout with
    | none => decide
    | some n => exact h.2 n htimeout

/-! A lock is heard, its keys are entered with a slip and then without, and its unlock key is edited. -/

def sampleForm (unlockKey : String) : CredentialsInput :=
  { aesKey := "00:11:22:33:44:55:66:77:88:99:AA:BB:CC:DD:EE:FF", unlockKey }

def sampleFlows : List FlowEvent :=
  [.discovered ⟨"AA:BB:CC:DD:EE:FF", ""⟩, .submittedCredentials 0 (some (sampleForm "0")),
    .submittedCredentials 0 (some (sampleForm "12345678")), .reconfigured 1,
    .submittedCredentials 2 (some (sampleForm " 7 ")), .submittedOptions 1 (some 10) (some 5),
    .reconfigured 1]

/-- The entry, and the form that has been opened to edit it once more. -/
def sampleConfigEntry : ConfigEntry :=
  { entryId := 1
    uniqueId := some "AA:BB:CC:DD:EE:FF"
    title := "TTLock AA:BB:CC:DD:EE:FF"
    data := {
      address := some "AA:BB:CC:DD:EE:FF", aesKey := "00112233445566778899aabbccddeeff", unlockKey := 7 }
    options := { connectAttempts := some 10, commandTimeout := some 5 } }

def sampleEntries : ConfigEntries :=
  { entries := [sampleConfigEntry], flows := [⟨3, .reconfigure 1, .new⟩], nextId := 4 }

/-- The real engine, but for the texts of its errors. -/
def sampleHex : HexEngine := HexEngine.standard id

theorem sampleHex_encode (bytes : List UInt8) : (sampleHex.encode bytes).toList = Hex.encode bytes :=
  String.toList_ofList

theorem exec_sampleFlows :
    Runs.exec (ConfigEntries.step sampleHex.encode sampleHex.decode) .empty sampleFlows =
      some sampleEntries := by decide +kernel

/-- **The keys in force are those of the last form that was accepted.** However flows, edits of entries,
    options and removals follow one another, every entry can be set up as soon as its lock is heard: with
    the address that is its unique id, options that are allowed, and keys from which the binding builds
    every operation, which are those the last accepted form for this entry spells. -/
theorem keys_in_force {hexEncode : List UInt8 → String} {hexDecode : String → Except String (List UInt8)}
    (hencode : ∀ bytes, (hexEncode bytes).toList = Hex.encode bytes) {events : List FlowEvent}
    {registry : ConfigEntries}
    (hrun : Runs.exec (ConfigEntries.step hexEncode hexDecode) .empty events = some registry) :
    ∀ entry ∈ registry.entries, ∃ input aesKey unlockKey args,
      lastFor entry.entryId (ConfigEntries.accepted hexEncode hexDecode events) = some input ∧
      AesKey.fromHex hexDecode input.aesKey = .ok aesKey ∧
      UnlockKey.fromStr input.unlockKey = .ok unlockKey ∧
      asyncSetupEntry true entry = .ok args ∧
      (∃ address, args.address = some address ∧ entry.uniqueId = some address) ∧
      (1 ≤ args.connectAttempts ∧ args.connectAttempts ≤ 10) ∧
      (5 ≤ args.commandTimeout ∧ args.commandTimeout ≤ 120) ∧
      ∀ version, (∀ action : Actuation,
          action.newOp hexDecode (.bytes args.aesKey) (.int args.unlockKey) version =
            .ok (action.op aesKey unlockKey (version.getD LockVersion.default))) ∧
        StatusOp.newOp hexDecode (.bytes args.aesKey) version =
          .ok (StatusOp.new aesKey (version.getD LockVersion.default)) := by
  intro entry hentry
  obtain ⟨⟨input, aesKey, unlockKey, hlast, hspells, hholds⟩, ⟨address, huniqueId, haddress⟩, hoptions⟩ :=
    (ConfigEntries.kept_of_exec hrun).inForce entry hentry
  refine ⟨input, aesKey, unlockKey, _, hlast, hspells.aesKey_eq, hspells.unlockKey_eq,
    ConfigEntry.setup_of_holds hencode hholds, ⟨address, haddress, huniqueId⟩, hoptions.getD.1,
    hoptions.getD.2, fun version => ⟨fun action => ?_, ?_⟩⟩
  · rw [Actuation.newOp, aesKeyArg_bytes, unlockKeyArg_int]
    rfl
  · rw [StatusOp.newOp, aesKeyArg_bytes]
    rfl

theorem keys_in_force_edited : ∃ input aesKey unlockKey args,
    lastFor 1 (ConfigEntries.accepted sampleHex.encode sampleHex.decode sampleFlows) = some input ∧
    AesKey.fromHex sampleHex.decode input.aesKey = .ok aesKey ∧
    UnlockKey.fromStr input.unlockKey = .ok unlockKey ∧
    asyncSetupEntry true sampleConfigEntry = .ok args ∧
    (∃ address, args.address = some address ∧ sampleConfigEntry.uniqueId = some address) ∧
    (1 ≤ args.connectAttempts ∧ args.connectAttempts ≤ 10) ∧
    (5 ≤ args.commandTimeout ∧ args.commandTimeout ≤ 120) ∧
    ∀ version, (∀ action : Actuation,
        action.newOp sampleHex.decode (.bytes args.aesKey) (.int args.unlockKey) version =
          .ok (action.op aesKey unlockKey (version.getD LockVersion.default))) ∧
      StatusOp.newOp sampleHex.decode (.bytes args.aesKey) version =
        .ok (StatusOp.new aesKey (version.getD LockVersion.default)) :=
  keys_in_force sampleHex_encode exec_sampleFlows sampleConfigEntry List.mem_cons_self

/-- Different bytes are written differently. -/
theorem encode_inj {hexEncode : List UInt8 → String}
    (hencode : ∀ bytes, (hexEncode bytes).toList = Hex.encode bytes) {bytes bytes' : List UInt8}
    (h : hexEncode bytes = hexEncode bytes') : bytes = bytes' := by
  have hsame : Hex.decode (Hex.encode bytes) = Hex.decode (Hex.encode bytes') := by
    rw [← hencode, ← hencode, h]
  rw [Hex.decode_encode, Hex.decode_encode] at hsame
  exact Option.some.inj hsame

/-- **Editing an entry changes its keys and nothing else.** A form for an entry that exists is always
    taken. The entries are as before iff it spells no two keys, or, in whatever spelling, those with which
    the entry is set up anyway; and what it changes are the keys of this entry. -/
theorem reconfigure_changes_keys {hexEncode : List UInt8 → String}
    {hexDecode : String → Except String (List UInt8)}
    (hencode : ∀ bytes, (hexEncode bytes).toList = Hex.encode bytes) {events : List FlowEvent}
    {registry : ConfigEntries}
    (hrun : Runs.exec (ConfigEntries.step hexEncode hexDecode) .empty events = some registry)
    {flowId entryId : Nat} {flow : TTLockConfigFlow}
    (hflow : registry.flow? flowId = some ⟨flowId, .reconfigure entryId, flow⟩) {entry : ConfigEntry}
    (hentry : registry.entry? entryId = some entry) {args : CoordinatorArgs}
    (hargs : asyncSetupEntry true entry = .ok args) (input : CredentialsInput) :
    ∃ registry', registry.step hexEncode hexDecode (.submittedCredentials flowId (some input)) =
        some registry' ∧
      (registry'.entries = registry.entries ↔ ∀ aesKey unlockKey,
        AesKey.fromHex hexDecode input.aesKey = .ok aesKey →
        UnlockKey.fromStr input.unlockKey = .ok unlockKey →
        args.aesKey = aesKey.asBytes.toList ∧ args.unlockKey = unlockKey.get.toNat) ∧
      List.Forall₂ (fun entry entry' => entry' = { entry with data := {
          entry.data with aesKey := entry'.data.aesKey, unlockKey := entry'.data.unlockKey } } ∧
        (entry.entryId ≠ entryId → entry' = entry)) registry.entries registry'.entries := by
  obtain ⟨hmem, rfl⟩ : entry ∈ registry.entries ∧ entry.entryId = entryId :=
    ⟨List.mem_of_find?_eq_some hentry, by simpa using List.find?_some hentry⟩
  have hkept := ConfigEntries.kept_of_exec hrun
  -- the keys it is set up with are some the form of an earlier step spelled
  obtain ⟨-, aesKey, unlockKey, -, -, hholds⟩ := (hkept.inForce entry hmem).keys
  obtain rfl := Except.ok.inj ((ConfigEntry.setup_of_holds hencode hholds).symm.trans hargs)
  have hstep : registry.step hexEncode hexDecode (.submittedCredentials flowId (some input)) =
      some (registry.finish ⟨flowId, .reconfigure entry.entryId, flow⟩
        (TTLockConfigFlow.asyncStepReconfigure hexEncode hexDecode entry (some input))) := by
    rw [ConfigEntries.step, hflow]
    dsimp only
    rw [hentry, Option.map_some]
  refine ⟨_, hstep, ?_⟩
  rcases asyncStepReconfigure_cases hexEncode hexDecode entry input with
    ⟨aesKey', unlockKey', hspells, hresult⟩ | ⟨hnot, errors, hresult⟩
  · rw [hresult]
    refine ⟨⟨fun hsame aesKey'' unlockKey'' haes hunlock => ?_, fun hspelled => ?_⟩, ?_⟩
    · obtain rfl := Except.ok.inj (hspells.aesKey_eq.symm.trans haes)
      obtain rfl := Except.ok.inj (hspells.unlockKey_eq.symm.trans hunlock)
      have hself := (List.map_inj_left (g := id)).1 (hsame.trans (List.map_id _).symm) entry hmem
      rw [if_pos rfl] at hself
      have hdata := congrArg ConfigEntry.data hself
      refine ⟨encode_inj hencode (hholds.aesKey_eq.symm.trans (congrArg EntryData.aesKey hdata).symm), ?_⟩
      exact hholds.unlockKey_eq.symm.trans (congrArg EntryData.unlockKey hdata).symm
    · obtain ⟨hbytes, hvalue⟩ := hspelled aesKey' unlockKey' hspells.aesKey_eq hspells.unlockKey_eq
      refine (List.map_congr_left fun entry' hmem' => ?_).trans (List.map_id _)
      by_cases hid : entry'.entryId = entry.entryId
      · -- no other entry has this id
        obtain rfl := List.inj_on_of_nodup_map hkept.distinct hmem' hmem hid
        rw [if_pos rfl, ← hbytes, ← hvalue, ← hholds.aesKey_eq, ← hholds.unlockKey_eq]
        rfl
      · exact if_neg hid
    · refine List.forall₂_map_right_iff.2 (List.forall₂_same.2 fun entry' _ => ?_)
      by_cases hid : entry'.entryId = entry.entryId
      · rw [if_pos hid]
        exact ⟨rfl, fun hne => absurd hid hne⟩
      · rw [if_neg hid]
        exact ⟨rfl, fun _ => rfl⟩
  · rw [hresult]
    refine ⟨iff_of_true rfl fun aesKey' unlockKey' haes hunlock => ?_, List.forall₂_same.2 ?_⟩
    · exact absurd ⟨haes, hunlock⟩ (hnot aesKey' unlockKey')
    · exact fun entry' _ => ⟨rfl, fun _ => rfl⟩

/-- The same keys, spelled otherwise, are submitted. -/
theorem reconfigure_same_keys : ∃ args entries',
    asyncSetupEntry true sampleConfigEntry = .ok args ∧
    sampleEntries.step sampleHex.encode sampleHex.decode (.submittedCredentials 3
      (some ⟨"00112233445566778899aabb ccddeeff", "+007"⟩)) = some entries' ∧
    entries'.entries = sampleEntries.entries := by
  have hargs : asyncSetupEntry true sampleConfigEntry = .ok
      { address := some "AA:BB:CC:DD:EE:FF"
        aesKey := [0, 17, 34, 51, 68, 85, 102, 119, 136, 153, 170, 187, 204, 221, 238, 255]
        unlockKey := 7, connectAttempts := 10, commandTimeout := 5 } := by decide +kernel
  have hflow : sampleEntries.flow? 3 = some ⟨3, .reconfigure 1, .new⟩ := by decide +kernel
  have hentry : sampleEntries.entry? 1 = some sampleConfigEntry := by decide +kernel
  obtain ⟨entries', hstep, hiff, -⟩ := reconfigure_changes_keys sampleHex_encode exec_sampleFlows hflow
    hentry hargs ⟨"00112233445566778899aabb ccddeeff", "+007"⟩
  refine ⟨_, entries', hargs, hstep, hiff.2 fun aesKey unlockKey haes hunlock => ?_⟩
  have haes' : AesKey.fromHex sampleHex.decode "00112233445566778899aabb ccddeeff" = .ok
    ⟨#v[0, 17, 34, 51, 68, 85, 102, 119, 136, 153, 170, 187, 204, 221, 238, 255]⟩ := by decide +kernel
  have hunlock' : UnlockKey.fromStr "+007" = .ok ⟨7, by decide⟩ := by decide +kernel
  obtain rfl := Except.ok.inj (haes'.symm.trans haes)
  obtain rfl := Except.ok.inj (hunlock'.symm.trans hunlock)
  exact ⟨rfl, rfl⟩

end TTLock
