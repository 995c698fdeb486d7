import TTLock.Cli.Actuate
import TTLock.Cli.Proofs.Ble

set_option autoImplicit false

/-! # When commands carry the version that was learned

The tracker learns the lock's protocol version from the continuous scan, but `actuate` builds its
frames with the version of the peripheral its own scan settles on, which is the default one when that
peripheral's address was enough to settle on it. The frames of an actuation carry the learned version
exactly if the two agree. -/

namespace TTLock

variable {C : Cipher} {hexDecode : String → Except String (List UInt8)} {offlineAfter : Duration}

/-! ## Version headers -/

/-- The frame carries this version in its header. -/
def Carries (v : LockVersion) (frame : List UInt8) : Prop := (frame.take 9).drop 2 = v.toBytes

theorem LockVersion.toBytes_inj {v v' : LockVersion} (h : v.toBytes = v'.toBytes) : v = v' := by
  obtain ⟨p, r, s, g, o⟩ := v
  obtain ⟨p', r', s', g', o'⟩ := v'
  simp only [toBytes, BigEndian.toBytes16, List.cons_append, List.nil_append, List.cons.injEq,
    and_true] at h
  obtain ⟨rfl, rfl, rfl, hg₁, hg₀, ho₁, ho₀⟩ := h
  have hg := BigEndian.ofBytes16_toBytes16 g
  have ho := BigEndian.ofBytes16_toBytes16 o
  rw [hg₁, hg₀, BigEndian.ofBytes16_toBytes16] at hg
  rw [ho₁, ho₀, BigEndian.ofBytes16_toBytes16] at ho
  rw [hg, ho]

theorem Carries.unique {v v' : LockVersion} {frame : List UInt8} (h : Carries v frame)
    (h' : Carries v' frame) : v = v' :=
  LockVersion.toBytes_inj (h.symm.trans h')

theorem WireCommand.carries_of_build {c : WireCommand} {frame : List UInt8}
    (h : c.build C = .ok frame) : Carries c.version frame := by
  obtain ⟨-, rfl⟩ := build_eq_ok h
  rfl

/-- An actuation's frames all carry the version it was made with. -/
theorem ActuateOp.writesOnly (version : LockVersion) :
    (operation C).WritesOnly (fun self => self.version = version) (Carries version) := by
  intro self now raw hself
  show _ ∧ ∀ frame, ((handleFrame C now raw).call self).1 = _ → _
  rcases self.handleFrame_cases (C := C) now raw with ⟨e, hc⟩ |
    ⟨a, b, c, d, rest, frame, -, -, hbuild, hc⟩ | ⟨data, -, -, hc⟩
  · exact ⟨by rw [operation, hc]; exact hself, fun frame h => by rw [hc] at h; cases h⟩
  · refine ⟨by rw [operation, hc]; exact hself, fun next h => ?_⟩
    rw [hc] at h
    cases h
    have hcarries := WireCommand.carries_of_build hbuild
    exact hself ▸ hcarries
  · exact ⟨by rw [operation, hc]; exact hself, fun frame h => by rw [hc] at h; cases h⟩

/-- Driving a new actuation writes at least one frame, and none with another version. -/
theorem ActuateOp.runOp_carries_iff (hC : C.Lawful) (commandType : UInt8) (aesKey : AesKey)
    (unlockKey : UnlockKey) (version v : LockVersion) (link : Link) :
    (∀ frame ∈ (runOp (operation C) (new commandType aesKey unlockKey version) link).written,
      Carries v frame) ↔ version = v := by
  have hpayload : (buildCheckUserTimePayload 0 "0001311400" "9911301400" 0).length ≤ 239 := by
    decide +kernel
  obtain ⟨frame, hbuild⟩ := (WireCommand.build_ok_iff hC
    (new commandType aesKey unlockKey version).request).2 hpayload
  have hstart : (operation C).start.call (new commandType aesKey unlockKey version) =
      (.ok (.write frame),
        { new commandType aesKey unlockKey version with state := .awaitingCheckUserTime }) := by
    show (start C).call _ = _
    rw [call_start, hbuild]
  have hframe : Carries version frame := WireCommand.carries_of_build hbuild
  constructor
  · intro h
    exact hframe.unique (h frame (runOp_head hstart link))
  · rintro rfl
    exact runOp_written (writesOnly version) hstart rfl hframe link

/-! ## The peripheral an actuation connects to -/

/-- The peripheral one attempt connects to. -/
def Attempt.reached (targetAddress name : Option String) (scanSeconds : Nat) (self : Attempt) :
    Option Peripheral := do
  self.startScan.toOption
  let peripheral ← (listed scanSeconds self.polls).find? (Peripheral.answersTo targetAddress name)
  let _connection ← (BleConnection.connect self.dial).toOption
  return peripheral

/-- The peripheral an actuation connects to: that of its first attempt to get through. -/
def Surroundings.reached (opts : ConnectOpts) (selected : LockData) (self : Surroundings) :
    Option Peripheral :=
  (List.range' 1 (max opts.connectAttempts 1)).findSome? fun k =>
    (self.attempt k).reached (targetAddress opts selected) opts.name opts.scanSeconds

theorem connectOnce_version (targetAddress name : Option String) (scanSeconds : Nat)
    (attempt : Attempt) :
    (connectOnce targetAddress name scanSeconds attempt).toOption.map Prod.snd =
      (attempt.reached targetAddress name scanSeconds).map fun p =>
        (p.scannedVersion targetAddress).getD LockVersion.default := by
  have hfound := findLock_toOption targetAddress name scanSeconds attempt.polls
  unfold connectOnce Attempt.reached
  rcases attempt.startScan with e | _
  · rfl
  · rcases hlock : findLock targetAddress name scanSeconds attempt.polls with e | scanned
    · rw [hlock] at hfound
      change none = _ at hfound
      rw [eq_comm, Option.map_eq_none_iff] at hfound
      simp [bind, Except.bind, Except.toOption, hfound]
    · rw [hlock] at hfound
      obtain ⟨p, hp, hversion⟩ := Option.map_eq_some_iff.1 hfound.symm
      rcases BleConnection.connect attempt.dial with e | link
      · simp [bind, Except.bind, Except.toOption, hp]
      · simp [bind, Except.bind, Except.toOption, hp, hversion, pure, Except.pure]

theorem connectAttempts_version (targetAddress name : Option String) (scanSeconds : Nat)
    (radio : Nat → Attempt) (left attempt : Nat) :
    (connectAttempts targetAddress name scanSeconds radio left attempt).toOption.map Prod.snd =
      ((List.range' attempt left).findSome? fun k =>
        (radio k).reached targetAddress name scanSeconds).map fun p =>
          (p.scannedVersion targetAddress).getD LockVersion.default := by
  induction left generalizing attempt with
  | zero => rfl
  | succ left ih =>
      have honce := connectOnce_version targetAddress name scanSeconds (radio attempt)
      rw [connectAttempts, List.range'_succ, List.findSome?_cons]
      rcases hc : connectOnce targetAddress name scanSeconds (radio attempt) with e | connected
      · rw [hc] at honce
        change none = _ at honce
        rw [eq_comm, Option.map_eq_none_iff] at honce
        rw [honce]
        dsimp only
        split
        · next hleft => subst hleft; rfl
        · exact ih (attempt + 1)
      · rw [hc] at honce
        obtain ⟨p, hp, hversion⟩ := Option.map_eq_some_iff.1 honce.symm
        rw [hp]
        dsimp only
        rw [Option.map_some, hversion]
        rfl

/-- The selected entry and the peripheral connected to, if the entry's keys can be used and an attempt
    gets through. -/
def Surroundings.reaches (hexDecode : String → Except String (List UInt8)) (opts : ConnectOpts)
    (self : Surroundings) : Option (LockData × Peripheral) := do
  let locks ← self.loadLockData.toOption
  let selected ← (selectLock locks opts.address).toOption
  let peripheral ← self.reached opts selected
  let _aesKey ← (selected.aesKey hexDecode).toOption
  let _unlockKey ← selected.unlockKey.toOption
  return (selected, peripheral)

variable (C hexDecode) in
/-- What `actuate` writes: nothing when it reaches no peripheral, else what the operation does with the
    version that was scanned. -/
theorem actuate_written (opts : ConnectOpts) (action : Actuation) (around : Surroundings) :
    match around.reaches hexDecode opts with
    | none => (actuate C hexDecode opts action around).written = []
    | some (selected, p) => ∃ aesKey unlockKey link,
        (actuate C hexDecode opts action around).written =
          (runOp (ActuateOp.operation C) (action.op aesKey unlockKey
            ((p.scannedVersion (targetAddress opts selected)).getD LockVersion.default)) link).written := by
  unfold Surroundings.reaches actuate selectAndConnect
  rcases hload : around.loadLockData with e | locks
  · rfl
  rcases hselect : selectLock locks opts.address with e | selected
  · simp [hselect, Except.toOption, Except.mapError, bind, Except.bind]
  have hattempts := connectAttempts_version (targetAddress opts selected) opts.name opts.scanSeconds
    around.attempt (max opts.connectAttempts 1) 1
  change _ = (around.reached opts selected).map _ at hattempts
  rcases hconnect : connectAttempts (targetAddress opts selected) opts.name opts.scanSeconds
    around.attempt (max opts.connectAttempts 1) 1 with e | ⟨link, version⟩
  · rw [hconnect] at hattempts
    change none = _ at hattempts
    rw [eq_comm, Option.map_eq_none_iff] at hattempts
    simp [hselect, hconnect, hattempts, Except.toOption, Except.mapError, bind, Except.bind]
  · -- the version is settled with the connection, before the keys are looked at
    rw [hconnect] at hattempts
    obtain ⟨p, hp, hversion⟩ := Option.map_eq_some_iff.1 hattempts.symm
    rcases haes : selected.aesKey hexDecode with e | aesKey
    · simp [hselect, hconnect, hp, haes, Except.toOption, Except.mapError, bind, Except.bind, pure,
        Except.pure]
    rcases hunlock : selected.unlockKey with e | unlockKey
    · simp [hselect, hconnect, hp, haes, hunlock, Except.toOption, Except.mapError, bind, Except.bind,
        pure, Except.pure]
    simp [hselect, hconnect, hp, haes, hunlock, Except.toOption, Except.mapError, bind, Except.bind,
      pure, Except.pure]
    exact ⟨aesKey, unlockKey, link, hversion ▸ rfl⟩

/-! ## Learned and scanned versions -/

/-- Scanning the peripheral gives `v`: its address was not enough and its payload says `v`, or `v` is
    the default and either it was or the payload says nothing. -/
def Peripheral.Tells (targetAddress : Option String) (self : Peripheral) (v : LockVersion) : Prop :=
  (self.atAddress targetAddress = false ∧ (self.payload targetAddress).lockVersion = some v) ∨
  (v = LockVersion.default ∧ (self.atAddress targetAddress = true ∨
    (self.payload targetAddress).lockVersion = none))

theorem Peripheral.tells_iff {targetAddress : Option String} {p : Peripheral} {v : LockVersion} :
    p.Tells targetAddress v ↔ (p.scannedVersion targetAddress).getD LockVersion.default = v := by
  unfold Tells scannedVersion
  cases p.atAddress targetAddress with
  | true => simp [eq_comm]
  | false => cases (p.payload targetAddress).lockVersion <;> simp [eq_comm]

/-- Every frame of the actuation carries the version that had been learned, if one had. -/
def PastActuation.CarriesLearned (self : PastActuation) : Prop :=
  ∀ v, self.learned = some v → ∀ frame ∈ self.written, Carries v frame

def WorkerRun.CarryLearned (self : WorkerRun) : Prop := ∀ a ∈ self.actuations, a.CarriesLearned

/-- What an actuation has to find once the tracker knows a version: that whatever peripheral it reaches
    tells that version again. -/
def WorkerRun.ToldAgain (hexDecode : String → Except String (List UInt8)) (self : WorkerRun) :
    RunEvent → Prop
  | .actuate around _ _ => ∀ v, self.worker.tracker.lockVersion = some v →
      ∀ selected peripheral, around.reaches hexDecode self.connect = some (selected, peripheral) →
        peripheral.Tells (targetAddress self.connect selected) v
  | .own _ | .heard .. | .receive _ | .publish => True

variable (hexDecode) in
/-- One actuation. -/
theorem actuate_carriesLearned_iff (hC : C.Lawful) (opts : ConnectOpts) (action : Actuation)
    (around : Surroundings) (learned : Option LockVersion) :
    PastActuation.CarriesLearned ⟨learned, (actuate C hexDecode opts action around).written⟩ ↔
      ∀ v, learned = some v → ∀ selected p, around.reaches hexDecode opts = some (selected, p) →
        p.Tells (targetAddress opts selected) v := by
  have hwritten := actuate_written C hexDecode opts action around
  refine forall₂_congr fun v _ => ?_
  rcases hreaches : around.reaches hexDecode opts with _ | ⟨selected, p⟩
  · rw [hreaches] at hwritten
    change (actuate C hexDecode opts action around).written = [] at hwritten
    simp [hwritten]
  · rw [hreaches] at hwritten
    obtain ⟨aesKey, unlockKey, link, hwritten⟩ := hwritten
    have hcarries := ActuateOp.runOp_carries_iff hC action.commandType aesKey unlockKey
      ((p.scannedVersion (targetAddress opts selected)).getD LockVersion.default) v link
    rw [Peripheral.tells_iff.symm] at hcarries
    dsimp only
    rw [hwritten]
    refine hcarries.trans ⟨fun h selected' p' heq => ?_, fun h => h selected p rfl⟩
    cases heq
    exact h

/-- One event: it keeps every past actuation's frames right iff it is no actuation that scans another
    version than the tracker knows. -/
theorem WorkerRun.carryLearned_iff (hC : C.Lawful) (s : WorkerRun) (e : RunEvent) (s' : WorkerRun)
    (h : s.step C hexDecode offlineAfter e = some s') :
    s'.CarryLearned ↔ s.CarryLearned ∧ s.ToldAgain hexDecode e := by
  cases e with
  | actuate around blind nowMs =>
      simp only [step] at h
      split at h
      · cases h
      · cases h
      · next action hactivity =>
          obtain ⟨worker, -, rfl⟩ := Option.map_eq_some_iff.1 h
          have hone := actuate_carriesLearned_iff hexDecode hC s.connect action around
            s.worker.tracker.lockVersion
          simp only [CarryLearned, List.forall_mem_append, List.forall_mem_singleton]
          rw [hone]
          rfl
  | own event =>
      have hsame : s'.actuations = s.actuations := by
        cases event <;> simp only [step, Option.map_eq_some_iff, reduceCtorEq] at h <;>
          obtain ⟨worker, -, rfl⟩ := h <;> rfl
      simp only [CarryLearned, hsame, ToldAgain, and_true]
  | heard nowMs peripheral event =>
      have hsame : s'.actuations = s.actuations := by
        simp only [step] at h
        split at h
        · cases h; rfl
        · obtain ⟨worker, -, rfl⟩ := Option.map_eq_some_iff.1 h
          rfl
      simp only [CarryLearned, hsame, ToldAgain, and_true]
  | receive message =>
      obtain ⟨worker, -, rfl⟩ := Option.map_eq_some_iff.1 h
      simp only [CarryLearned, ToldAgain, and_true]
  | publish =>
      obtain ⟨⟨p, worker⟩, -, rfl⟩ := Option.map_eq_some_iff.1 h
      simp only [CarryLearned, ToldAgain, and_true]

/-- **Commands and the learned version.** In every run of the worker, every frame of every actuation
    carries the version the tracker knew when it started iff every actuation that reaches a peripheral
    is told that version again by what it scans. -/
theorem WorkerRun.commands_carry_learned_version_iff (hC : C.Lawful) (connect : ConnectOpts)
    (target : Target) (events : List RunEvent) (last : WorkerRun)
    (hrun : Runs.exec (step C hexDecode offlineAfter) (new connect target) events = some last) :
    last.CarryLearned ↔
      Runs.Guarded (step C hexDecode offlineAfter) (ToldAgain hexDecode) (new connect target)
        events := by
  have hiff := Runs.exec_iff_guarded (carryLearned_iff hC) hrun
  have hnone : (new connect target).CarryLearned := fun _ h => absurd h List.not_mem_nil
  rw [hiff, and_iff_right hnone]

namespace WorkerRun

/-- The versions learned by each past actuation, and the headers of its frames. -/
def headers (self : WorkerRun) : List (Option LockVersion × List (List UInt8)) :=
  self.actuations.map fun a => (a.learned, a.written.map fun frame => (frame.take 9).drop 2)

theorem carryLearned_iff_headers (s : WorkerRun) :
    s.CarryLearned ↔ ∀ h ∈ s.headers, ∀ v, h.1 = some v → ∀ header ∈ h.2, header = v.toBytes := by
  simp only [CarryLearned, PastActuation.CarriesLearned, Carries, headers, List.forall_mem_map]

/-! A lock of another scene than the default one, heard and then commanded. -/

def sampleConnect : ConnectOpts :=
  { name := none, address := none, scanSeconds := 20, connectAttempts := 6 }

def sampleLockData : LockData :=
  { address := "AA:BB:CC:DD:EE:FF"
    privateData := { aesKey := some "07070707070707070707070707070707", unlockKey := some 5 } }

def sampleTarget : Target := { address := some "AA:BB:CC:DD:EE:FF", name := none }

/-- What `hex` makes of that key. -/
def sampleHex : String → Except String (List UInt8) := fun _ => .ok (List.replicate 16 7)

/-- The lock as a stack lists it that gives it this address. -/
def samplePeripheral (address : String) : Peripheral :=
  { address
    properties := .ok (some {
      localName := none
      manufacturerData :=
        ⟨[(0x0305, [1, 0, 90, 0, 0, 0, 0, 0xff, 0xee, 0xdd, 0xcc, 0xbb, 0xaa])], by simp⟩ }) }

/-- It can be connected to, but does not answer. -/
def sampleSurroundings (address : String) : Surroundings :=
  { loadLockData := .ok [sampleLockData]
    attempt := fun _ =>
      { startScan := .ok ()
        polls := [⟨0, .ok [samplePeripheral address]⟩]
        dial :=
          { connect := .ok (), connectAgain := .ok ()
            discoverServices := .ok (), discoverServicesAgain := .ok ()
            hasWriteCharacteristic := true, hasNotifyCharacteristic := true
            notifications := .ok (), subscribe := .ok ()
            link := { writes := [.ok ()], reads := [], disconnect := .ok () } } } }

/-- The scan hears it, what that changed is published, and a `LOCK` command is carried out. -/
def sampleEvents (address : String) : List RunEvent :=
  [.own .scanStarted, .heard 1000 (.ok (samplePeripheral address)) .deviceDiscovered,
    .publish, .publish, .publish, .receive (.command .lock), .publish,
    .actuate (sampleSurroundings address) (.fromSecs 14) 16000]

/-- A stack that lists the lock under its own address: scene 1 is learned and scene 2 is sent. -/
theorem address_match_sends_default_version :
    resolveTarget sampleConnect (.ok [sampleLockData]) = .ok sampleTarget ∧
    ∃ last, Runs.exec (step aes128Cbc sampleHex (.fromSecs 60)) (new sampleConnect sampleTarget)
        (sampleEvents "AA:BB:CC:DD:EE:FF") = some last ∧
      last.headers = [(some ⟨5, 3, 1, 1, 1⟩, [[5, 3, 2, 0, 1, 0, 1]])] ∧ ¬last.CarryLearned := by
  have hrun : (Runs.exec (step aes128Cbc sampleHex (.fromSecs 60))
      (new sampleConnect sampleTarget) (sampleEvents "AA:BB:CC:DD:EE:FF")).map headers =
        some [(some ⟨5, 3, 1, 1, 1⟩, [[5, 3, 2, 0, 1, 0, 1]])] := by
    decide +kernel
  obtain ⟨last, hlast, hheaders⟩ := Option.map_eq_some_iff.1 hrun
  refine ⟨by decide +kernel, last, hlast, hheaders, fun h => ?_⟩
  rw [carryLearned_iff_headers, hheaders] at h
  have hheader := h _ List.mem_cons_self _ rfl _ List.mem_cons_self
  exact absurd hheader (by decide)

/-- A stack that hides addresses has to read the payload, and sends scene 1. -/
theorem payload_match_sends_learned_version :
    ∃ last, Runs.exec (step aes128Cbc sampleHex (.fromSecs 60)) (new sampleConnect sampleTarget)
        (sampleEvents "00:00:00:00:00:00") = some last ∧
      last.headers = [(some ⟨5, 3, 1, 1, 1⟩, [[5, 3, 1, 0, 1, 0, 1]])] ∧
      Runs.Guarded (step aes128Cbc sampleHex (.fromSecs 60)) (ToldAgain sampleHex)
        (new sampleConnect sampleTarget) (sampleEvents "00:00:00:00:00:00") := by
  have hrun : (Runs.exec (step aes128Cbc sampleHex (.fromSecs 60))
      (new sampleConnect sampleTarget) (sampleEvents "00:00:00:00:00:00")).map headers =
        some [(some ⟨5, 3, 1, 1, 1⟩, [[5, 3, 1, 0, 1, 0, 1]])] := by
    decide +kernel
  obtain ⟨last, hlast, hheaders⟩ := Option.map_eq_some_iff.1 hrun
  refine ⟨last, hlast, hheaders, ?_⟩
  refine (commands_carry_learned_version_iff aes128Cbc_lawful _ _ _ last hlast).1 ?_
  rw [carryLearned_iff_headers, hheaders]
  simp only [List.forall_mem_singleton, Option.some.injEq, forall_eq']
  decide

end WorkerRun

end TTLock
