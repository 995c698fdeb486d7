import TTLock.Cli.Proofs.Actuate
import TTLock.Cli.Proofs.Worker

set_option autoImplicit false

/-! # When an acknowledgement is recorded

`actuate` has one result for the exchange with the lock and for everything around it. The lock's
verified success is followed by a drain, whose outcome is dropped, and a disconnect, whose error is
not. So the worker records an acknowledgement whenever the success reply was verified, and only then,
exactly if a verified reply is never followed by a disconnect that fails with something else than the
stale-object symptom. -/

namespace TTLock

variable (C : Cipher) (hexDecode : String → Except String (List UInt8))

/-! ## The parts of an actuation -/

/-- What `actuate` does before it drives the operation. -/
def prepare (opts : ConnectOpts) (action : Actuation) (around : Surroundings) :
    Except CliError (Link × ActuateOp) := do
  let (connection, version, lockData) ← selectAndConnect opts around
  let aesKey ← (lockData.aesKey hexDecode).mapError .core
  let unlockKey ← lockData.unlockKey.mapError .core
  return (connection, action.op aesKey unlockKey version)

/-- The connection over which `run_op` of the actuation returned `Done`, if it did. -/
def verifiedOver (opts : ConnectOpts) (action : Actuation) (around : Surroundings) : Option Link :=
  match prepare hexDecode opts action around with
  | .error _ => none
  | .ok (connection, op) =>
      if (runOp (ActuateOp.operation C) op connection).result = .ok () then some connection else none

/-- Disconnecting reports no error: it succeeds, or fails with the stale-object symptom. -/
def Link.DisconnectsCleanly (self : Link) : Prop :=
  ∀ e, self.disconnect = .error e → isBluezStaleObjectError e = true

theorem disconnect_eq_ok_iff (link : Link) :
    BleConnection.disconnect link = .ok () ↔ link.DisconnectsCleanly := by
  unfold BleConnection.disconnect Link.DisconnectsCleanly
  rcases link.disconnect with e | _
  · by_cases h : isBluezStaleObjectError e = true
    · simp [h]
    · simp [h]
  · simp

/-- `actuate` succeeds exactly if the reply was verified and the disconnect then reports no error. -/
theorem actuate_eq_ok_iff (opts : ConnectOpts) (action : Actuation) (around : Surroundings) :
    (actuate C hexDecode opts action around).result = .ok () ↔
      ∃ link, verifiedOver C hexDecode opts action around = some link ∧ link.DisconnectsCleanly := by
  have hparts : (actuate C hexDecode opts action around).result =
      match prepare hexDecode opts action around with
      | .error e => .error e
      | .ok (connection, op) => (runOp (ActuateOp.operation C) op connection).result.bind fun () =>
          BleConnection.disconnect connection := by
    show Driven.result (match prepare hexDecode opts action around with
      | .error e => (⟨.error e, []⟩ : Driven Unit)
      | .ok (connection, op) => _) = _
    rcases prepare hexDecode opts action around with e | ⟨connection, op⟩ <;> rfl
  rw [hparts]
  unfold verifiedOver
  rcases prepare hexDecode opts action around with e | ⟨connection, op⟩
  · simp
  · rcases hrun : (runOp (ActuateOp.operation C) op connection).result with e | _
    · simp [Except.bind, hrun]
    · simp [Except.bind, hrun, disconnect_eq_ok_iff]

/-! ## What the worker records -/

/-- The position the tracker reports once a bolt was observed and nothing is in flight. -/
def ReportedState.ofBolt : Bolt → ReportedState
  | .locked => .locked
  | .unlocked => .unlocked

namespace WorkerRun

variable (offlineAfter : Duration)

/-- The tracker calls the worker makes once `actuate` has returned. -/
def recorded (self : WorkerRun) (action : Actuation) (around : Surroundings) (blind : Duration)
    (nowMs : UInt64) : List TrackerCall :=
  let succeeded := (actuate C hexDecode self.connect action around).result.toBool
  (WorkerEvent.actuated succeeded blind nowMs).calls offlineAfter self.worker.activity

/-- A verified reply is recorded as an acknowledgement of this direction, and the tracker then reports
    the position that was commanded; and nothing else is recorded as one. -/
def RecordsEvidence (self last : WorkerRun) (action : Actuation) (around : Surroundings)
    (blind : Duration) (nowMs : UInt64) : Prop :=
  let verified := ∃ link, verifiedOver C hexDecode self.connect action around = some link
  let calls := self.recorded C hexDecode offlineAfter action around blind nowMs
  (verified → .onCommandAcknowledged nowMs action ∈ calls ∧
    last.worker.tracker.reportedState = some (.ofBolt action.target)) ∧
  ((∃ nowMs' action', .onCommandAcknowledged nowMs' action' ∈ calls) → verified)

variable {C hexDecode offlineAfter}

theorem recorded_eq {s : WorkerRun} {action : Actuation}
    (hactivity : s.worker.activity = .actuating action) (around : Surroundings) (blind : Duration)
    (nowMs : UInt64) :
    s.recorded C hexDecode offlineAfter action around blind nowMs =
      [.creditBlindTime blind,
        if (actuate C hexDecode s.connect action around).result.toBool then
          .onCommandAcknowledged nowMs action
        else .onCommandFailed] := by
  rw [recorded, hactivity]
  rfl

/-- One actuation of the worker makes those calls. -/
theorem step_actuate {s s' : WorkerRun} {around : Surroundings} {blind : Duration} {nowMs : UInt64}
    (h : s.step C hexDecode offlineAfter (.actuate around blind nowMs) = some s') :
    ∃ action, s.worker.activity = .actuating action ∧
      s'.worker.tracker = s.worker.tracker.run
        (s.recorded C hexDecode offlineAfter action around blind nowMs) := by
  simp only [step] at h
  split at h
  · cases h
  · cases h
  · next action hactivity =>
      obtain ⟨worker, hworker, rfl⟩ := Option.map_eq_some_iff.1 h
      refine ⟨action, hactivity, ?_⟩
      rw [recorded_eq hactivity]
      unfold BleWorker.step at hworker
      rw [hactivity] at hworker
      obtain rfl := Option.some.inj hworker
      show (BleWorker.finishCommand _ _ _ _ _).tracker = _
      unfold BleWorker.finishCommand BleWorker.report
      dsimp only [LockTracker.run, List.foldl_cons, List.foldl_nil]
      split <;> rfl

/-- **Acknowledgements.** Whatever the file, the radio and the lock do: the worker records an
    acknowledgement and reports the commanded position when the success reply was verified, and only
    then, iff a verified reply is never followed by a disconnect that fails with another error than the
    stale-object ones. -/
theorem records_evidence_iff {s s' : WorkerRun} {around : Surroundings} {blind : Duration}
    {nowMs : UInt64} (h : s.step C hexDecode offlineAfter (.actuate around blind nowMs) = some s') :
    ∃ action, s.worker.activity = .actuating action ∧
      s'.worker.tracker = s.worker.tracker.run
        (s.recorded C hexDecode offlineAfter action around blind nowMs) ∧
      (s.RecordsEvidence C hexDecode offlineAfter s' action around blind nowMs ↔
        ∀ link, verifiedOver C hexDecode s.connect action around = some link →
          link.DisconnectsCleanly) := by
  obtain ⟨action, hactivity, htracker⟩ := step_actuate h
  refine ⟨action, hactivity, htracker, ?_⟩
  have hok := actuate_eq_ok_iff C hexDecode s.connect action around
  have hbool : (actuate C hexDecode s.connect action around).result.toBool = true ↔
      (actuate C hexDecode s.connect action around).result = .ok () := by
    rcases (actuate C hexDecode s.connect action around).result with e | _ <;> simp [Except.toBool]
  unfold RecordsEvidence
  rw [htracker, recorded_eq hactivity]
  by_cases hresult : (actuate C hexDecode s.connect action around).result = .ok ()
  · obtain ⟨link, hlink, hclean⟩ := hok.1 hresult
    rw [if_pos (hbool.2 hresult)]
    refine iff_of_true ⟨fun _ => ⟨by simp, ?_⟩, fun _ => ⟨link, hlink⟩⟩ fun link' hlink' => ?_
    · cases action <;> rfl
    · obtain rfl := Option.some.inj (hlink.symm.trans hlink')
      exact hclean
  · rw [if_neg (mt hbool.1 hresult)]
    constructor
    · rintro ⟨hrecords, -⟩ link hlink
      exact absurd (hrecords ⟨link, hlink⟩).1 (by simp)
    · intro hclean
      refine ⟨fun ⟨link, hlink⟩ => absurd (hok.2 ⟨link, hlink, hclean link hlink⟩) hresult, ?_⟩
      rintro ⟨nowMs', action', hmem⟩
      exact absurd hmem (by simp)

/-! A lock that carries the command out, over a connection that ends in one way or another. -/

def answeringSurroundings (disconnect : Except String Unit) : Surroundings :=
  { loadLockData := .ok [sampleLockData]
    attempt := fun _ =>
      { startScan := .ok ()
        polls := [⟨0, .ok [samplePeripheral "AA:BB:CC:DD:EE:FF"]⟩]
        dial :=
          { connect := .ok (), connectAgain := .ok ()
            discoverServices := .ok (), discoverServicesAgain := .ok ()
            hasWriteCharacteristic := true, hasNotifyCharacteristic := true
            notifications := .ok (), subscribe := .ok ()
            link :=
              { writes := [.ok (), .ok ()]
                reads := [.ok (0, sampleReply [COMM_CHECK_USER_TIME, 1, 0, 0, 0, 9]),
                  .ok (0, sampleReply [COMM_FUNCTION_LOCK, 1])]
                disconnect } } } }

/-- The worker, after a `LOCK` command and before its outcome. -/
def sampleActuating : WorkerRun :=
  { connect := sampleConnect, target := sampleTarget, actuations := []
    worker :=
      { tracker := { LockTracker.new with knowledge := .inProgress none .lock }
        mode := .idle, activity := .actuating .lock } }

/-- The stale-object symptom at the end does not matter. -/
theorem records_evidence_stale_object :
    ∃ s', sampleActuating.step aes128Cbc sampleHex (.fromSecs 60)
        (.actuate (answeringSurroundings (.error "UnknownObject")) (.fromSecs 14) 16000) = some s' ∧
      sampleActuating.RecordsEvidence aes128Cbc sampleHex (.fromSecs 60) s' .lock
        (answeringSurroundings (.error "UnknownObject")) (.fromSecs 14) 16000 := by
  obtain ⟨s', hs'⟩ : ∃ s', sampleActuating.step aes128Cbc sampleHex (.fromSecs 60)
      (.actuate (answeringSurroundings (.error "UnknownObject")) (.fromSecs 14) 16000) = some s' :=
    Option.isSome_iff_exists.1 (by decide +kernel)
  obtain ⟨action, haction, -, hiff⟩ := records_evidence_iff hs'
  obtain rfl : action = .lock := (Activity.actuating.inj haction).symm
  refine ⟨s', hs', hiff.2 fun link hlink => ?_⟩
  have hend : (verifiedOver aes128Cbc sampleHex sampleActuating.connect .lock
      (answeringSurroundings (.error "UnknownObject"))).map Link.disconnect =
        some (.error "UnknownObject") := by
    decide +kernel
  rw [hlink] at hend
  intro e he
  obtain rfl : "UnknownObject" = e := Except.error.inj ((Option.some.inj hend).symm.trans he)
  decide +kernel

/-- The lock has acknowledged the command, and the worker reports it as still in progress because the
    connection could not be closed. -/
theorem verified_reply_lost :
    let around := answeringSurroundings (.error "org.bluez.Error.Failed")
    Runs.exec (step aes128Cbc sampleHex (.fromSecs 60)) (new sampleConnect sampleTarget)
        [.own .scanFailed, .receive (.command .lock), .publish] = some sampleActuating ∧
      (∃ link, verifiedOver aes128Cbc sampleHex sampleActuating.connect .lock around = some link) ∧
      ∃ s', sampleActuating.step aes128Cbc sampleHex (.fromSecs 60)
          (.actuate around (.fromSecs 14) 16000) = some s' ∧
        s'.worker.tracker.reportedState = some .locking ∧
        ¬sampleActuating.RecordsEvidence aes128Cbc sampleHex (.fromSecs 60) s' .lock around
          (.fromSecs 14) 16000 := by
  intro around
  have hverified : ∃ link, verifiedOver aes128Cbc sampleHex sampleActuating.connect .lock around
      = some link :=
    Option.isSome_iff_exists.1 (by decide +kernel)
  have hstate : (sampleActuating.step aes128Cbc sampleHex (.fromSecs 60)
      (.actuate around (.fromSecs 14) 16000)).map (fun s' => s'.worker.tracker.reportedState) =
        some (some .locking) := by
    decide +kernel
  obtain ⟨s', hs', hreported⟩ := Option.map_eq_some_iff.1 hstate
  refine ⟨by decide +kernel, hverified, s', hs', hreported, fun h => ?_⟩
  have hclaimed := (h.1 hverified).2
  rw [hreported] at hclaimed
  cases hclaimed

end WorkerRun

end TTLock
