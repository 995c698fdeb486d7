import TTLock.Cli.DaemonRun
import TTLock.Cli.Proofs.Broker
import TTLock.Cli.Proofs.LockSafety
import TTLock.Core.Proofs.Changed
import TTLock.Lib.Fallible

set_option autoImplicit false

/-! # What the daemon's commands do to a lock

From the broker to the bolt: every command that arrives is carried out in its turn, and what the broker
retains about the bolt is right. -/

namespace TTLock

variable {C : Cipher} {hexDecode : String → Except String (List UInt8)} {lock : PairedLock}
  {connect : ConnectOpts} {offlineAfter : Duration} {unlockKey : UnlockKey}

/-! ## One call of `actuate` -/

/-- Over a connection whose answers are decided beforehand it is `actuate`. -/
theorem actuateOver_recorded (opts : ConnectOpts) (action : Actuation) (around : Surroundings)
    {fuel : Nat} (hfuel : ∀ connection op,
      prepare hexDecode opts action around = .ok (connection, op) → connection.reads.length < fuel)
    {link : Recorded} (hlink : link.written = []) :
    ∃ link', actuateOver C hexDecode Recorded.transport fuel opts action around (⟨·, []⟩) link =
        some ((actuate C hexDecode opts action around).result, link') ∧
      link'.written = (actuate C hexDecode opts action around).written := by
  unfold actuateOver
  rcases hprepared : prepare hexDecode opts action around with e | ⟨connection, op⟩
  · have hactuate : actuate C hexDecode opts action around = ⟨.error e, []⟩ := by
      unfold prepare at hprepared
      unfold actuate
      simp only [hprepared]
    rw [hactuate]
    exact ⟨link, rfl, hlink⟩
  · obtain ⟨op', link', hrun⟩ := Transport.runOp_recorded (ActuateOp.operation C) connection
      (hfuel connection op hprepared) op
    have hactuate : actuate C hexDecode opts action around =
        { runOp (ActuateOp.operation C) op connection with
          result := (runOp (ActuateOp.operation C) op connection).result.bind fun () =>
            BleConnection.disconnect connection } := by
      unfold prepare at hprepared
      unfold actuate
      simp only [hprepared]
    rw [hactuate]
    refine ⟨⟨link', _⟩, ?_, rfl⟩
    dsimp only
    rw [hrun]
    rfl

/-- The credential file has the lock's AES key and this unlock key, as far as it has any. -/
def Surroundings.Holds (hexDecode : String → Except String (List UInt8)) (connect : ConnectOpts)
    (aesKey : AesKey) (unlockKey : UnlockKey) (around : Surroundings) : Prop :=
  ∀ locks selected, around.loadLockData = .ok locks → selectLock locks connect.address = .ok selected →
    (∀ key, selected.aesKey hexDecode = .ok key → key = aesKey) ∧
    ∀ key, selected.unlockKey = .ok key → key = unlockKey

theorem prepare_cases {around : Surroundings}
    (hholds : around.Holds hexDecode connect lock.aesKey unlockKey) {action : Actuation}
    {connection : Link} {op : ActuateOp}
    (h : prepare hexDecode connect action around = .ok (connection, op)) :
    op = action.op lock.aesKey unlockKey op.version := by
  simp only [prepare, selectAndConnect, Fallible.bind_eq_ok_iff, Fallible.mapError_eq_ok_iff] at h
  obtain ⟨⟨_, _, selected⟩, ⟨locks, hlocks, _, hselected, connected, _, hpair⟩, aesKey, haesKey, key, hkey,
    hop⟩ := h
  cases hpair
  obtain ⟨haes, hunlock⟩ := hholds locks selected hlocks hselected
  have hmade := (congrArg Prod.snd (Except.ok.inj hop)).symm
  dsimp only at hmade
  rw [hmade, haes aesKey haesKey, hunlock key hkey]
  rfl

/-- What one call may do to the lock: nothing but what it was asked to, at most three times, only if the
    version it drives the operation with is the lock's, and for a right sum, and at least once if it is
    acknowledged. A call that drives none does nothing. -/
def PairedLock.Obeys (lock : PairedLock) (unlockKey : UnlockKey) (call : PastCall)
    (before after : LockSession) : Prop :=
  match call.version with
  | none => after = before ∧ call.result ≠ .ok ()
  | some version => ∃ moves ≤ 3, Moved lock call.action unlockKey version before moves after ∧
      (call.result = .ok () → moves ≠ 0)

/-- After a call that is acknowledged the bolt is where it was asked to be. -/
theorem PairedLock.Obeys.bolt {call : PastCall} {before after : LockSession}
    (h : lock.Obeys unlockKey call before after) (hok : call.result = .ok ()) :
    after.bolt = call.action.target := by
  unfold PairedLock.Obeys at h
  cases hversion : call.version with
  | none =>
      rw [hversion] at h
      exact absurd hok h.2
  | some version =>
      rw [hversion] at h
      obtain ⟨moves, -, hmoved, hne⟩ := h
      rw [hmoved.bolt, if_neg (hne hok)]

/-- What is put on a connection from elsewhere is not forged with the lock's key. -/
def Unforged (C : Cipher) (lock : PairedLock) (script : List Delivery) : Prop :=
  ∀ now raw, Delivery.other now raw ∈ script →
    Foreign C lock.aesKey [COMM_CHECK_USER_TIME, COMM_FUNCTION_LOCK, COMM_UNLOCK] raw

theorem actuateOver_obeys (hC : C.Lawful) (fate : Nat → Fate) {around : Surroundings}
    (hholds : around.Holds hexDecode connect lock.aesKey unlockKey) {script : List Delivery}
    (hunforged : Unforged C lock script) (action : Actuation) (link : LockLink) :
    ∃ result link', actuateOver C hexDecode (LockLink.transport .timeout .disconnected C lock fate) 2
        connect action around (fun _ => .new link.session script) link = some (result, link') ∧
      lock.Obeys unlockKey ⟨action, drivenVersion hexDecode connect action around, result⟩ link.session
        link'.session := by
  rw [actuateOver, drivenVersion]
  rcases hprepared : prepare hexDecode connect action around with e | ⟨connection, op⟩
  · exact ⟨.error e, link, rfl, rfl, fun h => by cases h⟩
  · have hop := prepare_cases hholds hprepared
    generalize op.version = version at hop
    subst hop
    have hasked : [COMM_CHECK_USER_TIME, action.commandType] ⊆
        [COMM_CHECK_USER_TIME, COMM_FUNCTION_LOCK, COMM_UNLOCK] := by
      cases action <;> decide
    obtain ⟨result, op', link', hrun, hsound⟩ := @runOp_actuate C lock action unlockKey version link.session
      hC fate _ ((fresh_new hunforged).mono hasked) 2 (Nat.le_refl 2)
    obtain ⟨moves, hle, hmoved, hok⟩ := hsound.moved
    refine ⟨result.bind fun () => BleConnection.disconnect connection, link', ?_, moves, hle, hmoved,
      fun h => hok ?_⟩
    · dsimp only
      rw [hrun]
      rfl
    · rcases result with e | ⟨⟩
      · cases h
      · rfl

/-! ## From a command to its call -/

/-- The command the current handler is about. -/
def Resume.inHand : Resume → List Actuation
  | .wait => []
  | .actuate action => [action]

def Activity.inHand : Activity → List Actuation
  | .waiting => []
  | .publishing _ _ resume => resume.inHand
  | .actuating action => [action]

def WorkerMessage.action? : WorkerMessage → Option Actuation
  | .command c => some c.toActuation
  | .republish => none

@[simp] theorem Activity.inHand_publish (ps : List Publication) (resume : Resume) :
    (Activity.publish ps resume).inHand = resume.inHand := by
  cases ps with
  | nil => cases resume <;> rfl
  | cons p ps => rfl

/-- A handler begins by taking its command in hand. -/
theorem BleWorker.inHand_receive {w w' : BleWorker} {message : WorkerMessage}
    (h : w.receive message = some w') :
    w.activity.inHand = [] ∧ w'.activity.inHand = message.action?.toList := by
  rcases w with ⟨tracker, mode, activity⟩
  cases message with
  | command c =>
      cases activity <;> cases mode <;> cases h <;> exact ⟨rfl, Activity.inHand_publish ..⟩
  | republish =>
      cases activity <;> cases mode <;> cases h <;>
        exact ⟨rfl, Activity.inHand_publish (publications tracker Changed.ALL) .wait⟩

theorem BleWorker.inHand_published {w w' : BleWorker} {p : Publication}
    (h : w.published = some (p, w')) : w'.activity.inHand = w.activity.inHand := by
  rcases w with ⟨tracker, mode, activity⟩
  cases activity with
  | waiting => cases h
  | actuating action => cases h
  | publishing next rest resume =>
      cases h
      exact Activity.inHand_publish ..

/-- An event ends no actuation but an end of one. -/
theorem BleWorker.inHand_step {w w' : BleWorker} {event : WorkerEvent}
    (h : w.step offlineAfter event = some w') :
    w'.activity.inHand = [] ∧ (w.activity.inHand = [] ∨
      ∃ action succeeded blind nowMs, event = .actuated succeeded blind nowMs ∧
        w.activity = .actuating action) := by
  rcases BleWorker.step_eq h with ⟨hwaiting, -, mode, rfl⟩ | ⟨nowMs, ad, -, hwaiting, rfl⟩ |
    ⟨nowMs, -, hwaiting, rfl⟩ | ⟨action, succeeded, blind, nowMs, hevent, hactuating, rfl⟩
  · exact ⟨by rw [show BleWorker.activity _ = w.activity from rfl, hwaiting]; rfl,
      .inl (by rw [hwaiting]; rfl)⟩
  · exact ⟨Activity.inHand_publish .., .inl (by rw [hwaiting]; rfl)⟩
  · exact ⟨Activity.inHand_publish .., .inl (by rw [hwaiting]; rfl)⟩
  · exact ⟨Activity.inHand_publish .., .inr ⟨action, succeeded, blind, nowMs, hevent, hactuating⟩⟩

namespace Bridge

/-- The commands that were not carried out yet, in order. -/
def pending (b : Bridge) : List Actuation :=
  b.worker.activity.inHand ++ b.messages.filterMap WorkerMessage.action?

end Bridge

/-- What the worker receives is the first message of the queue. -/
theorem Bridge.step_receive {b b' : Bridge} (hstep : b.step offlineAfter .receive = some b') :
    ∃ message messages w', b.messages = message :: messages ∧ b.worker.receive message = some w' ∧
      b' = { b with
        worker := w', messages, served := b.served || message == .republish
        calls := b.calls ++ message.calls } := by
  rw [Bridge.step] at hstep
  split at hstep
  · cases hstep
  · next message messages hmessages =>
      obtain ⟨w', hw, rfl⟩ := Option.map_eq_some_iff.1 hstep
      exact ⟨message, messages, w', hmessages, hw, rfl⟩

namespace DaemonRun

/-- All commands, in order: first those whose calls have returned. -/
def commands (d : DaemonRun) : List Actuation := d.returned.map PastCall.action ++ d.bridge.pending

/-- What a step may be. -/
inductive Went (C : Cipher) (hexDecode : String → Except String (List UInt8)) (lock : PairedLock)
    (connect : ConnectOpts) (offlineAfter : Duration) (d : DaemonRun) : DaemonEvent → DaemonRun → Prop
  | bridge (action : BridgeAction) (bridge : Bridge)
      (hactuated : ∀ succeeded blind nowMs, action ≠ .worker (.actuated succeeded blind nowMs))
      (hbridge : d.bridge.step offlineAfter action = some bridge) :
      Went C hexDecode lock connect offlineAfter d (.bridge action) { d with bridge }
  | actuate (around : Surroundings) (fate : Nat → Fate) (script : List Delivery) (blind : Duration)
      (nowMs : UInt64) (action : Actuation) (result : Except CliError Unit) (link : LockLink)
      (bridge : Bridge) (hactuating : d.bridge.worker.activity = .actuating action)
      (hactuate : actuateOver C hexDecode (LockLink.transport .timeout .disconnected C lock fate) 2 connect
        action around (fun _ => .new d.link.session script) d.link = some (result, link))
      (hbridge : d.bridge.step offlineAfter (.worker (.actuated result.toBool blind nowMs)) = some bridge) :
      Went C hexDecode lock connect offlineAfter d (.actuate around fate script blind nowMs)
        { bridge, link, returned :=
            d.returned ++ [⟨action, drivenVersion hexDecode connect action around, result⟩] }

theorem went_of_step {d d' : DaemonRun} {event : DaemonEvent}
    (h : step C hexDecode lock connect offlineAfter d event = some d') :
    Went C hexDecode lock connect offlineAfter d event d' := by
  cases event with
  | bridge action =>
      unfold step at h
      split at h
      · cases h
      · next hactuated heq =>
          cases heq
          obtain ⟨bridge, hbridge, rfl⟩ := Option.map_eq_some_iff.1 h
          exact .bridge action bridge (fun _ _ _ heq => hactuated _ _ _ (by rw [heq])) hbridge
      · next heq => cases heq
  | actuate around fate script blind nowMs =>
      simp only [step] at h
      split at h
      · cases h
      · cases h
      · next action hactuating =>
          obtain ⟨⟨result, link⟩, hactuate, h⟩ := Option.bind_eq_some_iff.1 h
          obtain ⟨bridge, hbridge, h⟩ := Option.bind_eq_some_iff.1 h
          cases h
          exact .actuate around fate script blind nowMs action result link bridge hactuating hactuate hbridge

/-- Each of these calls in turn did to the lock what it may. -/
inductive Obeyed (lock : PairedLock) (unlockKey : UnlockKey) (before : LockSession) :
    List PastCall → LockSession → Prop
  | nil : Obeyed lock unlockKey before [] before
  | concat {calls : List PastCall} {call : PastCall} {session session' : LockSession}
      (h : Obeyed lock unlockKey before calls session) (hcall : lock.Obeys unlockKey call session session') :
      Obeyed lock unlockKey before (calls ++ [call]) session'

/-- The credential file has the lock's keys, and what comes over the air is not forged. -/
def Genuine (C : Cipher) (hexDecode : String → Except String (List UInt8)) (lock : PairedLock)
    (connect : ConnectOpts) (unlockKey : UnlockKey) : DaemonEvent → Prop
  | .actuate around _ script _ _ =>
      around.Holds hexDecode connect lock.aesKey unlockKey ∧ Unforged C lock script
  | .bridge _ => True

theorem Obeyed.step (hC : C.Lawful) {before : LockSession} {d d' : DaemonRun} {event : DaemonEvent}
    (h : Obeyed lock unlockKey before d.returned d.link.session)
    (hgenuine : Genuine C hexDecode lock connect unlockKey event)
    (hstep : step C hexDecode lock connect offlineAfter d event = some d') :
    Obeyed lock unlockKey before d'.returned d'.link.session := by
  cases went_of_step hstep with
  | bridge action bridge hactuated hbridge => exact h
  | actuate around fate script blind nowMs action result link bridge hactuating hactuate hbridge =>
      obtain ⟨result', link', hactuate', hobeys⟩ :=
        actuateOver_obeys hC fate hgenuine.1 hgenuine.2 action d.link
      cases hactuate.symm.trans hactuate'
      exact h.concat hobeys

end DaemonRun

/-- Whether an actuation has failed since anything was last heard of the bolt. -/
def failedSince (calls : List TrackerCall) : Bool :=
  calls.foldl (fun failed call => match call with
    | .onCommandFailed => true
    | .onCommandAcknowledged .. => false
    | .onAdvertisement _ advertisement => failed && advertisement.status.isNone
    | .onCommandStarted _ | .creditBlindTime _ | .pollAvailability .. | .onUnavailable => failed) false

/-- Unless an actuation has failed since, the bolt was last observed where it is. -/
def Accurate (calls : List TrackerCall) (bolt : Bolt) : Prop :=
  failedSince calls = false →
    ∀ observed, (LockTracker.new.run calls).knowledge.observed? = some observed → observed = bolt

theorem failedSince_snoc (calls : List TrackerCall) (call : TrackerCall) :
    failedSince (calls ++ [call]) = match call with
      | .onCommandFailed => true
      | .onCommandAcknowledged .. => false
      | .onAdvertisement _ advertisement => failedSince calls && advertisement.status.isNone
      | .onCommandStarted _ | .creditBlindTime _ | .pollAvailability .. | .onUnavailable =>
          failedSince calls := by
  unfold failedSince
  rw [List.foldl_append]
  rfl

theorem Accurate.snoc {calls : List TrackerCall} {bolt : Bolt} (h : Accurate calls bolt)
    {call : TrackerCall} (htrue : ∀ observed, ((LockTracker.new.run calls).mark call).bolt? = some observed →
      observed = bolt) : Accurate (calls ++ [call]) bolt := by
  intro hfailed observed hobserved
  rw [LockTracker.run_snoc, LockTracker.observed?_apply] at hobserved
  cases hmark : ((LockTracker.new.run calls).mark call).bolt? with
  | some evidence =>
      rw [hmark] at hobserved
      exact htrue observed (hmark.trans hobserved)
  | none =>
      rw [hmark, Option.none_or] at hobserved
      refine h ?_ observed hobserved
      rw [failedSince_snoc] at hfailed
      cases call with
      | onAdvertisement nowMs advertisement =>
          rw [LockTracker.mark] at hmark
          cases hstatus : advertisement.status with
          | none => simpa [hstatus] using hfailed
          | some status => simp [hstatus, Mark.bolt?] at hmark
      | onCommandAcknowledged nowMs action => cases hmark
      | onCommandFailed => cases hfailed
      | onCommandStarted | creditBlindTime | pollAvailability | onUnavailable => exact hfailed

/-- After a call of `actuate`, from wherever the bolt was before. -/
theorem accurate_actuated {call : PastCall} {before after : LockSession}
    (hobeys : lock.Obeys unlockKey call before after) (calls : List TrackerCall) (blind : Duration)
    (nowMs : UInt64) :
    Accurate (calls ++ [.creditBlindTime blind,
      if call.result.toBool then .onCommandAcknowledged nowMs call.action else .onCommandFailed])
      after.bolt := by
  intro hfailed observed hobserved
  rw [List.append_cons] at hfailed hobserved
  rw [failedSince_snoc] at hfailed
  rw [LockTracker.run_snoc, LockTracker.observed?_apply] at hobserved
  rcases call with ⟨action, version, e | ⟨⟩⟩
  · cases hfailed
  · rw [hobeys.bolt rfl]
    exact (Option.some.inj hobserved).symm

/-- An advertisement carries the position the bolt is in. -/
def BridgeAction.Truthful (bolt : Bolt) : BridgeAction → Prop
  | .worker (.advertisement _ advertisement) =>
      ∀ status, advertisement.status = some status → status.bolt = bolt
  | _ => True

/-- A step that ends no actuation tells nothing untrue of the bolt. -/
theorem Accurate.bridge_step {b b' : Bridge} {bolt : Bolt} (h : Accurate b.calls bolt)
    {action : BridgeAction}
    (hactuated : ∀ succeeded blind nowMs, action ≠ .worker (.actuated succeeded blind nowMs))
    (htruthful : action.Truthful bolt) (hstep : b.step offlineAfter action = some b') :
    Accurate b'.calls bolt := by
  cases action with
  | worker event =>
      obtain ⟨w', hw, rfl⟩ := Option.map_eq_some_iff.1 hstep
      cases event with
      | scanStarted | scanFailed | eventsEnded | retryElapsed =>
          exact (List.append_nil b.calls).symm ▸ h
      | advertisement nowMs advertisement =>
          refine h.snoc fun observed hobserved => ?_
          rw [LockTracker.mark] at hobserved
          cases hstatus : advertisement.status with
          | none => simp [hstatus, Mark.bolt?] at hobserved
          | some status =>
              rw [hstatus] at hobserved
              rw [← Option.some.inj hobserved]
              exact htruthful status hstatus
      | offlineTick nowMs =>
          refine h.snoc fun observed hobserved => ?_
          rw [LockTracker.mark] at hobserved
          split at hobserved <;> cases hobserved
      | actuated succeeded blind nowMs => exact absurd rfl (hactuated _ _ _)
  | receive =>
      obtain ⟨message, messages, w', hmessages, hw, rfl⟩ := Bridge.step_receive hstep
      cases message with
      | command c => exact h.snoc fun observed hobserved => by cases hobserved
      | republish => exact (List.append_nil b.calls).symm ▸ h
  | publish =>
      obtain ⟨⟨p, w'⟩, hw, rfl⟩ := Option.map_eq_some_iff.1 hstep
      exact h
  | command c =>
      cases hstep
      exact h
  | reconnect lastWill =>
      cases hstep
      exact h

/-- The command in hand is the one the tracker has in flight. -/
def BleWorker.Tracks (w : BleWorker) : Prop :=
  ∀ action ∈ w.activity.inHand, w.tracker.pending = some action

theorem BleWorker.Tracks.step {w w' : BleWorker} {event : WorkerEvent}
    (h : w.step offlineAfter event = some w') : w'.Tracks := by
  intro action haction
  rw [(BleWorker.inHand_step h).1] at haction
  cases haction

theorem BleWorker.Tracks.bridge_step {b b' : Bridge} {action : BridgeAction} (h : b.worker.Tracks)
    (hstep : b.step offlineAfter action = some b') : b'.worker.Tracks := by
  cases action with
  | worker event =>
      obtain ⟨w', hw, rfl⟩ := Option.map_eq_some_iff.1 hstep
      exact .step hw
  | receive =>
      obtain ⟨message, messages, w', hmessages, hw, rfl⟩ := Bridge.step_receive hstep
      intro action haction
      rw [(BleWorker.inHand_receive hw).2] at haction
      obtain ⟨-, ⟨started, hcalls, hne, htracker, -⟩ | ⟨rfl, -, -⟩⟩ := BleWorker.receive_cases hw
      · cases message with
        | republish => exact absurd rfl hne
        | command c =>
            cases hcalls
            cases List.mem_singleton.1 haction
            rw [htracker]
            rfl
      · cases haction
  | publish =>
      obtain ⟨⟨p, w'⟩, hw, rfl⟩ := Option.map_eq_some_iff.1 hstep
      intro action haction
      rw [BleWorker.inHand_published hw] at haction
      rw [(BleWorker.published_cases hw).2]
      exact h action haction
  | command c =>
      cases hstep
      exact h
  | reconnect lastWill =>
      cases hstep
      exact h

namespace DaemonRun

/-- What holds while every advertisement is true. -/
structure Tells (before : Retained) (d : DaemonRun) : Prop where
  inv : Bridge.Inv before d.bridge
  tracks : d.bridge.worker.Tracks
  accurate : Accurate d.bridge.calls d.link.session.bolt

theorem Tells.init (retained : Retained) (session : LockSession) :
    Tells retained (init retained session) where
  inv := .init retained
  tracks action haction := by cases haction
  accurate _ observed hobserved := by cases hobserved

/-- The advertisements that are heard are true. -/
def Truthful (d : DaemonRun) : DaemonEvent → Prop
  | .bridge action => action.Truthful d.link.session.bolt
  | .actuate .. => True

theorem Tells.step (hC : C.Lawful) {before : Retained} {d d' : DaemonRun} {event : DaemonEvent}
    (h : Tells before d) (hgenuine : Genuine C hexDecode lock connect unlockKey event)
    (htruthful : Truthful d event)
    (hstep : step C hexDecode lock connect offlineAfter d event = some d') : Tells before d' := by
  cases went_of_step hstep with
  | bridge action bridge hactuated hbridge =>
      exact ⟨h.inv.step _ _ _ hbridge, h.tracks.bridge_step hbridge,
        h.accurate.bridge_step hactuated htruthful hbridge⟩
  | actuate around fate script blind nowMs action result link bridge hactuating hactuate hbridge =>
      obtain ⟨result', link', hactuate', hobeys⟩ :=
        actuateOver_obeys hC fate hgenuine.1 hgenuine.2 action d.link
      cases hactuate.symm.trans hactuate'
      refine ⟨h.inv.step _ _ _ hbridge, h.tracks.bridge_step hbridge, ?_⟩
      obtain ⟨w', hw, rfl⟩ := Option.map_eq_some_iff.1 hbridge
      show Accurate (d.bridge.calls ++ WorkerEvent.calls offlineAfter d.bridge.worker.activity _) _
      rw [hactuating]
      exact accurate_actuated hobeys d.bridge.calls blind nowMs

end DaemonRun

end TTLock
