import TTLock.Cli.Proofs.LockSafety
import TTLock.Cli.Proofs.LockStatus
import TTLock.HomeAssistant.Proofs.Rule

set_option autoImplicit false

/-! # Both drivers against a lock

Whatever becomes of the frames on their way, either driver leaves the lock as `Sound` says
(`actuation_is_sound`). A status query leaves it alone (`Told`). -/

namespace TTLock

variable {C : Cipher} {lock : PairedLock} {action : Actuation} {unlockKey : UnlockKey}
  {version : LockVersion} {before : LockSession}

/-- What Home Assistant raises for an error of the core. -/
def raisedFor (e : TtlockError) : HaError := .homeAssistantError (toPyerr e)

/-- Home Assistant's driver, over a connection that has just been made. -/
theorem asyncDrive_actuate (hC : C.Lawful) (fate : Nat → Fate) {link : LockLink}
    (hfresh : Fresh C lock [COMM_CHECK_USER_TIME, action.commandType] before link) {fuel : Nat}
    (hfuel : 2 ≤ fuel) (rendered : String) :
    ∃ result op link',
      HomeAssistant.asyncDrive (LockLink.transport .transient (.bleak rendered) C lock fate)
        (ActuateOp.operation C) fuel (action.op lock.aesKey unlockKey version) link =
          some (result, op, link') ∧
      Sound lock action unlockKey version before raisedFor result link'.session := by
  have hrule := @exchanging_rule C lock action unlockKey version before hC HaError HaError .transient
    (.bleak rendered) HaError.core HomeAssistant.raised
    (fun e e' h => HaError.core_injective (congrArg HaError.ttlock (HaError.homeAssistantError.inj h)))
    (fun _ h => by cases h) (fun _ h => by cases h) fate
  obtain ⟨result, op, link', hends, hrun⟩ := hrule.asyncDrive (ActuateOp.countsDown hC) (by decide) hfuel
    (exchanging_start hfresh)
  exact ⟨_, op, link', hrun, sound_of_ends hends⟩

/-- What a status query may come to. -/
structure Told (lock : PairedLock) (version : LockVersion) (before : LockSession) {ε : Type}
    (core : TtlockError → ε) (result : Except ε LockState) (after : LockSession) : Prop where
  session : after = before
  state : ∀ state, result = .ok state → version = lock.version ∧ state = before.bolt.lockState
  rejected : ∀ r, result = .error (core (.commandFailed COMM_SEARCH_BICYCLE_STATUS r)) →
    r = lock.rejection ∧ version ≠ lock.version

theorem told_of_ends {ε ε' : Type} {core : TtlockError → ε'} {face : ε → ε'} {result : Except ε LockState}
    {op : StatusOp} {link : LockLink} (h : Transport.Ends
      (fun state _ link => link.session = before ∧ version = lock.version ∧
        state = before.bolt.lockState)
      (fun e _ link => QueryFailed lock version before core (face e) link.session)
      (result, op, link)) :
    Told lock version before core (result.mapError face) link.session := by
  rcases result with e | state
  · exact ⟨h.session, (fun _ hs => by cases hs), fun r hr => h.rejected r (Except.error.inj hr)⟩
  · obtain ⟨hsession, hv, hstate⟩ := h
    refine ⟨hsession, fun state' hs => ?_, fun _ hr => by cases hr⟩
    cases hs
    exact ⟨hv, hstate⟩

theorem querying_start {link : LockLink} (hfresh : Fresh C lock [COMM_SEARCH_BICYCLE_STATUS] before link)
    (frame : List UInt8) (op : StatusOp)
    (h : (StatusOp.operation C).start.call (.new lock.aesKey version) = (.ok (.write frame), op)) :
    Querying C lock version before frame op link := by
  change (StatusOp.start C).call _ = _ at h
  rw [StatusOp.call_start] at h
  rcases hb : (StatusOp.new lock.aesKey version).request.build C with e | frame' <;> rw [hb] at h <;> cases h
  exact
    { made := rfl
      built := hb
      session := hfresh.session
      script := hfresh.script
      replies := fun raw hraw => by rw [hfresh.replies] at hraw; exact absurd hraw List.not_mem_nil }

theorem asyncDrive_status (hC : C.Lawful) (fate : Nat → Fate) {link : LockLink}
    (hfresh : Fresh C lock [COMM_SEARCH_BICYCLE_STATUS] before link) {fuel : Nat} (hfuel : 1 ≤ fuel)
    (rendered : String) :
    ∃ result op link',
      HomeAssistant.asyncDrive (LockLink.transport .transient (.bleak rendered) C lock fate)
        (StatusOp.operation C) fuel (.new lock.aesKey version) link = some (result, op, link') ∧
      Told lock version before raisedFor result link'.session := by
  have hrule := @querying_rule C lock version before hC HaError HaError .transient (.bleak rendered)
    HaError.core HomeAssistant.raised
    (fun e e' h => HaError.core_injective (congrArg HaError.ttlock (HaError.homeAssistantError.inj h)))
    (fun _ h => by cases h) (fun _ h => by cases h) fate
  obtain ⟨result, op, link', hends, hrun⟩ := hrule.asyncDrive (StatusOp.countsDown hC) (Nat.le_refl 1) hfuel
    (querying_start hfresh)
  exact ⟨_, op, link', hrun, told_of_ends hends⟩

end TTLock
