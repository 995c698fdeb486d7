import TTLock.Core.Proofs.Tracker

set_option autoImplicit false

/-! # Nobody misses a change

`Changed` is a difference of snapshots, so a consumer that overwrites what is flagged stays in step with
the tracker. Two things a consumer may show are in no snapshot: the bolt under a command in flight, and
that command. They are hidden only while a command is in flight before and after a call, and no call
that leaves one in flight is evidence of the bolt as well. -/

namespace TTLock

/-- What a consumer shows of the lock. -/
structure Shown where
  state : Option ReportedState
  available : Bool
  battery : Option UInt8
deriving DecidableEq, Repr

/-- Before anything was shown. -/
def Shown.initial : Shown := { state := none, available := false, battery := none }

/-- Overwrite what is flagged, with what the tracker says now. -/
def Shown.overwrite (self : Shown) (changed : Changed) (tracker : LockTracker) : Shown :=
  { state := if changed.state then tracker.reportedState else self.state
    available := if changed.available then tracker.available else self.available
    battery := if changed.battery then tracker.batteryLevel else self.battery }

/-- The command a reported state tells of. -/
def ReportedState.command? : ReportedState → Option Actuation
  | .locking => some .lock
  | .unlocking => some .unlock
  | .locked | .unlocked => none

/-- The bolt position a reported state tells of. -/
def ReportedState.position? : ReportedState → Option Bool
  | .locked => some true
  | .unlocked => some false
  | .locking | .unlocking => none

namespace LockTracker

/-- What a call returns, if it returns anything: `creditBlindTime` does not. -/
def changed (self : LockTracker) : TrackerCall → Option Changed
  | .onAdvertisement nowMs advertisement => some (self.onAdvertisement nowMs advertisement).2
  | .onCommandStarted action => some (self.onCommandStarted action).2
  | .onCommandAcknowledged nowMs action => some (self.onCommandAcknowledged nowMs action).2
  | .onCommandFailed => some self.onCommandFailed.2
  | .creditBlindTime _ => none
  | .pollAvailability nowMs offlineAfter => some (self.pollAvailability nowMs offlineAfter).2
  | .onUnavailable => some self.onUnavailable.2

/-- A consumer along a run: after each call it overwrites what the call flagged. -/
def follow (self : LockTracker) (shown : Shown) : List TrackerCall → Shown
  | [] => shown
  | call :: calls =>
      let after := self.apply call
      let shown := match self.changed call with
        | some changed => shown.overwrite changed after
        | none => shown
      after.follow shown calls

/-- Everything there is to show. -/
def shown (self : LockTracker) : Shown :=
  { state := self.reportedState, available := self.available, battery := self.batteryLevel }

/-! ## One call -/

/-- **What a call returns** is the difference it makes, unless it returns nothing and makes none. -/
theorem changed_cases (t : LockTracker) (call : TrackerCall) :
    t.changed call = some (diff t.snapshot (t.apply call).snapshot) ∨
    (∃ blind, call = .creditBlindTime blind) ∧ t.changed call = none := by
  obtain ⟨hadvertisement, hstarted, hacknowledged, hfailed, hpoll⟩ := changed_eq_diff t
  cases call with
  | onAdvertisement nowMs ad => exact .inl (congrArg some (hadvertisement nowMs ad))
  | onCommandStarted action => exact .inl (congrArg some (hstarted action))
  | onCommandAcknowledged nowMs action => exact .inl (congrArg some (hacknowledged nowMs action))
  | onCommandFailed => exact .inl (congrArg some hfailed)
  | creditBlindTime blind => exact .inr ⟨⟨blind, rfl⟩, rfl⟩
  | pollAvailability nowMs offlineAfter => exact .inl (congrArg some (hpoll nowMs offlineAfter))
  | onUnavailable => exact .inl rfl

/-- A battery level is all there is to a battery. -/
theorem batteryLevel_eq_iff {t t' : LockTracker} :
    t.batteryLevel = t'.batteryLevel ↔ t.battery = t'.battery := by
  refine (Option.map_injective ?_).eq_iff
  rintro ⟨level, hlevel⟩ ⟨level', hlevel'⟩ h
  obtain rfl : level = level' := h
  rfl

theorem diff_state_iff (t t' : LockTracker) :
    (diff t.snapshot t'.snapshot).state = true ↔ t.reportedState ≠ t'.reportedState := bne_iff_ne

theorem diff_available_iff (t t' : LockTracker) :
    (diff t.snapshot t'.snapshot).available = true ↔ t.available ≠ t'.available := bne_iff_ne

theorem diff_battery_iff (t t' : LockTracker) :
    (diff t.snapshot t'.snapshot).battery = true ↔ t.batteryLevel ≠ t'.batteryLevel := by
  rw [Ne, batteryLevel_eq_iff]
  exact bne_iff_ne

/-- Overwriting what differs with what it is now gives what it is now. -/
theorem overwrite_diff (t t' : LockTracker) :
    t.shown.overwrite (diff t.snapshot t'.snapshot) t' = t'.shown := by
  simp only [Shown.overwrite, shown, Shown.mk.injEq, diff_state_iff, diff_available_iff,
    diff_battery_iff, ite_eq_left_iff, not_not]
  exact ⟨id, id, id⟩

/-- **Blind time shows nowhere.** -/
theorem creditBlindTime_shows_nothing (t : LockTracker) (blind : Duration) :
    (t.creditBlindTime blind).shown = t.shown ∧ (t.creditBlindTime blind).isLocked = t.isLocked ∧
      (t.creditBlindTime blind).pending = t.pending := by
  unfold creditBlindTime
  cases t.lastSeenMs <;> exact ⟨rfl, rfl, rfl⟩

theorem pending_eq_command? (t : LockTracker) :
    t.pending = t.reportedState.bind ReportedState.command? := by
  unfold pending reportedState
  rcases t.knowledge with _ | bolt | ⟨last, action⟩
  · rfl
  · cases bolt <;> rfl
  · cases action <;> rfl

theorem isLocked_eq_position? {t : LockTracker} (h : t.pending = none) :
    t.isLocked = t.reportedState.bind ReportedState.position? := by
  unfold isLocked reportedState
  rw [pending] at h
  cases hknowledge : t.knowledge with
  | unknown => rfl
  | observed bolt => cases bolt <;> rfl
  | inProgress last action => simp [hknowledge, Knowledge.pending] at h

/-- A call that leaves a command in flight is no evidence of the bolt. -/
theorem isLocked_apply_of_pending {t : LockTracker} {call : TrackerCall}
    (h : (t.apply call).pending ≠ none) : (t.apply call).isLocked = t.isLocked := by
  rw [pending, apply_knowledge, Knowledge.pending_after] at h
  rw [isLocked, apply_knowledge, Knowledge.observed?_after]
  cases hmark : t.mark call with
  | evidence bolt => simp [hmark] at h
  | started action => rfl
  | loss => simp [hmark] at h
  | silent => rfl

/-- No call changes the bolt or the command behind an unchanged report. -/
theorem apply_eq_of_reportedState_eq {t : LockTracker} {call : TrackerCall}
    (h : t.reportedState = (t.apply call).reportedState) :
    (t.apply call).isLocked = t.isLocked ∧ (t.apply call).pending = t.pending := by
  have hpending : (t.apply call).pending = t.pending := by
    rw [pending_eq_command?, pending_eq_command?, h]
  refine ⟨?_, hpending⟩
  by_cases hnone : t.pending = none
  · rw [isLocked_eq_position? hnone, isLocked_eq_position? (hpending.trans hnone), h]
  · exact isLocked_apply_of_pending (hpending ▸ hnone)

/-! ## Whole runs -/

theorem follow_shown (t : LockTracker) (calls : List TrackerCall) :
    t.follow t.shown calls = (t.run calls).shown := by
  induction calls generalizing t with
  | nil => rfl
  | cons call calls ih =>
      rw [follow, run_cons, ← ih]
      rcases changed_cases t call with hchanged | ⟨⟨blind, rfl⟩, hchanged⟩
      · simp only [hchanged, overwrite_diff]
      · simp only [hchanged]
        rw [← (creditBlindTime_shows_nothing t blind).1]
        rfl

/-- **Change notifications are complete.** Over any run of a new tracker: a consumer that overwrites
    what is flagged always shows what the tracker says; nothing is flagged that does not differ; a call
    that changes the bolt position or the command in flight flags the state; and blind time, which
    nothing is returned for, changes nothing there is to show. -/
theorem change_notifications_complete (calls : List TrackerCall) :
    let t := LockTracker.new.run calls
    LockTracker.new.follow Shown.initial calls = t.shown ∧
    (∀ call changed, t.changed call = some changed →
      (changed.state = true ↔ t.reportedState ≠ (t.apply call).reportedState) ∧
      (changed.available = true ↔ t.available ≠ (t.apply call).available) ∧
      (changed.battery = true ↔ t.batteryLevel ≠ (t.apply call).batteryLevel) ∧
      ((t.apply call).isLocked ≠ t.isLocked ∨ (t.apply call).pending ≠ t.pending →
        changed.state = true)) ∧
    (∀ call, t.changed call = none ↔ ∃ blind, call = .creditBlindTime blind) ∧
    ∀ blind, (t.creditBlindTime blind).shown = t.shown ∧
      (t.creditBlindTime blind).isLocked = t.isLocked ∧
      (t.creditBlindTime blind).pending = t.pending := by
  intro t
  refine ⟨follow_shown LockTracker.new calls, ?_, ?_, creditBlindTime_shows_nothing t⟩
  · intro call changed hchanged
    rcases changed_cases t call with hdiff | ⟨-, hnone⟩
    · obtain rfl := Option.some.inj (hdiff.symm.trans hchanged)
      refine ⟨diff_state_iff t _, diff_available_iff t _, diff_battery_iff t _, fun hmoved => ?_⟩
      rw [diff_state_iff]
      intro hsame
      obtain ⟨hlocked, hpending⟩ := apply_eq_of_reportedState_eq hsame
      exact hmoved.elim (fun h => h hlocked) fun h => h hpending
    · simp [hnone] at hchanged
  · intro call
    constructor
    · intro hnone
      rcases changed_cases t call with hdiff | ⟨hblind, -⟩
      · simp [hnone] at hdiff
      · exact hblind
    · rintro ⟨blind, rfl⟩
      rfl

end LockTracker

end TTLock
