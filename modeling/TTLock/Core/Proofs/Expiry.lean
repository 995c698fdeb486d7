import TTLock.Core.Proofs.Tracker
import TTLock.Lib.Watchdog

set_option autoImplicit false

/-! # When availability expires

The tracker keeps one instant, which an advertisement or an acknowledgement sets and every credit of
blind time moves forward. The ledger of a watchdog keeps apart what that instant mixes: when the lock
was last heard and how much has been credited since. As long as nobody credits time that a poll or an
earlier credit has counted, the instant is their sum, and a poll expires exactly when the watchdog is
overdue. Only a poll makes that final: as long as none has counted the silence, the time of a slow
command can still be credited. -/

namespace TTLock

open Watchdog

/-! ## Calls with a clock -/

/-- A tracker call, when it is made, and for a credit since when the radio was blind. -/
inductive TimedCall where
  | onAdvertisement (nowMs : UInt64) (advertisement : Advertisement)
  | onCommandStarted (nowMs : UInt64) (action : Actuation)
  | onCommandAcknowledged (nowMs : UInt64) (action : Actuation)
  | onCommandFailed (nowMs : UInt64)
  | creditBlindTime (nowMs sinceMs : UInt64) (blind : Duration)
  | pollAvailability (nowMs : UInt64) (offlineAfter : Duration)
  | onUnavailable (nowMs : UInt64)
deriving DecidableEq

namespace TimedCall

def nowMs : TimedCall → UInt64
  | onAdvertisement nowMs _ | onCommandStarted nowMs _ | onCommandAcknowledged nowMs _
  | onCommandFailed nowMs | creditBlindTime nowMs _ _ | pollAvailability nowMs _
  | onUnavailable nowMs => nowMs

def call : TimedCall → TrackerCall
  | onAdvertisement nowMs advertisement => .onAdvertisement nowMs advertisement
  | onCommandStarted _ action => .onCommandStarted action
  | onCommandAcknowledged nowMs action => .onCommandAcknowledged nowMs action
  | onCommandFailed _ => .onCommandFailed
  | creditBlindTime _ _ blind => .creditBlindTime blind
  | pollAvailability nowMs offlineAfter => .pollAvailability nowMs offlineAfter
  | onUnavailable _ => .onUnavailable

/-- What a call is to the watchdog. -/
def event : TimedCall → Event
  | onAdvertisement .. | onCommandAcknowledged .. => .heard
  | pollAvailability .. => .polled
  | creditBlindTime _ sinceMs blind => .excused sinceMs.toNat blind.asMillis
  | onCommandStarted .. | onCommandFailed .. | onUnavailable .. => .other

end TimedCall

/-- The tracker with the ledger beside it. A call can be made if the ledger admits it. -/
def clocked (s : LockTracker × Ledger) (c : TimedCall) : Option (LockTracker × Ledger) :=
  if s.2.Admits c.nowMs.toNat c.event then
    some (s.1.apply c.call, s.2.after c.nowMs.toNat c.event)
  else none

theorem clocked_eq_some {s s' : LockTracker × Ledger} {c : TimedCall} (h : clocked s c = some s') :
    s.2.Admits c.nowMs.toNat c.event ∧
      s' = (s.1.apply c.call, s.2.after c.nowMs.toNat c.event) := by
  obtain ⟨hadmits, ⟨⟩⟩ := Option.ite_none_right_eq_some.1 h
  exact ⟨hadmits, rfl⟩

/-! ## Saturating arithmetic -/

theorem toNat_saturatingAdd (a b : UInt64) :
    (saturatingAdd a b).toNat = min (a.toNat + b.toNat) U64_MAX := by
  rw [saturatingAdd, UInt64.toNat_ofNat', Nat.mod_eq_of_lt]
  simp only [U64_MAX]
  omega

theorem toNat_saturatingSub (a b : UInt64) : (saturatingSub a b).toNat = a.toNat - b.toNat := by
  have ha := a.toNat_lt
  rw [saturatingSub, UInt64.toNat_ofNat', Nat.mod_eq_of_lt (by omega)]

theorem Duration.toNat_millisU64 (d : Duration) : d.millisU64.toNat = min d.asMillis U64_MAX := by
  rw [millisU64, UInt64.toNat_ofNat', Nat.mod_eq_of_lt]
  simp only [U64_MAX]
  omega

/-! ## The instant the tracker keeps -/

/-- The tracker's instant is the last hearing plus what was excused since. -/
structure InStep (t : LockTracker) (l : Ledger) : Prop where
  sound : l.Sound
  now_le : l.now ≤ U64_MAX
  seen : t.lastSeenMs.map UInt64.toNat = l.heard.map (· + l.excused)

namespace LockTracker

theorem onUnavailable_lastSeenMs (t : LockTracker) : t.onUnavailable.1.lastSeenMs = t.lastSeenMs := by
  unfold onUnavailable
  dsimp only
  cases t.knowledge.observed? <;> rfl

theorem pollAvailability_lastSeenMs (t : LockTracker) (nowMs : UInt64) (offlineAfter : Duration) :
    (t.pollAvailability nowMs offlineAfter).1.lastSeenMs = t.lastSeenMs := by
  unfold pollAvailability
  split
  · exact onUnavailable_lastSeenMs t
  · rfl

end LockTracker

theorem InStep.new : InStep LockTracker.new .start := ⟨.start, Nat.zero_le _, rfl⟩

/-- **One call** keeps the instant and the ledger in step. -/
theorem InStep.step {t : LockTracker} {l : Ledger} (h : InStep t l) {c : TimedCall}
    (hadmits : l.Admits c.nowMs.toNat c.event) :
    InStep (t.apply c.call) (l.after c.nowMs.toNat c.event) := by
  have hsound := h.sound.after hadmits
  have hnow : (l.after c.nowMs.toNat c.event).now = c.nowMs.toNat := by cases c <;> rfl
  have hmax : c.nowMs.toNat ≤ U64_MAX := Nat.le_of_lt_succ c.nowMs.toNat_lt
  refine ⟨hsound, by omega, ?_⟩
  cases c with
  | onAdvertisement nowMs advertisement => rfl
  | onCommandStarted nowMs action => exact h.seen
  | onCommandAcknowledged nowMs action => rfl
  | onCommandFailed nowMs => exact h.seen
  | pollAvailability nowMs offlineAfter =>
      show Option.map _ (t.pollAvailability nowMs offlineAfter).1.lastSeenMs = _
      rw [LockTracker.pollAvailability_lastSeenMs]
      exact h.seen
  | onUnavailable nowMs =>
      show Option.map _ t.onUnavailable.1.lastSeenMs = _
      rw [LockTracker.onUnavailable_lastSeenMs]
      exact h.seen
  | creditBlindTime nowMs sinceMs blind =>
      have hseen := h.seen
      show Option.map _ (t.creditBlindTime blind).lastSeenMs = l.heard.map (· + (l.excused + _))
      unfold LockTracker.creditBlindTime
      rcases hlast : t.lastSeenMs with _ | last
      · rw [hlast] at hseen
        rw [Option.map_eq_none_iff.1 hseen.symm, hlast]
        rfl
      · rw [hlast] at hseen
        obtain ⟨heard, hheard, hsum⟩ := Option.map_eq_some_iff.1 hseen.symm
        have hexcused := h.sound.excused_le heard hheard
        obtain ⟨-, hsince, hend⟩ := hadmits
        -- the span ends by now, so nothing saturates
        have hfits : blind.asMillis ≤ U64_MAX := by omega
        rw [hheard]
        show some (saturatingAdd last blind.millisU64).toNat = some (heard + (l.excused + blind.asMillis))
        rw [toNat_saturatingAdd, Duration.toNat_millisU64, ← hsum]
        congr 1
        omega

theorem inStep_run {calls : List TimedCall} {t : LockTracker} {l : Ledger}
    (hrun : Runs.exec clocked (LockTracker.new, Ledger.start) calls = some (t, l)) : InStep t l := by
  refine Runs.exec_invariant (I := fun s : LockTracker × Ledger => InStep s.1 s.2) ?_ hrun .new
  intro s c s' hs hstep
  obtain ⟨hadmits, rfl⟩ := clocked_eq_some hstep
  exact hs.step hadmits

/-! ## Expiry -/

namespace LockTracker

/-- What a poll looks at is the watchdog's silence. -/
theorem expired_iff {t : LockTracker} {l : Ledger} (h : InStep t l) (nowMs : UInt64)
    {offlineAfter : Duration} (hfits : offlineAfter.asMillis ≤ U64_MAX) :
    t.expired nowMs offlineAfter = true ↔ l.Overdue nowMs.toNat offlineAfter.asMillis := by
  have hseen := h.seen
  unfold expired Ledger.Overdue
  rcases hlast : t.lastSeenMs with _ | last
  · rw [hlast] at hseen
    simp [Option.map_eq_none_iff.1 hseen.symm]
  · rw [hlast] at hseen
    obtain ⟨heard, hheard, hsum⟩ := Option.map_eq_some_iff.1 hseen.symm
    have hle : saturatingSub nowMs last ≥ offlineAfter.millisU64 ↔
        offlineAfter.asMillis ≤ nowMs.toNat - heard - l.excused := by
      rw [ge_iff_le, UInt64.le_iff_toNat_le, toNat_saturatingSub, Duration.toNat_millisU64, ← hsum,
        Nat.min_eq_left hfits, Nat.sub_sub]
    simp [hheard, hle]

/-- What expiry takes away, and what it keeps. -/
theorem onUnavailable_spec (t : LockTracker) :
    t.onUnavailable.1.available = false ∧ t.onUnavailable.1.pending = none ∧
      t.onUnavailable.1.isLocked = t.isLocked := by
  refine ⟨?_, ?_, ?_⟩
  · unfold onUnavailable
    dsimp only
    cases t.knowledge.observed? <;> rfl
  · rw [pending, onUnavailable_knowledge, Knowledge.pending_after]
  · rw [isLocked, onUnavailable_knowledge, Knowledge.observed?_after]
    rfl

/-- A later poll, as long as nothing is heard and no time before the moment is credited. -/
theorem overdue_kept {s s' : LockTracker × Ledger} (hs : InStep s.1 s.2) {moment limit : Nat}
    (hoverdue : s.2.OverdueSince moment limit) {later : List TimedCall}
    (hquiet : ∀ c ∈ later, c.event ≠ .heard)
    (hcredits : ∀ c ∈ later, ∀ since length, c.event = .excused since length → moment ≤ since)
    (hrun : Runs.exec clocked s later = some s') :
    InStep s'.1 s'.2 ∧ s'.2.OverdueSince moment limit := by
  induction later generalizing s with
  | nil => exact Option.some.inj hrun ▸ ⟨hs, hoverdue⟩
  | cons c later ih =>
      obtain ⟨mid, hstep, hrest⟩ := Runs.exec_cons_eq_some.1 hrun
      obtain ⟨hadmits, rfl⟩ := clocked_eq_some hstep
      obtain ⟨hnot, hquiet⟩ := List.forall_mem_cons.1 hquiet
      obtain ⟨hcredit, hcredits⟩ := List.forall_mem_cons.1 hcredits
      exact ih (hs.step hadmits) (hoverdue.after hs.sound hadmits hnot hcredit) hquiet hcredits hrest

/-- No time before the mark is credited. -/
theorem credited_since_mark {s s' : LockTracker × Ledger} (hs : InStep s.1 s.2) {moment : Nat}
    (hmark : moment ≤ s.2.mark) {later : List TimedCall} (hrun : Runs.exec clocked s later = some s') :
    ∀ c ∈ later, ∀ since length, c.event = .excused since length → moment ≤ since := by
  induction later generalizing s with
  | nil => simp
  | cons c later ih =>
      obtain ⟨mid, hstep, hrest⟩ := Runs.exec_cons_eq_some.1 hrun
      obtain ⟨hadmits, rfl⟩ := clocked_eq_some hstep
      refine List.forall_mem_cons.2 ⟨fun since length hexcused => ?_,
        ih (hs.step hadmits) (Nat.le_trans hmark (hs.sound.mark_le_after hadmits)) hrest⟩
      rw [hexcused] at hadmits
      exact Nat.le_trans hmark hadmits.2.1

/-- The clock does not go back. -/
theorem now_le_of_run {s s' : LockTracker × Ledger} {later : List TimedCall}
    (hrun : Runs.exec clocked s later = some s') : s.2.now ≤ s'.2.now := by
  refine Runs.exec_invariant (I := fun mid : LockTracker × Ledger => s.2.now ≤ mid.2.now) ?_ hrun
    (Nat.le_refl _)
  intro mid c next hmid hstep
  obtain ⟨hadmits, rfl⟩ := clocked_eq_some hstep
  have hnow : mid.2.now ≤ (mid.2.after c.nowMs.toNat c.event).now := by
    cases c with
    | creditBlindTime => exact hadmits.1
    | onAdvertisement | onCommandStarted | onCommandAcknowledged | onCommandFailed | pollAvailability
    | onUnavailable => exact hadmits
  exact Nat.le_trans hmid hnow

theorem pollAvailability_of_expired {t : LockTracker} {nowMs : UInt64} {offlineAfter : Duration}
    (h : t.expired nowMs offlineAfter = true) :
    (t.pollAvailability nowMs offlineAfter).1 = t.onUnavailable.1 := by
  rw [pollAvailability, if_pos h]

/-- What a poll finds and does once the watchdog is overdue. -/
theorem poll_of_overdueSince {t : LockTracker} {l : Ledger} (h : InStep t l) {moment : Nat}
    {offlineAfter : Duration} (hfits : offlineAfter.asMillis ≤ U64_MAX)
    (hoverdue : l.OverdueSince moment offlineAfter.asMillis) {nowMs : UInt64} (hnow : l.now ≤ nowMs.toNat)
    (hmoment : moment ≤ nowMs.toNat) :
    l.Overdue nowMs.toNat offlineAfter.asMillis ∧ t.expired nowMs offlineAfter = true ∧
      (t.pollAvailability nowMs offlineAfter).1.available = false ∧
      (t.pollAvailability nowMs offlineAfter).1.pending = none := by
  have hnowOverdue := hoverdue.overdue h.sound hnow hmoment
  have hexpired := (expired_iff h nowMs hfits).2 hnowOverdue
  obtain ⟨havailable, hpending, -⟩ := t.onUnavailable_spec
  rw [pollAvailability_of_expired hexpired]
  exact ⟨hnowOverdue, hexpired, havailable, hpending⟩

/-- **Expiry counts the silence that was not blind.** Over every run of a new tracker in which the
    clock does not go back and no time is credited that an advertisement, an acknowledgement, a poll or
    an earlier credit has counted: the tracker never saw the lock in the future; a poll expires exactly
    if the lock was never heard or was silent for the timeout, not counting credited time; expiry ends
    availability and any command in progress and keeps the bolt position; and after a poll that expires
    every later one with that timeout does, until the lock is heard again. Even if nothing polls when a
    poll would expire, a later one does, unless time from before is credited meanwhile. -/
theorem expires_iff_silent {calls : List TimedCall} {t : LockTracker} {l : Ledger}
    (hrun : Runs.exec clocked (LockTracker.new, Ledger.start) calls = some (t, l)) :
    (∀ seen, t.lastSeenMs = some seen → seen.toNat ≤ l.now) ∧
    ∀ (nowMs : UInt64) (offlineAfter : Duration), l.now ≤ nowMs.toNat →
      offlineAfter.asMillis ≤ U64_MAX →
      let polled := (t.pollAvailability nowMs offlineAfter).1
      (t.expired nowMs offlineAfter = true ↔ l.Overdue nowMs.toNat offlineAfter.asMillis) ∧
      (¬l.Overdue nowMs.toNat offlineAfter.asMillis → polled = t) ∧
      (l.Overdue nowMs.toNat offlineAfter.asMillis →
        polled.available = false ∧ polled.pending = none ∧ polled.isLocked = t.isLocked ∧
        (∀ (later : List TimedCall) (t' : LockTracker) (l' : Ledger),
          Runs.exec clocked (polled, l.after nowMs.toNat .polled) later = some (t', l') →
          (∀ c ∈ later, c.event ≠ .heard) →
          ∀ nowMs' : UInt64, l'.now ≤ nowMs'.toNat →
            let repolled := (t'.pollAvailability nowMs' offlineAfter).1
            l'.Overdue nowMs'.toNat offlineAfter.asMillis ∧
              t'.expired nowMs' offlineAfter = true ∧
              repolled.available = false ∧ repolled.pending = none) ∧
        ∀ (later : List TimedCall) (t' : LockTracker) (l' : Ledger),
          Runs.exec clocked (t, l) later = some (t', l') →
          (∀ c ∈ later, c.event ≠ .heard) →
          (∀ c ∈ later, ∀ since length, c.event = .excused since length → nowMs.toNat ≤ since) →
          ∀ nowMs' : UInt64, l'.now ≤ nowMs'.toNat → nowMs.toNat ≤ nowMs'.toNat →
            let latePolled := (t'.pollAvailability nowMs' offlineAfter).1
            l'.Overdue nowMs'.toNat offlineAfter.asMillis ∧
              t'.expired nowMs' offlineAfter = true ∧
              latePolled.available = false ∧ latePolled.pending = none) := by
  have hinstep := inStep_run hrun
  refine ⟨fun seen hseen => ?_, fun nowMs offlineAfter hnow hfits => ?_⟩
  · have hsum := hinstep.seen
    rw [hseen] at hsum
    obtain ⟨heard, hheard, hsum⟩ := Option.map_eq_some_iff.1 hsum.symm
    have hexcused := hinstep.sound.excused_le heard hheard
    have hmark := hinstep.sound.mark_le
    omega
  · intro polled
    have hiff := expired_iff hinstep nowMs hfits
    refine ⟨hiff, fun h => ?_, fun h => ?_⟩
    · show (t.pollAvailability nowMs offlineAfter).1 = t
      rw [pollAvailability, if_neg (mt hiff.1 h)]
    · have hpolled : polled = t.onUnavailable.1 := pollAvailability_of_expired (hiff.2 h)
      obtain ⟨havailable, hpending, hlocked⟩ := t.onUnavailable_spec
      rw [← hpolled] at havailable hpending hlocked
      have hsince := h.since hinstep.sound hnow
      refine ⟨havailable, hpending, hlocked, fun later t' l' hlater hquiet nowMs' hnow' => ?_,
        fun later t' l' hlater hquiet hcredits nowMs' hnow' hmoment => ?_⟩
      · have hadmits : l.Admits nowMs.toNat .polled := hnow
        have hstep : InStep polled (l.after nowMs.toNat .polled) :=
          hinstep.step (c := .pollAvailability nowMs offlineAfter) hadmits
        have hmark : nowMs.toNat ≤ (l.after nowMs.toNat .polled).mark := Nat.le_refl _
        have hcredits := credited_since_mark hstep hmark hlater
        obtain ⟨hinstep', hsince'⟩ := overdue_kept hstep
          (hsince.after hinstep.sound hadmits (by simp) (by simp)) hquiet hcredits hlater
        exact poll_of_overdueSince hinstep' hfits hsince' hnow' (Nat.le_trans (now_le_of_run hlater) hnow')
      · obtain ⟨hinstep', hsince'⟩ := overdue_kept hinstep hsince hquiet hcredits hlater
        exact poll_of_overdueSince hinstep' hfits hsince' hnow' hmoment

/-- Heard at one second; a command fails that took from ten to thirty. With a timeout of a minute the
    command is released at 81 seconds, not before. -/
theorem expires_iff_silent_slow_command :
    ∃ t l, Runs.exec clocked (LockTracker.new, Ledger.start)
        [.onAdvertisement 1000 .unrecognized, .pollAvailability 5000 (.fromSecs 60),
          .onCommandStarted 10000 .lock, .creditBlindTime 30000 10000 (.fromSecs 20),
          .onCommandFailed 30000] = some (t, l) ∧
      (t.pollAvailability 80999 (.fromSecs 60)).1 = t ∧ t.pending = some .lock ∧
      (t.pollAvailability 81000 (.fromSecs 60)).1.pending = none := by
  let t : LockTracker :=
    { knowledge := .inProgress none .lock, battery := none, version := none, available := true
      lastSeenMs := some 21000 }
  let l : Ledger := { now := 30000, mark := 30000, heard := some 1000, excused := 20000 }
  have hrun : Runs.exec clocked (LockTracker.new, Ledger.start)
      [.onAdvertisement 1000 .unrecognized, .pollAvailability 5000 (.fromSecs 60),
        .onCommandStarted 10000 .lock, .creditBlindTime 30000 10000 (.fromSecs 20),
        .onCommandFailed 30000] = some (t, l) := by
    decide +kernel
  obtain ⟨-, hexpiry⟩ := expires_iff_silent hrun
  obtain ⟨-, hearly, -⟩ := hexpiry 80999 (.fromSecs 60) (by decide) (by decide)
  obtain ⟨-, -, hlate⟩ := hexpiry 81000 (.fromSecs 60) (by decide) (by decide)
  exact ⟨t, l, hrun, hearly (by simp [Ledger.Overdue, l, Duration.fromSecs, Duration.asMillis]), rfl,
    (hlate (.inr ⟨1000, rfl, by decide⟩)).2.1⟩

/-- Nobody polls while a command takes from ten to seventy seconds, and the lock was heard at zero.
    At 65 seconds a poll with a timeout of a minute would expire; at seventy, when the command's time
    is credited, it does not any more, and the command stays in progress. -/
theorem credit_ends_overdue :
    ∃ t l t' l', Runs.exec clocked (LockTracker.new, Ledger.start)
        [.onAdvertisement 0 .unrecognized, .onCommandStarted 10000 .lock] = some (t, l) ∧
      l.now ≤ 65000 ∧ l.Overdue 65000 60000 ∧ t.expired 65000 (.fromSecs 60) = true ∧
      Runs.exec clocked (t, l) [.creditBlindTime 70000 10000 (.fromSecs 60)] = some (t', l') ∧
      ¬l'.Overdue 70000 60000 ∧ t'.expired 70000 (.fromSecs 60) = false ∧
      (t'.pollAvailability 70000 (.fromSecs 60)).1.pending = some .lock := by
  let t : LockTracker :=
    { knowledge := .inProgress none .lock, battery := none, version := none, available := true
      lastSeenMs := some 0 }
  let l : Ledger := { now := 10000, mark := 0, heard := some 0, excused := 0 }
  let t' : LockTracker := { t with lastSeenMs := some 60000 }
  let l' : Ledger := { now := 70000, mark := 70000, heard := some 0, excused := 60000 }
  refine ⟨t, l, t', l', by decide +kernel, by decide, .inr ⟨0, rfl, by decide⟩, by decide +kernel,
    by decide +kernel, ?_, by decide +kernel, by decide +kernel⟩
  simp [Ledger.Overdue, l']

end LockTracker

end TTLock
