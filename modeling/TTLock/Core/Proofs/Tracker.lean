import TTLock.Core.Tracker
import TTLock.Lib.Mealy

set_option autoImplicit false

/-! # What the tracker believes, from what it was told

Seven methods overwrite one `Knowledge`, but only three things about a call matter to it: whether it
is evidence of a bolt position, whether it starts a command, and whether it loses the lock. `Mark` is
that abstraction, `Knowledge.after` what each mark does, and `apply_knowledge` says that the tracker
refines it. From there the belief after a whole run is read off the marks of its calls: the last
evidence, and the last mark that is not silent. -/

namespace TTLock

/-! ## Marks -/

inductive Mark where
  /-- The bolt was observed, or a command that moves it was acknowledged. -/
  | evidence (bolt : Bolt)
  | started (action : Actuation)
  /-- The lock can no longer be heard. -/
  | loss
  | silent
deriving DecidableEq, Repr

/-- Where a command leaves the bolt. -/
def Actuation.target : Actuation → Bolt
  | .lock => .locked
  | .unlock => .unlocked

/-- The battery level a call brings. -/
def TrackerCall.battery? : TrackerCall → Option Percent
  | .onAdvertisement _ ad => ad.status.bind (·.battery)
  | .onCommandStarted _ | .onCommandAcknowledged _ _ | .onCommandFailed | .creditBlindTime _
  | .pollAvailability _ _ | .onUnavailable => none

def Mark.bolt? : Mark → Option Bolt
  | .evidence bolt => some bolt
  | .started _ | .loss | .silent => none

/-- What a mark does to the belief: only evidence replaces what was observed. -/
def Knowledge.after (k : Knowledge) : Mark → Knowledge
  | .evidence bolt => .observed bolt
  | .started action => .inProgress k.observed? action
  | .loss => match k.observed? with
      | some bolt => .observed bolt
      | none => .unknown
  | .silent => k

@[simp] theorem Knowledge.observed?_after (k : Knowledge) (m : Mark) :
    (k.after m).observed? = m.bolt?.or k.observed? := by
  cases m with
  | evidence bolt => rfl
  | started action => rfl
  | loss => rcases k with _ | bolt | ⟨_ | bolt, action⟩ <;> rfl
  | silent => rfl

theorem Knowledge.pending_after (k : Knowledge) (m : Mark) :
    (k.after m).pending = match m with
      | .started action => some action
      | .evidence _ | .loss => none
      | .silent => k.pending := by
  cases m with
  | evidence bolt => rfl
  | started action => rfl
  | loss => rcases k with _ | bolt | ⟨_ | bolt, action⟩ <;> rfl
  | silent => rfl

/-! ## One call -/

namespace LockTracker

/-- What one call is, to a tracker in this state: only here does it matter whether a poll finds the
    lock expired. -/
def mark (self : LockTracker) : TrackerCall → Mark
  | .onAdvertisement _ advertisement => match advertisement.status with
      | some status => .evidence status.bolt
      | none => .silent
  | .onCommandStarted action => .started action
  | .onCommandAcknowledged _ action => .evidence action.target
  | .onCommandFailed | .creditBlindTime _ => .silent
  | .pollAvailability nowMs offlineAfter => if self.expired nowMs offlineAfter then .loss else .silent
  | .onUnavailable => .loss

theorem onAdvertisement_knowledge (t : LockTracker) (nowMs : UInt64) (ad : Advertisement) :
    (t.onAdvertisement nowMs ad).1.knowledge
      = t.knowledge.after (t.mark (.onAdvertisement nowMs ad)) := by
  simp only [onAdvertisement, mark]
  cases ad.status with
  | none => cases ad.lockVersion <;> rfl
  | some status =>
      rcases status with ⟨bolt, battery, _, _⟩
      cases battery <;> cases ad.lockVersion <;> rfl

theorem onUnavailable_knowledge (t : LockTracker) :
    t.onUnavailable.1.knowledge = t.knowledge.after .loss := by
  unfold onUnavailable Knowledge.after
  dsimp only
  cases t.knowledge.observed? <;> rfl

/-- **The tracker refines the belief.** A call changes the knowledge by its mark and no more. -/
theorem apply_knowledge (t : LockTracker) (call : TrackerCall) :
    (t.apply call).knowledge = t.knowledge.after (t.mark call) := by
  cases call with
  | onAdvertisement nowMs ad => exact onAdvertisement_knowledge t nowMs ad
  | onCommandStarted action => rfl
  | onCommandAcknowledged nowMs action => cases action <;> rfl
  | onCommandFailed => rfl
  | creditBlindTime blind =>
      simp only [apply, creditBlindTime, mark, Knowledge.after]
      cases t.lastSeenMs <;> rfl
  | pollAvailability nowMs offlineAfter =>
      simp only [apply, pollAvailability, mark]
      split
      · exact onUnavailable_knowledge t
      · rfl
  | onUnavailable => exact onUnavailable_knowledge t

/-- What was observed last, after one more call. -/
theorem observed?_apply (t : LockTracker) (call : TrackerCall) :
    (t.apply call).knowledge.observed? = (t.mark call).bolt?.or t.knowledge.observed? := by
  rw [apply_knowledge, Knowledge.observed?_after]

/-! ## Runs -/

/-- The marks of the calls of a run, each taken in the state its call is made in. -/
def marks (self : LockTracker) (calls : List TrackerCall) : List Mark :=
  Mealy.outputs (fun t call => (t.mark call, t.apply call)) self calls

@[simp] theorem marks_nil (t : LockTracker) : t.marks [] = [] := rfl

@[simp] theorem marks_cons (t : LockTracker) (call : TrackerCall) (calls : List TrackerCall) :
    t.marks (call :: calls) = t.mark call :: (t.apply call).marks calls := rfl

@[simp] theorem run_cons (t : LockTracker) (call : TrackerCall) (calls : List TrackerCall) :
    t.run (call :: calls) = (t.apply call).run calls := rfl

theorem run_append (t : LockTracker) (calls calls' : List TrackerCall) :
    t.run (calls ++ calls') = (t.run calls).run calls' := List.foldl_append ..

theorem run_snoc (t : LockTracker) (calls : List TrackerCall) (call : TrackerCall) :
    t.run (calls ++ [call]) = (t.run calls).apply call := run_append ..

theorem marks_append (t : LockTracker) (calls calls' : List TrackerCall) :
    t.marks (calls ++ calls') = t.marks calls ++ (t.run calls).marks calls' := by
  induction calls generalizing t with
  | nil => rfl
  | cons call calls ih => rw [List.cons_append, marks_cons, ih, marks_cons, run_cons, List.cons_append]

/-- The belief after a run is the belief before it, changed by the marks in order. -/
theorem run_knowledge (t : LockTracker) (calls : List TrackerCall) :
    (t.run calls).knowledge = (t.marks calls).foldl Knowledge.after t.knowledge := by
  induction calls generalizing t with
  | nil => rfl
  | cons call calls ih => rw [run_cons, marks_cons, List.foldl_cons, ih, apply_knowledge]

end LockTracker

/-! ## Reading the belief off a list of marks -/

/-- The bolt of the last evidence. -/
def lastEvidence (ms : List Mark) : Option Bolt := (ms.filterMap Mark.bolt?).getLast?

/-- The last mark that is not silent. -/
def lastHeard (ms : List Mark) : Option Mark := (ms.filter (· ≠ .silent)).getLast?

theorem getLast?_cons_or {α : Type*} (a : α) (as : List α) :
    (a :: as).getLast? = as.getLast?.or (some a) := by
  rw [List.getLast?_cons]
  cases as.getLast? <;> rfl

theorem lastEvidence_cons (m : Mark) (ms : List Mark) :
    lastEvidence (m :: ms) = (lastEvidence ms).or m.bolt? := by
  unfold lastEvidence
  rw [List.filterMap_cons]
  cases m.bolt? with
  | none => rw [Option.or_none]
  | some bolt => exact getLast?_cons_or bolt _

theorem lastHeard_cons (m : Mark) (ms : List Mark) :
    lastHeard (m :: ms) = (lastHeard ms).or (if m = .silent then none else some m) := by
  unfold lastHeard
  rw [List.filter_cons]
  by_cases h : m = .silent
  · rw [if_neg (by simp [h]), if_pos h, Option.or_none]
  · rw [if_pos (by simp [h]), if_neg h, getLast?_cons_or]

theorem lastEvidence_eq_none {ms : List Mark} :
    lastEvidence ms = none ↔ ∀ bolt, Mark.evidence bolt ∉ ms := by
  simp only [lastEvidence, List.getLast?_eq_none_iff, List.filterMap_eq_nil_iff]
  constructor
  · intro h bolt hm
    exact absurd (h _ hm) (by simp [Mark.bolt?])
  · intro h m hm
    cases m with
    | evidence bolt => exact absurd hm (h bolt)
    | started action => rfl
    | loss => rfl
    | silent => rfl

theorem Knowledge.observed?_foldl (k : Knowledge) (ms : List Mark) :
    (ms.foldl Knowledge.after k).observed? = (lastEvidence ms).or k.observed? := by
  induction ms generalizing k with
  | nil => rfl
  | cons m ms ih => rw [List.foldl_cons, ih, lastEvidence_cons, observed?_after, Option.or_assoc]

theorem Knowledge.pending_foldl (k : Knowledge) (ms : List Mark) :
    (ms.foldl Knowledge.after k).pending = match lastHeard ms with
      | some (.started action) => some action
      | some _ => none
      | none => k.pending := by
  induction ms generalizing k with
  | nil => rfl
  | cons m ms ih =>
      rw [List.foldl_cons, ih, lastHeard_cons]
      cases lastHeard ms with
      | some m' => rw [Option.some_or]; cases m' <;> rfl
      | none =>
          -- nothing was heard after `m`, so `m` itself decides
          rw [pending_after, Option.none_or]
          cases m <;> rfl

theorem mem_of_lastHeard {ms : List Mark} {m : Mark} (h : lastHeard ms = some m) : m ∈ ms :=
  List.mem_of_mem_filter (List.mem_of_getLast? h)

namespace LockTracker

/-- A run changes what was observed to its last evidence, if it has any. -/
theorem run_observed? (t : LockTracker) (calls : List TrackerCall) :
    (t.run calls).knowledge.observed?
      = (lastEvidence (t.marks calls)).or t.knowledge.observed? := by
  rw [run_knowledge, Knowledge.observed?_foldl]

theorem reportedState_eq (t : LockTracker) :
    t.reportedState = match t.pending, t.isLocked with
      | some .lock, _ => some .locking
      | some .unlock, _ => some .unlocking
      | none, some true => some .locked
      | none, some false => some .unlocked
      | none, none => none := by
  unfold reportedState pending isLocked
  rcases t.knowledge with _ | bolt | ⟨last, action⟩
  · rfl
  · cases bolt <;> rfl
  · cases action <;> rfl

/-- A command is in flight iff starting it was the last thing heard. -/
theorem pending_eq_some_iff (calls : List TrackerCall) (action : Actuation) :
    (LockTracker.new.run calls).pending = some action ↔
      lastHeard (LockTracker.new.marks calls) = some (.started action) := by
  rw [pending, run_knowledge, Knowledge.pending_foldl]
  rcases lastHeard (LockTracker.new.marks calls) with _ | m
  · simp [LockTracker.new, Knowledge.pending]
  · cases m <;> simp

/-- Nothing is reported iff nothing is in flight and nothing was observed. -/
theorem reportedState_eq_none_iff (t : LockTracker) :
    t.reportedState = none ↔ t.pending = none ∧ t.knowledge.observed? = none := by
  unfold reportedState pending
  rcases t.knowledge with _ | bolt | ⟨last, action⟩
  · simp [Knowledge.pending, Knowledge.observed?]
  · cases bolt <;> simp [Knowledge.observed?]
  · cases action <;> simp [Knowledge.pending]

/-- **Only evidence is reported.** Over any run of a new tracker: the bolt position is that of the
    last evidence and nobody's guess; a command is in flight exactly if starting it was the last
    thing heard; the reported state follows from these two. Calls that are no evidence never move the
    position, and before the first evidence no lock state is ever reported. -/
theorem reports_only_evidence (calls : List TrackerCall) :
    let t := LockTracker.new.run calls
    let ms := LockTracker.new.marks calls
    (t.isLocked = none ↔ ∀ bolt, Mark.evidence bolt ∉ ms) ∧
    t.isLocked = (lastEvidence ms).map Bolt.isLocked ∧
    (∀ action, t.pending = some action ↔ lastHeard ms = some (.started action)) ∧
    (t.reportedState = match t.pending, t.isLocked with
      | some .lock, _ => some .locking
      | some .unlock, _ => some .unlocking
      | none, some true => some .locked
      | none, some false => some .unlocked
      | none, none => none) ∧
    (∀ later, (∀ bolt, Mark.evidence bolt ∉ t.marks later) →
      (t.run later).isLocked = t.isLocked) ∧
    ((∀ bolt, Mark.evidence bolt ∉ ms) →
      t.reportedState ≠ some .locked ∧ t.reportedState ≠ some .unlocked) := by
  intro t ms
  have hlocked : t.isLocked = (lastEvidence ms).map Bolt.isLocked := by
    have hobs : t.knowledge.observed? = (lastEvidence ms).or none :=
      run_observed? LockTracker.new calls
    rw [isLocked, hobs, Option.or_none]
  have hnone : t.isLocked = none ↔ ∀ bolt, Mark.evidence bolt ∉ ms := by
    rw [hlocked, Option.map_eq_none_iff, lastEvidence_eq_none]
  refine ⟨hnone, hlocked, pending_eq_some_iff calls, reportedState_eq t, ?_, ?_⟩
  · intro later hno
    rw [isLocked, isLocked, run_observed?, lastEvidence_eq_none.2 hno, Option.none_or]
  · intro hno
    rw [reportedState_eq, hnone.2 hno]
    rcases t.pending with _ | _ | _ <;> simp

/-! ## What a call changes -/

/-- The changes a call returns are the difference it makes to what can be published. -/
theorem changed_eq_diff (t : LockTracker) :
    (∀ nowMs ad, (t.onAdvertisement nowMs ad).2
      = diff t.snapshot (t.apply (.onAdvertisement nowMs ad)).snapshot) ∧
    (∀ action, (t.onCommandStarted action).2
      = diff t.snapshot (t.apply (.onCommandStarted action)).snapshot) ∧
    (∀ nowMs action, (t.onCommandAcknowledged nowMs action).2
      = diff t.snapshot (t.apply (.onCommandAcknowledged nowMs action)).snapshot) ∧
    t.onCommandFailed.2 = diff t.snapshot (t.apply .onCommandFailed).snapshot ∧
    ∀ nowMs offlineAfter, (t.pollAvailability nowMs offlineAfter).2
      = diff t.snapshot (t.apply (.pollAvailability nowMs offlineAfter)).snapshot := by
  refine ⟨fun _ _ => rfl, fun _ => rfl, fun _ _ => rfl, rfl, fun nowMs offlineAfter => ?_⟩
  rw [apply]
  unfold pollAvailability
  split
  · rfl
  · simp [diff, Changed.default]

/-- Blind time is nothing anybody could publish. -/
theorem snapshot_creditBlindTime (t : LockTracker) (blind : Duration) :
    (t.creditBlindTime blind).snapshot = t.snapshot := by
  unfold creditBlindTime
  cases t.lastSeenMs <;> rfl

theorem apply_battery (t : LockTracker) (call : TrackerCall) :
    (t.apply call).battery = call.battery?.or t.battery := by
  cases call with
  | onAdvertisement nowMs ad =>
      simp only [apply, onAdvertisement, TrackerCall.battery?]
      cases ad.status with
      | none => cases ad.lockVersion <;> rfl
      | some status =>
          rcases status with ⟨bolt, battery, _, _⟩
          cases battery <;> cases ad.lockVersion <;> rfl
  | onCommandStarted action => rfl
  | onCommandAcknowledged nowMs action => rfl
  | onCommandFailed => rfl
  | creditBlindTime blind =>
      simp only [apply, creditBlindTime]
      cases t.lastSeenMs <;> rfl
  | pollAvailability nowMs offlineAfter =>
      simp only [apply, pollAvailability, onUnavailable]
      split
      · cases t.knowledge.observed? <;> rfl
      · rfl
  | onUnavailable =>
      simp only [apply, onUnavailable]
      cases t.knowledge.observed? <;> rfl

/-- The battery is unknown iff no call brought it. -/
theorem run_battery_eq_none (calls : List TrackerCall) :
    (LockTracker.new.run calls).battery = none ↔
      ∀ call ∈ calls, call.battery? = none := by
  have hrun : ∀ t : LockTracker, (t.run calls).battery = none ↔
      t.battery = none ∧ ∀ call ∈ calls, call.battery? = none := by
    induction calls with
    | nil => simp [run]
    | cons call calls ih =>
        intro t
        rw [run_cons, ih, apply_battery, Option.or_eq_none_iff, List.forall_mem_cons]
        tauto
  rw [hrun]
  simp [LockTracker.new]

end LockTracker

end TTLock
