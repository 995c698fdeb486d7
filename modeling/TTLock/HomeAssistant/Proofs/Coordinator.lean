import TTLock.Core.Proofs.Tracker
import TTLock.HomeAssistant.Coordinator

set_option autoImplicit false

/-! # When overlapping commands do not settle each other

The tracker has one slot for a command in flight. Starting a command fills it, a failure leaves it
alone, and an advertisement that empties it tells the outcome of every command at once. An
acknowledgement empties it too, but tells only about its own command. -/

namespace TTLock

namespace Coordinator

/-- What an acknowledgement has to find: of every other unfinished command, the bolt has been heard
    since that was started. -/
def SettlesOnlyItself (self : Coordinator) : CoordinatorEvent → Prop
  | .acknowledged _ _ => ∀ command ∈ self.unfinished.tail, command.heardSince = true
  | .started _ | .failed _ | .advertisement _ _ => True

theorem inProgress_iff (s : Coordinator) : s.InProgress ↔ s.tracker.knowledge.pending ≠ none := by
  unfold InProgress
  rw [LockTracker.reportedState]
  rcases s.tracker.knowledge with _ | bolt | ⟨last, action⟩
  · simp [Knowledge.pending]
  · cases bolt <;> simp [Knowledge.pending]
  · cases action <;> simp [Knowledge.pending]

/-- The slot after each tracker call. -/
theorem pending_apply (t : LockTracker) (call : TrackerCall) :
    (t.apply call).knowledge.pending = match t.mark call with
      | .started action => some action
      | .evidence _ | .loss => none
      | .silent => t.knowledge.pending := by
  rw [LockTracker.apply_knowledge]
  exact Knowledge.pending_after t.knowledge (t.mark call)

/-- **One event.** It keeps unknown outcomes reported iff it is no acknowledgement that settles
    another command's. -/
theorem reportsUnknownOutcomes_iff (s : Coordinator) (e : CoordinatorEvent) (s' : Coordinator)
    (h : s.ReportsUnknownOutcomes) (hstep : s.step e = some s') :
    s'.ReportsUnknownOutcomes ↔ s.SettlesOnlyItself e := by
  obtain ⟨hunfinished, hlast⟩ := h
  simp only [inProgress_iff] at hunfinished hlast
  simp only [ReportsUnknownOutcomes, inProgress_iff]
  cases e with
  | started action =>
      obtain rfl := Option.some.inj hstep
      have hslot : (s.tracker.onCommandStarted action).1.knowledge.pending = some action :=
        pending_apply s.tracker (.onCommandStarted action)
      refine iff_of_true ⟨fun _ _ _ => ?_, fun _ _ _ _ => ?_⟩ trivial <;> rw [hslot] <;> simp
  | acknowledged blind nowMs =>
      simp only [step] at hstep
      split at hstep
      · cases hstep
      · next command unfinished hqueue =>
          obtain rfl := Option.some.inj hstep
          have hslot : ((s.tracker.creditBlindTime blind).onCommandAcknowledged nowMs
              command.action).1.knowledge.pending = none :=
            pending_apply (s.tracker.creditBlindTime blind)
              (.onCommandAcknowledged nowMs command.action)
          simp only [hslot, SettlesOnlyItself, hqueue, List.tail_cons]
          constructor
          · rintro ⟨hothers, -⟩ other hmem
            by_contra hno
            exact hothers other hmem (Bool.not_eq_true _ ▸ hno) rfl
          · intro hothers
            refine ⟨fun other hmem hno => ?_, fun last hl hfailed => ?_⟩
            · rw [hothers other hmem] at hno
              cases hno
            · cases hl
              cases hfailed
  | failed blind =>
      simp only [step] at hstep
      split at hstep
      · cases hstep
      · next command unfinished hqueue =>
          obtain rfl := Option.some.inj hstep
          have hslot : (s.tracker.creditBlindTime blind).onCommandFailed.1.knowledge.pending
              = s.tracker.knowledge.pending := pending_apply s.tracker (.creditBlindTime blind)
          simp only [hslot]
          rw [hqueue] at hunfinished
          refine iff_of_true ⟨fun other hmem hno => ?_, fun last hl _ hno => ?_⟩ trivial
          · exact hunfinished other (List.mem_cons_of_mem _ hmem) hno
          · -- the one that just failed was unfinished until now
            cases hl
            exact hunfinished command List.mem_cons_self hno
  | advertisement nowMs ad =>
      obtain rfl := Option.some.inj hstep
      have hslot := pending_apply s.tracker (.onAdvertisement nowMs ad)
      refine iff_of_true ?_ trivial
      cases hstatus : ad.status with
      | some status =>
          -- now the bolt has been heard since all of them
          refine ⟨fun other hmem hno => ?_, fun last hl _ hno => ?_⟩
          · obtain ⟨c, -, rfl⟩ := List.mem_map.1 hmem
            simp at hno
          · obtain ⟨f, -, rfl⟩ := Option.map_eq_some_iff.1 hl
            simp at hno
      | none =>
          simp only [LockTracker.mark, hstatus] at hslot
          simp only [LockTracker.apply] at hslot
          simp only [hslot, Option.isSome_none, Bool.or_false]
          refine ⟨fun other hmem hno => ?_, fun last hl hfailed hno => ?_⟩
          · obtain ⟨c, hc, rfl⟩ := List.mem_map.1 hmem
            exact hunfinished c hc hno
          · obtain ⟨f, hf, rfl⟩ := Option.map_eq_some_iff.1 hl
            exact hlast f hf hfailed hno

/-- **Overlapping commands.** From any coordinator with nothing in flight and over any events: unknown
    outcomes are reported as in progress throughout iff every acknowledgement finds that the bolt has
    been heard since every other unfinished command was started. -/
theorem unknown_outcomes_reported_iff (tracker : LockTracker) (events : List CoordinatorEvent)
    (last : Coordinator) (hrun : Runs.exec step (idle tracker) events = some last) :
    Runs.Always step ReportsUnknownOutcomes (idle tracker) events ↔
      Runs.Guarded step SettlesOnlyItself (idle tracker) events :=
  Runs.always_iff_guarded reportsUnknownOutcomes_iff hrun
    ⟨fun _ h => absurd h List.not_mem_nil, fun _ h => by cases h⟩

/-- Somebody locks, somebody else unlocks while the first connection is being made, and the lock
    command is acknowledged. -/
def lockThenUnlock : List CoordinatorEvent :=
  [.started .lock, .started .unlock, .acknowledged (.fromSecs 3) 3000]

/-- `LOCKED` is reported while the unlock command is in flight. -/
theorem acknowledgement_settles_other_command :
    ∃ s, Runs.exec step (idle .new) lockThenUnlock = some s ∧
      s.unfinished = [⟨.unlock, false⟩] ∧ s.tracker.reportedState = some .locked ∧
      ¬s.ReportsUnknownOutcomes := by
  refine ⟨_, rfl, rfl, rfl, ?_⟩
  rintro ⟨hunfinished, -⟩
  have hprogress := hunfinished ⟨.unlock, false⟩ List.mem_cons_self rfl
  rcases hprogress with h | h <;> cases h

theorem single_command_reported :
    Runs.Always step ReportsUnknownOutcomes (idle .new)
      [.started .lock, .failed (.fromSecs 3), .started .lock,
        .acknowledged (.fromSecs 3) 9000] := by
  refine (unknown_outcomes_reported_iff .new _ _ rfl).2 ?_
  refine ⟨trivial, fun s hs => ?_⟩
  cases hs
  refine ⟨trivial, fun s hs => ?_⟩
  cases hs
  refine ⟨trivial, fun s hs => ?_⟩
  cases hs
  exact ⟨fun c hc => absurd hc List.not_mem_nil, fun s hs => trivial⟩

end Coordinator

end TTLock
