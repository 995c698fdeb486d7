import TTLock.Cli.Broker
import TTLock.Cli.Proofs.Worker

set_option autoImplicit false

/-! # When the broker's retained values are the tracker's

`publish` sends what has changed and can be said; `none` cannot be said. So the retained values follow
the tracker through every change to something, and stay behind when it goes back to nothing. `Follows`
is the invariant that says this exactly: what is retained while the tracker has something to say is
that, and what is retained while it has nothing is nothing only if there never was anything. -/

namespace TTLock

/-! ## Publishing a difference -/

def Retained.publishAll (self : Retained) (ps : List Publication) : Retained :=
  ps.foldl Retained.publish self

theorem Retained.publishAll_append (r : Retained) (ps qs : List Publication) :
    r.publishAll (ps ++ qs) = (r.publishAll ps).publishAll qs := List.foldl_append ..

/-- The topics do not meddle with each other. -/
theorem Retained.publishAll_congr (r r' : Retained) (hs : r.state = r'.state)
    (hb : r.battery = r'.battery) (ps : List Publication) :
    (r.publishAll ps).state = (r'.publishAll ps).state ∧
      (r.publishAll ps).battery = (r'.publishAll ps).battery := by
  induction ps generalizing r r' with
  | nil => exact ⟨hs, hb⟩
  | cons p ps ih =>
      rcases p with ⟨topic, payload⟩
      cases topic with
      | availability => exact ih _ _ hs hb
      | state => exact ih _ _ rfl hb
      | battery => exact ih _ _ hs rfl

/-- The Last-Will says nothing about state or battery. -/
theorem Retained.publishAll_availability (r : Retained) (payload : String) (ps : List Publication) :
    ((r.publish ⟨.availability, payload⟩).publishAll ps).state = (r.publishAll ps).state ∧
      ((r.publish ⟨.availability, payload⟩).publishAll ps).battery = (r.publishAll ps).battery :=
  publishAll_congr (r.publish ⟨.availability, payload⟩) r rfl rfl ps

/-- Each part of a publish reaches its own topic, if there is something to say. -/
theorem Retained.publishAll_publications (r : Retained) (t : LockTracker) (changed : Changed) :
    r.publishAll (publications t changed) =
      { availability := if changed.available then
          some (if t.available then PAYLOAD_AVAILABLE else PAYLOAD_NOT_AVAILABLE) else r.availability
        state := if changed.state then (t.reportedState.map ReportedState.payload).or r.state
          else r.state
        battery := if changed.battery then (t.batteryLevel.map fun b => toString b.toNat).or r.battery
          else r.battery } := by
  unfold publications
  rw [publishAll_append, publishAll_append]
  rcases changed with ⟨state, available, battery⟩
  cases available <;> cases state <;> cases battery <;> cases t.reportedState <;>
    cases t.batteryLevel <;> rfl

/-! ## What the retained values say -/

/-- The retained values after the tracker calls `calls`, from `before` on. -/
structure Follows (before r : Retained) (calls : List TrackerCall) : Prop where
  state : ∀ s, (LockTracker.new.run calls).reportedState = some s → r.state = some s.payload
  no_state : (LockTracker.new.run calls).reportedState = none →
    (r.state = none ↔ before.state = none ∧
      ∀ action, Mark.started action ∉ LockTracker.new.marks calls)
  battery : ∀ b, (LockTracker.new.run calls).batteryLevel = some b → r.battery = some (toString b.toNat)
  no_battery : (LockTracker.new.run calls).batteryLevel = none → r.battery = before.battery

theorem Follows.nil (before : Retained) : Follows before before [] where
  state s h := by cases h
  no_state _ := by simp
  battery b h := by cases h
  no_battery _ := rfl

/-- Availability is another matter. -/
theorem Follows.congr {before r r' : Retained} {calls : List TrackerCall}
    (h : Follows before r calls) (hs : r.state = r'.state) (hb : r.battery = r'.battery) :
    Follows before r' calls where
  state s := hs ▸ h.state s
  no_state := hs ▸ h.no_state
  battery b := hb ▸ h.battery b
  no_battery := hb ▸ h.no_battery

/-- Something in flight was started. -/
theorem started_mem_of_pending {calls : List TrackerCall} {action : Actuation}
    (h : (LockTracker.new.run calls).pending = some action) :
    Mark.started action ∈ LockTracker.new.marks calls :=
  mem_of_lastHeard ((LockTracker.pending_eq_some_iff calls action).1 h)

/-- Going back to nothing means having started something. -/
theorem started_mem_of_forgotten {calls : List TrackerCall} {call : TrackerCall} {s : ReportedState}
    (hs : (LockTracker.new.run calls).reportedState = some s)
    (hnone : ((LockTracker.new.run calls).apply call).reportedState = none) :
    ∃ action, Mark.started action ∈ LockTracker.new.marks calls := by
  have hobs := (LockTracker.reportedState_eq_none_iff _).1 hnone
  rw [LockTracker.apply_knowledge, Knowledge.observed?_after, Option.or_eq_none_iff] at hobs
  cases hp : (LockTracker.new.run calls).pending with
  | some action => exact ⟨action, started_mem_of_pending hp⟩
  | none =>
      rw [(LockTracker.reportedState_eq_none_iff _).2 ⟨hp, hobs.2.2⟩] at hs
      cases hs

/-- A call that leaves nothing to report started nothing. -/
theorem mark_ne_started {t : LockTracker} {call : TrackerCall}
    (h : (t.apply call).reportedState = none) (action : Actuation) :
    t.mark call ≠ .started action := by
  intro hm
  have hp := ((LockTracker.reportedState_eq_none_iff _).1 h).1
  rw [LockTracker.pending, LockTracker.apply_knowledge, hm] at hp
  cases hp

/-- **One tracker call, and publishing what it changed.** -/
theorem Follows.call {before r : Retained} {calls : List TrackerCall} (h : Follows before r calls)
    (call : TrackerCall) :
    let t := LockTracker.new.run calls
    let t' := t.apply call
    Follows before (r.publishAll (publications t' (LockTracker.diff t.snapshot t'.snapshot)))
      (calls ++ [call]) := by
  intro t t'
  have hrun : LockTracker.new.run (calls ++ [call]) = t' := LockTracker.run_snoc ..
  have hmarks : LockTracker.new.marks (calls ++ [call]) = LockTracker.new.marks calls ++ [t.mark call] :=
    LockTracker.marks_append ..
  rw [Retained.publishAll_publications]
  constructor
  · intro s hs
    rw [hrun] at hs
    simp only [LockTracker.diff, LockTracker.snapshot, hs, Option.map_some, Option.some_or]
    by_cases hsame : t.reportedState = some s
    · rw [hsame, bne_self_eq_false, if_neg Bool.false_ne_true]
      exact h.state s hsame
    · rw [if_pos (bne_iff_ne.2 hsame)]
  · intro hnone
    rw [hrun] at hnone
    simp only [hnone, Option.map_none, Option.none_or, ite_self, hmarks, List.mem_append,
      List.mem_singleton, not_or]
    have hno : ∀ action, ¬Mark.started action = t.mark call := fun action heq =>
      mark_ne_started hnone action heq.symm
    cases hs : t.reportedState with
    | none => simpa [hno] using h.no_state hs
    | some s =>
        obtain ⟨action, hmem⟩ := started_mem_of_forgotten hs hnone
        rw [h.state s hs]
        simp only [reduceCtorEq, false_iff, not_and, not_forall]
        exact fun _ => ⟨action, fun hn => absurd hmem hn⟩
  · intro b hb
    rw [hrun] at hb
    simp only [LockTracker.diff, LockTracker.snapshot, hb, Option.map_some, Option.some_or]
    by_cases hsame : t.battery = t'.battery
    · rw [hsame, bne_self_eq_false, if_neg Bool.false_ne_true]
      refine h.battery b ?_
      rw [← hb]
      exact congrArg (Option.map Percent.get) hsame
    · rw [if_pos (bne_iff_ne.2 hsame)]
  · intro hnone
    rw [hrun] at hnone
    simp only [hnone, Option.map_none, Option.none_or, ite_self]
    refine h.no_battery ?_
    have hlast : t'.battery = none := Option.map_eq_none_iff.1 hnone
    rw [LockTracker.apply_battery, Option.or_eq_none_iff] at hlast
    exact Option.map_eq_none_iff.2 hlast.2

/-- Publishing everything again changes nothing that was right. -/
theorem Follows.republish {before r : Retained} {calls : List TrackerCall}
    (h : Follows before r calls) :
    Follows before (r.publishAll (publications (LockTracker.new.run calls) Changed.ALL)) calls := by
  rw [Retained.publishAll_publications]
  constructor
  · intro s hs
    simp only [Changed.ALL, hs, if_true, Option.map_some, Option.some_or]
  · intro hnone
    simpa only [Changed.ALL, hnone, if_true, Option.map_none, Option.none_or] using h.no_state hnone
  · intro b hb
    simp only [Changed.ALL, hb, if_true, Option.map_some, Option.some_or]
  · intro hnone
    simpa only [Changed.ALL, hnone, if_true, Option.map_none, Option.none_or] using h.no_battery hnone

/-- Blind time is not published, and changes nothing that is. -/
theorem Follows.credit {before r : Retained} {calls : List TrackerCall} (h : Follows before r calls)
    (blind : Duration) : Follows before r (calls ++ [.creditBlindTime blind]) := by
  have hsame := h.call (.creditBlindTime blind)
  dsimp only [LockTracker.apply] at hsame
  rw [LockTracker.snapshot_creditBlindTime] at hsame
  have hnothing : ∀ t : LockTracker, publications t (LockTracker.diff
      (LockTracker.new.run calls).snapshot (LockTracker.new.run calls).snapshot) = [] := by
    intro t
    simp [LockTracker.diff, publications]
  rwa [hnothing] at hsame

/-- The retained availability is the tracker's. -/
def SaysAvailable (r : Retained) (t : LockTracker) : Prop :=
  r.availability = some PAYLOAD_AVAILABLE ↔ t.available = true

theorem saysAvailable_payload (t : LockTracker) :
    some (if t.available then PAYLOAD_AVAILABLE else PAYLOAD_NOT_AVAILABLE) = some PAYLOAD_AVAILABLE ↔
      t.available = true := by
  cases t.available <;> decide

theorem SaysAvailable.diff {r : Retained} {t : LockTracker} (h : SaysAvailable r t)
    (t' : LockTracker) :
    SaysAvailable (r.publishAll (publications t' (LockTracker.diff t.snapshot t'.snapshot))) t' := by
  unfold SaysAvailable at h ⊢
  rw [Retained.publishAll_publications]
  by_cases hsame : t.available = t'.available
  · simpa [LockTracker.diff, LockTracker.snapshot, hsame] using h
  · simp only [LockTracker.diff, LockTracker.snapshot, bne_iff_ne.2 hsame, if_true]
    exact saysAvailable_payload t'

theorem SaysAvailable.all (r : Retained) (t : LockTracker) :
    SaysAvailable (r.publishAll (publications t Changed.ALL)) t := by
  unfold SaysAvailable
  rw [Retained.publishAll_publications]
  exact saysAvailable_payload t

/-! ## Runs -/

namespace Bridge

/-- The retained values once the current handler has published everything. -/
def retainedAfter (b : Bridge) : Retained := b.retained.publishAll b.worker.activity.outstanding

structure Inv (before : Retained) (b : Bridge) : Prop where
  tracker : b.worker.tracker = LockTracker.new.run b.calls
  follows : Follows before b.retainedAfter b.calls
  available : b.served = true → .republish ∉ b.messages →
    SaysAvailable b.retainedAfter b.worker.tracker

theorem Inv.init (retained : Retained) : Inv retained (Bridge.init retained) where
  tracker := rfl
  follows := Follows.nil retained
  available h := by cases h

theorem retainedAfter_eq {b : Bridge} (h : b.worker.activity.outstanding = []) :
    b.retainedAfter = b.retained := by
  rw [retainedAfter, h]
  rfl

/-- An event of the worker: its handler owes what its tracker call changed. -/
theorem Inv.worker {before : Retained} {offlineAfter : Duration} {b b' : Bridge} {event : WorkerEvent}
    (h : Inv before b) (hstep : b.step offlineAfter (.worker event) = some b') : Inv before b' := by
  obtain ⟨htracker, hfollows, havail⟩ := h
  obtain ⟨w', hw, rfl⟩ := Option.map_eq_some_iff.1 hstep
  obtain ⟨hnone, ⟨hcalls, ht, hout⟩ | ⟨credit, call, hcalls, hcredit, ht, hout⟩⟩ :=
    BleWorker.step_cases hw
  · rw [retainedAfter_eq hnone] at hfollows havail
    constructor
    · rw [hcalls, List.append_nil, ht, htracker]
    · rw [hcalls, List.append_nil, retainedAfter_eq hout]
      exact hfollows
    · rw [retainedAfter_eq hout, ht]
      exact havail
  · rw [retainedAfter_eq hnone] at hfollows havail
    have hcredited : Follows before b.retained (b.calls ++ credit) := by
      rcases hcredit with rfl | ⟨blind, rfl⟩
      · rwa [List.append_nil]
      · exact hfollows.credit blind
    have hsnapshot : (b.worker.tracker.run credit).snapshot = b.worker.tracker.snapshot := by
      rcases hcredit with rfl | ⟨blind, rfl⟩
      · rfl
      · exact LockTracker.snapshot_creditBlindTime ..
    have hrun : b.worker.tracker.run credit = LockTracker.new.run (b.calls ++ credit) := by
      rw [LockTracker.run_append, htracker]
    rw [hcalls, ← List.append_assoc]
    constructor
    · rw [ht, hrun, LockTracker.run_snoc]
    · rw [retainedAfter, hout, ht, hrun]
      exact hcredited.call call
    · intro hserved hqueue
      rw [retainedAfter, hout, hsnapshot]
      exact (havail hserved hqueue).diff _

/-- A message is received: a command owes what it changed, a birth message owes everything. -/
theorem Inv.receive {before : Retained} {offlineAfter : Duration} {b b' : Bridge}
    (h : Inv before b) (hstep : b.step offlineAfter .receive = some b') : Inv before b' := by
  obtain ⟨htracker, hfollows, havail⟩ := h
  simp only [Bridge.step] at hstep
  split at hstep
  · cases hstep
  · next message messages hmessages =>
      obtain ⟨w', hw, rfl⟩ := Option.map_eq_some_iff.1 hstep
      obtain ⟨hnone, ⟨a, hcalls, hne, ht, hout⟩ | ⟨rfl, ht, hout⟩⟩ := BleWorker.receive_cases hw
      · rw [retainedAfter_eq hnone] at hfollows havail
        constructor
        · rw [hcalls, ht, htracker, LockTracker.run_snoc]
        · rw [hcalls, retainedAfter, hout, ht, htracker]
          exact hfollows.call _
        · intro hserved hqueue
          rw [retainedAfter, hout]
          refine SaysAvailable.diff (havail ?_ ?_) _
          · simpa [hne] using hserved
          · rw [hmessages]
            exact fun hm => (List.mem_cons.1 hm).elim (fun heq => hne heq.symm) hqueue
      · rw [retainedAfter_eq hnone] at hfollows
        constructor
        · rw [ht, htracker]
          exact (List.append_nil b.calls).symm ▸ rfl
        · rw [retainedAfter, hout, htracker]
          exact (List.append_nil b.calls).symm ▸ hfollows.republish
        · intro _ _
          rw [retainedAfter, hout, ht]
          exact SaysAvailable.all _ _

/-- A publish moves what is owed to the retained values. -/
theorem Inv.publish {before : Retained} {offlineAfter : Duration} {b b' : Bridge}
    (h : Inv before b) (hstep : b.step offlineAfter .publish = some b') : Inv before b' := by
  obtain ⟨htracker, hfollows, havail⟩ := h
  obtain ⟨⟨p, w'⟩, hw, rfl⟩ := Option.map_eq_some_iff.1 hstep
  obtain ⟨hout, ht⟩ := BleWorker.published_cases hw
  have hsame : (b.retained.publish p).publishAll w'.activity.outstanding = b.retainedAfter := by
    rw [retainedAfter, hout]
    rfl
  refine ⟨ht.trans htracker, ?_, ?_⟩
  · rw [retainedAfter, hsame]
    exact hfollows
  · rw [retainedAfter, hsame, ht]
    exact havail

/-- A command is only put in the queue. -/
theorem Inv.command {before : Retained} {offlineAfter : Duration} {b b' : Bridge} {c : Command}
    (h : Inv before b) (hstep : b.step offlineAfter (.command c) = some b') : Inv before b' := by
  obtain ⟨htracker, hfollows, havail⟩ := h
  obtain rfl := Option.some.inj hstep
  refine ⟨htracker, hfollows, fun hserved hqueue => havail hserved fun hm => hqueue ?_⟩
  exact List.mem_append_left _ hm

/-- A last will says nothing of state and battery, and availability is owed again. -/
theorem Inv.reconnect {before : Retained} {offlineAfter : Duration} {b b' : Bridge} {lastWill : Bool}
    (h : Inv before b) (hstep : b.step offlineAfter (.reconnect lastWill) = some b') : Inv before b' := by
  obtain ⟨htracker, hfollows, havail⟩ := h
  obtain rfl := Option.some.inj hstep
  refine ⟨htracker, ?_, fun _ hqueue => absurd ?_ hqueue⟩
  · cases lastWill with
    | false => exact hfollows
    | true =>
        obtain ⟨hs, hb⟩ := b.retained.publishAll_availability PAYLOAD_NOT_AVAILABLE
          b.worker.activity.outstanding
        exact hfollows.congr hs.symm hb.symm
  · exact List.mem_append_right _ (List.mem_singleton.2 rfl)

/-- **One step.** Nothing but a publish changes the retained values of state and battery, and each
    handler owes exactly what its tracker calls changed. -/
theorem Inv.step {before : Retained} {offlineAfter : Duration} (b : Bridge) (action : BridgeAction)
    (b' : Bridge) (h : Inv before b) (hstep : b.step offlineAfter action = some b') :
    Inv before b' := by
  cases action with
  | worker event => exact h.worker hstep
  | receive => exact h.receive hstep
  | publish => exact h.publish hstep
  | command c => exact h.command hstep
  | reconnect lastWill => exact h.reconnect hstep

/-- When the retained values can be the tracker's, after the calls of a run that began in front of
    `before`: something is reported (the bolt was observed, or a command is in flight), or there never
    was anything to report; and likewise for the battery. -/
def NothingToTakeBack (before : Retained) (calls : List TrackerCall) : Prop :=
  let ms := LockTracker.new.marks calls
  ((∃ bolt, Mark.evidence bolt ∈ ms) ∨ (∃ action, lastHeard ms = some (.started action)) ∨
    (before.state = none ∧ ∀ action, Mark.started action ∉ ms)) ∧
  ((∃ call ∈ calls, call.battery? ≠ none) ∨ before.battery = none)

/-- Something is reported iff there was evidence or a command is in flight. -/
theorem reportedState_eq_none_iff_marks (calls : List TrackerCall) :
    (LockTracker.new.run calls).reportedState = none ↔
      ¬((∃ bolt, Mark.evidence bolt ∈ LockTracker.new.marks calls) ∨
        ∃ action, lastHeard (LockTracker.new.marks calls) = some (.started action)) := by
  have hobs : (LockTracker.new.run calls).knowledge.observed? = none ↔
      ∀ bolt, Mark.evidence bolt ∉ LockTracker.new.marks calls := by
    rw [LockTracker.run_observed?, Option.or_eq_none_iff, lastEvidence_eq_none]
    exact and_iff_left rfl
  have hpending : (LockTracker.new.run calls).pending = none ↔
      ¬∃ action, lastHeard (LockTracker.new.marks calls) = some (.started action) := by
    simp only [← LockTracker.pending_eq_some_iff, Option.eq_none_iff_forall_ne_some, not_exists, ne_eq]
  rw [LockTracker.reportedState_eq_none_iff, hobs, hpending, not_or, not_exists, not_exists, and_comm]

/-- **When the broker mirrors the tracker.** In every run, from any retained values, whenever the
    worker is between handlers with a `Republish` served and none queued: the retained values are the
    tracker's exactly if nothing would have to be taken back. -/
theorem mirrors_iff_nothing_to_take_back (offlineAfter : Duration) (before : Retained)
    (actions : List BridgeAction) (b : Bridge)
    (hrun : Runs.exec (Bridge.step offlineAfter) (Bridge.init before) actions = some b)
    (hsettled : b.Settled) : b.Mirrors ↔ NothingToTakeBack before b.calls := by
  obtain ⟨hwaiting, hserved, hqueue⟩ := hsettled
  obtain ⟨htracker, hfollows, havail⟩ :=
    Runs.exec_invariant (fun b action b' h => Inv.step b action b' h) hrun (Inv.init before)
  have hsettled : b.retainedAfter = b.retained := retainedAfter_eq (by rw [hwaiting]; rfl)
  rw [hsettled] at hfollows havail
  have hstate : b.retained.state = b.worker.tracker.reportedState.map ReportedState.payload ↔
      ((∃ bolt, Mark.evidence bolt ∈ LockTracker.new.marks b.calls) ∨
        (∃ action, lastHeard (LockTracker.new.marks b.calls) = some (.started action)) ∨
        (before.state = none ∧ ∀ action, Mark.started action ∉ LockTracker.new.marks b.calls)) := by
    rw [← or_assoc, htracker]
    cases hs : (LockTracker.new.run b.calls).reportedState with
    | some s =>
        have hsome := (not_congr (reportedState_eq_none_iff_marks b.calls)).1 (by rw [hs]; simp)
        rw [hfollows.state s hs]
        exact iff_of_true rfl (.inl (not_not.1 hsome))
    | none =>
        rw [or_iff_right ((reportedState_eq_none_iff_marks b.calls).1 hs)]
        exact hfollows.no_state hs
  have hbattery : (b.retained.battery = b.worker.tracker.batteryLevel.map fun level =>
      toString level.toNat) ↔ ((∃ call ∈ b.calls, call.battery? ≠ none) ∨ before.battery = none) := by
    have hnone := LockTracker.run_battery_eq_none b.calls
    rw [htracker]
    cases hb : (LockTracker.new.run b.calls).batteryLevel with
    | some level =>
        have hsome : (LockTracker.new.run b.calls).battery ≠ none := by
          intro h
          rw [LockTracker.batteryLevel, h] at hb
          cases hb
        rw [hfollows.battery level hb]
        refine iff_of_true rfl (.inl ?_)
        simpa only [ne_eq, not_forall, exists_prop] using (not_congr hnone).1 hsome
    | none =>
        have hno := hnone.1 (Option.map_eq_none_iff.1 hb)
        rw [hfollows.no_battery hb, or_iff_right (fun ⟨call, hc, hne⟩ => hne (hno call hc))]
        rfl
  exact (and_iff_right (havail hserved hqueue)).trans (and_congr hstate hbattery)

/-- A command in front of an empty broker, which fails; then the lock stays silent. -/
def silentFailure : List BridgeAction :=
  [.reconnect false, .worker .scanStarted, .receive, .publish, .command .lock, .receive, .publish,
    .worker (.actuated false (.fromSecs 5) 5000), .worker .scanStarted,
    .worker (.offlineTick 70000)]

/-- The broker goes on saying `LOCKING` when nothing is in flight or known any more. -/
theorem silent_failure_not_mirrored :
    ∃ b, Runs.exec (Bridge.step (.fromSecs 60)) (Bridge.init ⟨none, none, none⟩) silentFailure
        = some b ∧ b.Settled ∧ b.worker.tracker.reportedState = none ∧
      b.retained.state = some "LOCKING" ∧ ¬b.Mirrors := by
  refine ⟨_, rfl, ⟨rfl, rfl, by decide⟩, rfl, rfl, ?_⟩
  rintro ⟨-, hstate, -⟩
  exact absurd hstate (by decide)

/-- An advertisement, with the retained values of an earlier run still there. -/
def heardAtLast : List BridgeAction :=
  [.reconnect true, .worker .scanStarted, .receive, .publish,
    .worker (.advertisement 1000 (.stateful ⟨none, .default⟩ ⟨.locked, Percent.new 80, false,
      false⟩)), .publish, .publish, .publish]

theorem heard_at_last_mirrored :
    ∃ b, Runs.exec (Bridge.step (.fromSecs 60)) (Bridge.init ⟨some "online", some "LOCKING",
      some "12"⟩) heardAtLast = some b ∧ b.Mirrors := by
  refine ⟨_, rfl, (mirrors_iff_nothing_to_take_back _ _ heardAtLast _ rfl
    ⟨rfl, rfl, List.not_mem_nil⟩).2 ⟨.inl ⟨.locked, ?_⟩, .inl ⟨_, List.mem_singleton.2 rfl, ?_⟩⟩⟩
  · decide
  · decide

end Bridge

end TTLock
