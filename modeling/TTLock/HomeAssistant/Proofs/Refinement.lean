import TTLock.HomeAssistant.Proofs.Command

set_option autoImplicit false

/-! # The calls of a coordinator, seen from its tracker

`Coordinator` knows of a command only that it was started and how it ended, and takes it that the one that
was started first ends first. That is so (`coordinator_refines`): what happens to the tracker while calls
overlap is what happens to it there. -/

namespace TTLock

/-- The action a call asks for. -/
def CallRequest.action? : CallRequest → Option Actuation
  | .actuate action => some action
  | .status => none

namespace CoordinatorRun

variable {τ : Type} {setup : Setup τ} {run run' : CoordinatorRun τ} {k : Nat}

/-- The actions of the calls that have not ended. -/
def pending (run : CoordinatorRun τ) (k : Nat) : List Actuation :=
  ((run.calls.map Call.request).drop k).filterMap CallRequest.action?

/-- A lock or unlock command is given, or something comes of one; or the lock is heard. -/
def Commands : CallEvent τ → Prop
  | .called .status | .unavailable => False
  | .called (.actuate _) | .granted | .resumed .. | .advertisement .. => True

/-- What a `Coordinator` is told of an event. -/
def seen (setup : Setup τ) (run : CoordinatorRun τ) : CallEvent τ → Option CoordinatorEvent
  | .called (.actuate action) => some (.started action)
  | .called .status | .granted | .unavailable => none
  | .resumed number wakeup blind nowMs => match run.calls[number]? with
      | some { request, phase := .working work } =>
          match work.resume setup request run.tracker.lockVersion wakeup run.link with
          | some (.ends (.ok _), _) => some (.acknowledged blind nowMs)
          | some (.ends (.error _), _) => some (.failed blind)
          | some (.goesOn _, _) | none => none
      | _ => none
  | .advertisement nowMs advertisement => some (.advertisement nowMs advertisement)

/-- A coordinator with the same tracker, and the same commands to end. -/
structure Mirrors (run : CoordinatorRun τ) (k : Nat) (c : Coordinator) : Prop where
  ordered : Ordered run k
  actuates : ∀ call ∈ run.calls, ∃ action, call.request = .actuate action
  tracker : c.tracker = run.tracker
  unfinished : c.unfinished.map Issued.action = run.pending k

theorem Mirrors.start (tracker : LockTracker) (link : τ) :
    Mirrors (.idle tracker link) 0 (.idle tracker) where
  ordered := .idle tracker link
  actuates _ h := absurd h List.not_mem_nil
  tracker := rfl
  unfinished := rfl

theorem actuates_setPhase {number : Nat} {phase : Phase} {calls : List Call}
    (h : ∀ call ∈ calls, ∃ action, call.request = .actuate action) :
    ∀ call ∈ setPhase number phase calls, ∃ action, call.request = .actuate action := by
  intro call hcall
  obtain ⟨i, hi⟩ := List.mem_iff_getElem?.1 hcall
  rw [getElem?_setPhase] at hi
  obtain ⟨call', hi', rfl⟩ := Option.map_eq_some_iff.1 hi
  obtain ⟨action, haction⟩ := h call' (List.mem_of_getElem? hi')
  refine ⟨action, ?_⟩
  split <;> exact haction

/-- The call that ends was the first of the unfinished ones. -/
theorem Mirrors.front {c : Coordinator} (h : Mirrors run k c) {request : CallRequest} {work : Work}
    (hk : run.calls[k]? = some ⟨request, .working work⟩) :
    ∃ action heardSince rest, request = .actuate action ∧
      c.unfinished = ⟨action, heardSince⟩ :: rest ∧ rest.map Issued.action = run.pending (k + 1) := by
  obtain ⟨action, rfl⟩ := h.actuates _ (List.mem_of_getElem? hk)
  have hlt : k < (run.calls.map Call.request).length := by
    rw [List.length_map]
    exact (List.getElem?_eq_some_iff.1 hk).1
  have hget : (run.calls.map Call.request)[k] = .actuate action := by
    refine Option.some.inj ?_
    rw [← List.getElem?_eq_getElem hlt, List.getElem?_map, hk]
    rfl
  have hunfinished := h.unfinished
  rw [pending, List.drop_eq_getElem_cons hlt, hget] at hunfinished
  change _ = action :: run.pending (k + 1) at hunfinished
  obtain ⟨⟨_, heardSince⟩, rest, hcons, rfl, hrest⟩ := List.map_eq_cons_iff.1 hunfinished
  exact ⟨_, heardSince, rest, rfl, hcons, hrest⟩

/-- **One event.** The coordinator takes the step it is told of, or none. -/
theorem Mirrors.step {c : Coordinator} (h : Mirrors run k c) {e : CallEvent τ} (he : Commands e)
    (hstep : CoordinatorRun.step setup run e = some run') :
    ∃ k' c', Runs.exec Coordinator.step c (seen setup run e).toList = some c' ∧ Mirrors run' k' c' := by
  obtain ⟨k', hprogress, hordered⟩ := h.ordered.step hstep
  cases hprogress with
  | called request =>
      cases request with
      | status => cases he
      | actuate action =>
          refine ⟨k, _, rfl, hordered, fun call hcall => ?_, ?_, ?_⟩
          · rcases List.mem_append.1 hcall with hcall | hcall
            · exact h.actuates call hcall
            · obtain rfl := List.mem_singleton.1 hcall
              exact ⟨action, rfl⟩
          · exact congrArg (fun t => (LockTracker.onCommandStarted t action).1) h.tracker
          · have hdrop : k ≤ (run.calls.map Call.request).length := by
              rw [List.length_map]
              exact h.ordered.le
            simp only [List.map_append, List.map_cons, List.map_nil, h.unfinished, pending,
              List.drop_append_of_le_length hdrop, List.filterMap_append]
            rfl
  | granted request connectLock hk =>
      exact ⟨k, c, rfl, hordered, actuates_setPhase h.actuates, h.tracker, by
        simp only [pending, map_request_setPhase, h.unfinished]⟩
  | goesOn request work work' wakeup link blind nowMs hk hresume =>
      have hseen : seen setup run (.resumed k wakeup blind nowMs) = none := by
        simp only [seen, hk, hresume]
      rw [hseen]
      exact ⟨k, c, rfl, hordered, actuates_setPhase h.actuates, h.tracker, by
        simp only [pending, map_request_setPhase, h.unfinished]⟩
  | ends request work result wakeup link blind nowMs hk hresume =>
      obtain ⟨action, heardSince, rest, rfl, hunfinished, hrest⟩ := h.front hk
      cases result with
      | ok output =>
          have hseen : seen setup run (.resumed k wakeup blind nowMs) = some (.acknowledged blind nowMs) := by
            simp only [seen, hk, hresume]
          have hc : c.step (.acknowledged blind nowMs) = some
              { tracker := ((c.tracker.creditBlindTime blind).onCommandAcknowledged nowMs action).1
                unfinished := rest, lastFinished := some ⟨false, heardSince⟩ } := by
            simp only [Coordinator.step, hunfinished]
          rw [hseen]
          refine ⟨k + 1, _, (Runs.exec_singleton ..).trans hc, hordered,
            actuates_setPhase h.actuates, ?_, ?_⟩
          · simp only [h.tracker, finished]
          · simp only [pending, map_request_setPhase, hrest]
      | error err =>
          have hseen : seen setup run (.resumed k wakeup blind nowMs) = some (.failed blind) := by
            simp only [seen, hk, hresume]
          have hc : c.step (.failed blind) = some
              { tracker := (c.tracker.creditBlindTime blind).onCommandFailed.1
                unfinished := rest, lastFinished := some ⟨true, heardSince⟩ } := by
            simp only [Coordinator.step, hunfinished]
          rw [hseen]
          refine ⟨k + 1, _, (Runs.exec_singleton ..).trans hc, hordered,
            actuates_setPhase h.actuates, ?_, ?_⟩
          · simp only [h.tracker, finished]
          · simp only [pending, map_request_setPhase, hrest]
  | advertisement nowMs advertisement =>
      refine ⟨k, _, rfl, hordered, h.actuates, ?_, ?_⟩
      · exact congrArg (fun t => (LockTracker.onAdvertisement t nowMs advertisement).1) h.tracker
      · simp only [List.map_map]
        exact h.unfinished
  | unavailable => cases he

/-- **A coordinator with overlapping calls is a `Coordinator`.** For any run of calls that lock or unlock,
    however they overlap, there is one that is told what happened, whose tracker is the same and whose
    unfinished commands are those of the calls that have not ended. -/
theorem coordinator_refines (setup : Setup τ) (tracker : LockTracker) (link : τ)
    (events : List (CallEvent τ)) (run : CoordinatorRun τ)
    (hrun : Runs.exec (CoordinatorRun.step setup) (.idle tracker link) events = some run)
    (hcommands : ∀ e ∈ events, Commands e) :
    ∃ (k : Nat) (told : List CoordinatorEvent) (c : Coordinator),
      Runs.exec Coordinator.step (.idle tracker) told = some c ∧ Mirrors run k c := by
  refine Runs.exec_guarded
    (I := fun run => ∃ k told c, Runs.exec Coordinator.step (.idle tracker) told = some c ∧
      Mirrors run k c)
    ?_ (Runs.guarded_of_forall hcommands _) hrun ⟨0, [], .idle tracker, rfl, .start tracker link⟩
  rintro run e run' ⟨k, told, c, htold, hmirrors⟩ he hstep
  obtain ⟨k', c', hc', hmirrors'⟩ := hmirrors.step he hstep
  refine ⟨k', told ++ (seen setup run e).toList, c', ?_, hmirrors'⟩
  rw [Runs.exec_append, htold]
  exact hc'

/-- A lock command that fails while an unlock command waits. -/
theorem coordinator_refines_unlock_during_lock :
    let setup : Setup ScriptedLink :=
      { cipher := aes128Cbc, aesKey := sampleKey, unlockKey := ⟨5, by decide⟩, connectAttempts := 2
        packageDir := "/ttlock_ble", exception := fun _ => ⟨true, false, []⟩
        client := ScriptedLink.transport .transient 0 }
    ∃ run, Runs.exec (CoordinatorRun.step setup) (.idle .new ⟨[], []⟩) unlockDuringLock = some run ∧
      ∃ (k : Nat) (told : List CoordinatorEvent) (c : Coordinator),
        Runs.exec Coordinator.step (.idle .new) told = some c ∧ Mirrors run k c := by
  intro setup
  obtain ⟨run, hrun⟩ : ∃ run, Runs.exec (CoordinatorRun.step setup) (.idle .new ⟨[], []⟩)
      unlockDuringLock = some run := ⟨_, rfl⟩
  refine ⟨run, hrun, coordinator_refines setup .new ⟨[], []⟩ unlockDuringLock run hrun ?_⟩
  simp [unlockDuringLock, Commands]

end CoordinatorRun

end TTLock
