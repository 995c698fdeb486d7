import TTLock.Cli.Worker
import TTLock.Core.Proofs.Tracker

set_option autoImplicit false

/-! # What a step of the worker does

Three inversion lemmas, one for each way the worker moves: its own events, the messages it receives and
the publications the client takes. Handlers begin with nothing left to publish, and owe what their
tracker calls changed. -/

namespace TTLock

@[simp] theorem Activity.outstanding_publish (ps : List Publication) (resume : Resume) :
    (Activity.publish ps resume).outstanding = ps := by
  cases ps with
  | nil => cases resume <;> rfl
  | cons p ps => rfl

/-- The event only moves the worker from one loop to another. -/
def WorkerEvent.Moves : WorkerEvent → Prop
  | .scanStarted | .scanFailed | .eventsEnded | .retryElapsed => True
  | .advertisement .. | .offlineTick _ | .actuated .. => False

/-- An event either moves a waiting worker between its loops, or calls a handler in the loop it waits
    in, or ends an actuation. -/
theorem BleWorker.step_eq {offlineAfter : Duration} {w w' : BleWorker} {event : WorkerEvent}
    (h : w.step offlineAfter event = some w') :
    (w.activity = .waiting ∧ event.Moves ∧ ∃ mode, w' = { w with mode }) ∨
    (∃ nowMs ad, event = .advertisement nowMs ad ∧ w.activity = .waiting ∧ w' = w.onEvent nowMs ad) ∨
    (∃ nowMs, event = .offlineTick nowMs ∧ w.activity = .waiting ∧
      w' = w.checkOffline offlineAfter nowMs) ∨
    ∃ action succeeded blind nowMs, event = .actuated succeeded blind nowMs ∧
      w.activity = .actuating action ∧ w' = w.finishCommand action succeeded blind nowMs := by
  rcases w with ⟨tracker, mode, activity⟩
  cases event with
  | scanStarted | scanFailed | eventsEnded | retryElapsed =>
      cases activity <;> cases mode <;> cases h
      exact .inl ⟨rfl, trivial, _, rfl⟩
  | advertisement nowMs ad =>
      cases activity <;> cases mode <;> cases h
      exact .inr (.inl ⟨nowMs, ad, rfl, rfl, rfl⟩)
  | offlineTick nowMs =>
      cases activity <;> cases mode <;> cases h <;> exact .inr (.inr (.inl ⟨nowMs, rfl, rfl, rfl⟩))
  | actuated succeeded blind nowMs =>
      cases activity with
      | waiting => cases mode <;> cases h
      | publishing next rest resume => cases mode <;> cases h
      | actuating action =>
          cases h
          exact .inr (.inr (.inr ⟨action, succeeded, blind, nowMs, rfl, rfl, rfl⟩))

/-- An event finds nothing left to publish, makes its tracker calls and then owes what they changed
    since the last of them that could change anything. -/
theorem BleWorker.step_cases {offlineAfter : Duration} {w w' : BleWorker} {event : WorkerEvent}
    (h : w.step offlineAfter event = some w') :
    w.activity.outstanding = [] ∧
    ((event.calls offlineAfter w.activity = [] ∧ w'.tracker = w.tracker ∧
        w'.activity.outstanding = []) ∨
      ∃ credit call, event.calls offlineAfter w.activity = credit ++ [call] ∧
        (credit = [] ∨ ∃ blind, credit = [.creditBlindTime blind]) ∧
        w'.tracker = (w.tracker.run credit).apply call ∧
        w'.activity.outstanding = publications w'.tracker
          (LockTracker.diff (w.tracker.run credit).snapshot w'.tracker.snapshot)) := by
  have hpoll := (LockTracker.changed_eq_diff w.tracker).2.2.2.2
  rcases step_eq h with ⟨hwaiting, hmoves, mode, rfl⟩ | ⟨nowMs, ad, rfl, hwaiting, rfl⟩ |
    ⟨nowMs, rfl, hwaiting, rfl⟩ | ⟨action, succeeded, blind, nowMs, rfl, hactuating, rfl⟩
  · have hcalls : event.calls offlineAfter w.activity = [] := by
      cases event <;> first | rfl | exact absurd hmoves id
    have houtstanding : w.activity.outstanding = [] := by rw [hwaiting]; rfl
    exact ⟨houtstanding, .inl ⟨hcalls, rfl, houtstanding⟩⟩
  · rw [hwaiting]
    exact ⟨rfl, .inr ⟨[], .onAdvertisement nowMs ad, rfl, .inl rfl, rfl,
      Activity.outstanding_publish ..⟩⟩
  · rw [hwaiting]
    refine ⟨rfl, .inr ⟨[], .pollAvailability nowMs offlineAfter, rfl, .inl rfl, rfl, ?_⟩⟩
    exact (Activity.outstanding_publish ..).trans (congrArg (publications _) (hpoll ..))
  · rw [hactuating]
    refine ⟨rfl, .inr ⟨[.creditBlindTime blind], _, rfl, .inr ⟨blind, rfl⟩, ?_⟩⟩
    cases succeeded <;> exact ⟨rfl, Activity.outstanding_publish ..⟩

/-- A message finds nothing left to publish either. -/
theorem BleWorker.receive_cases {w w' : BleWorker} {message : WorkerMessage}
    (h : w.receive message = some w') :
    w.activity.outstanding = [] ∧
    ((∃ action, message.calls = [.onCommandStarted action] ∧ message ≠ .republish ∧
        w'.tracker = w.tracker.apply (.onCommandStarted action) ∧
        w'.activity.outstanding = publications w'.tracker
          (LockTracker.diff w.tracker.snapshot w'.tracker.snapshot)) ∨
      (message = .republish ∧ w'.tracker = w.tracker ∧
        w'.activity.outstanding = publications w.tracker Changed.ALL)) := by
  rcases w with ⟨tracker, mode, activity⟩
  cases message with
  | command c =>
      cases activity <;> cases mode <;> cases h <;>
        exact ⟨rfl, .inl ⟨c.toActuation, rfl, by simp, rfl, Activity.outstanding_publish ..⟩⟩
  | republish =>
      cases activity <;> cases mode <;> cases h <;>
        exact ⟨rfl, .inr ⟨rfl, rfl,
          Activity.outstanding_publish (publications tracker Changed.ALL) .wait⟩⟩

theorem BleWorker.published_cases {w w' : BleWorker} {p : Publication}
    (h : w.published = some (p, w')) :
    w.activity.outstanding = p :: w'.activity.outstanding ∧ w'.tracker = w.tracker := by
  rcases w with ⟨tracker, mode, activity⟩
  cases activity with
  | waiting => cases h
  | actuating action => cases h
  | publishing next rest resume =>
      cases h
      exact ⟨by rw [Activity.outstanding_publish]; rfl, rfl⟩

end TTLock
