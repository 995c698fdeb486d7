import TTLock.Cli.Proofs.Worker
import TTLock.Cli.RunLoop
import Mathlib.Logic.Relation

set_option autoImplicit false

/-! # Commands reach the lock exactly once and in order

Handlers run one after the other, each to its end: what the worker has done is the record of a list of
handlers and the beginning of one more (`Progress`). From the records of single handlers it can be read
off that a command is started, carried out and settled exactly once, in the order of arrival. -/

namespace TTLock

variable {offlineAfter : Duration}

/-! ## Handlers, each run to its end -/

/-- What a handler was called with, and for a command how it ended. -/
inductive Handled where
  | command (command : Command) (succeeded : Bool) (blind : Duration) (nowMs : UInt64)
  | republish
  | advertisement (nowMs : UInt64) (advertisement : Advertisement)
  | offlineTick (nowMs : UInt64)
deriving DecidableEq

/-- The record of publishing what a tracker mutation changed. -/
def publishing (mutated : LockTracker × Changed) : List Occurrence :=
  (publications mutated.1 mutated.2).map .published

/-- The record of `handle_command` up to the actuation. -/
def opening (tracker : LockTracker) (command : Command) : List Occurrence :=
  [.received (.command command), .called (.onCommandStarted command.toActuation)] ++
    publishing (tracker.onCommandStarted command.toActuation)

/-- What the outcome of a command does to the tracker. -/
def settled (tracker : LockTracker) (action : Actuation) (succeeded : Bool) (blind : Duration)
    (nowMs : UInt64) : LockTracker × Changed :=
  if succeeded then (tracker.creditBlindTime blind).onCommandAcknowledged nowMs action
  else (tracker.creditBlindTime blind).onCommandFailed

namespace Handled

/-- The tracker after the handler. -/
def tracker (offlineAfter : Duration) (t : LockTracker) : Handled → LockTracker
  | command c succeeded blind nowMs =>
      (settled (t.onCommandStarted c.toActuation).1 c.toActuation succeeded blind nowMs).1
  | republish => t
  | advertisement nowMs ad => (t.onAdvertisement nowMs ad).1
  | offlineTick nowMs => (t.pollAvailability nowMs offlineAfter).1

/-- The record of the handler from beginning to end. -/
def record (offlineAfter : Duration) (t : LockTracker) : Handled → List Occurrence
  | command c succeeded blind nowMs =>
      opening t c ++
        [.actuated c.toActuation, .called (.creditBlindTime blind),
          .called (if succeeded then .onCommandAcknowledged nowMs c.toActuation else .onCommandFailed)] ++
        publishing
          (settled (t.onCommandStarted c.toActuation).1 c.toActuation succeeded blind nowMs)
  | republish => .received .republish :: publishing (t, Changed.ALL)
  | advertisement nowMs ad => .called (.onAdvertisement nowMs ad) :: publishing (t.onAdvertisement nowMs ad)
  | offlineTick nowMs =>
      .called (.pollAvailability nowMs offlineAfter) :: publishing (t.pollAvailability nowMs offlineAfter)

end Handled

/-- The tracker after these handlers. -/
def trackerAfter (offlineAfter : Duration) (t : LockTracker) (hs : List Handled) : LockTracker :=
  hs.foldl (Handled.tracker offlineAfter) t

/-- The record of these handlers, one after the other. -/
def history (offlineAfter : Duration) : LockTracker → List Handled → List Occurrence
  | _, [] => []
  | t, h :: hs => h.record offlineAfter t ++ history offlineAfter (h.tracker offlineAfter t) hs

theorem history_snoc (t : LockTracker) (hs : List Handled) (h : Handled) :
    history offlineAfter t (hs ++ [h]) =
      history offlineAfter t hs ++ h.record offlineAfter (trackerAfter offlineAfter t hs) := by
  induction hs generalizing t with
  | nil => simp [history, trackerAfter]
  | cons h' hs ih => simp only [List.cons_append, history, ih, List.append_assoc]; rfl

theorem trackerAfter_snoc (t : LockTracker) (hs : List Handled) (h : Handled) :
    trackerAfter offlineAfter t (hs ++ [h]) =
      h.tracker offlineAfter (trackerAfter offlineAfter t hs) := List.foldl_append ..

/-! ## What the record says about messages -/

def receivedOf (record : List Occurrence) : List WorkerMessage :=
  record.filterMap fun
    | .received message => some message
    | _ => none

def actuationsOf (record : List Occurrence) : List Actuation :=
  record.filterMap fun
    | .actuated action => some action
    | _ => none

/-- The actuations these messages ask for. -/
def commandsOf (messages : List WorkerMessage) : List Actuation :=
  messages.filterMap fun
    | .command command => some command.toActuation
    | .republish => none

@[simp] theorem receivedOf_append (r r' : List Occurrence) :
    receivedOf (r ++ r') = receivedOf r ++ receivedOf r' := List.filterMap_append

@[simp] theorem actuationsOf_append (r r' : List Occurrence) :
    actuationsOf (r ++ r') = actuationsOf r ++ actuationsOf r' := List.filterMap_append

@[simp] theorem commandsOf_append (ms ms' : List WorkerMessage) :
    commandsOf (ms ++ ms') = commandsOf ms ++ commandsOf ms' := List.filterMap_append

@[simp] theorem receivedOf_published (ps : List Publication) :
    receivedOf (ps.map .published) = [] := by
  simp [receivedOf]

@[simp] theorem actuationsOf_published (ps : List Publication) :
    actuationsOf (ps.map .published) = [] := by
  simp [actuationsOf]

@[simp] theorem receivedOf_called (calls : List TrackerCall) :
    receivedOf (calls.map .called) = [] := by
  simp [receivedOf]

@[simp] theorem actuationsOf_called (calls : List TrackerCall) :
    actuationsOf (calls.map .called) = [] := by
  simp [actuationsOf]

/-- A handler carries out what it received. -/
theorem Handled.actuationsOf_record (t : LockTracker) (h : Handled) :
    actuationsOf (h.record offlineAfter t) = commandsOf (receivedOf (h.record offlineAfter t)) := by
  have hpub : ∀ m, receivedOf (publishing m) = [] ∧ actuationsOf (publishing m) = [] := fun m =>
    ⟨receivedOf_published _, actuationsOf_published _⟩
  cases h with
  | command c succeeded blind nowMs =>
      simp only [record, opening, receivedOf_append, actuationsOf_append, (hpub _).1, (hpub _).2]
      rfl
  | republish => exact (hpub _).2.trans (congrArg commandsOf (hpub (t, Changed.ALL)).1).symm
  | advertisement nowMs ad => exact (hpub _).2.trans (congrArg commandsOf (hpub _).1).symm
  | offlineTick nowMs => exact (hpub _).2.trans (congrArg commandsOf (hpub _).1).symm

theorem actuationsOf_history (t : LockTracker) (hs : List Handled) :
    actuationsOf (history offlineAfter t hs) = commandsOf (receivedOf (history offlineAfter t hs)) := by
  induction hs generalizing t with
  | nil => rfl
  | cons h hs ih =>
      simp only [history, actuationsOf_append, receivedOf_append, commandsOf_append, ih,
        h.actuationsOf_record]

namespace RunLoop

/-! ## Receiving -/

/-- What a `recv()` comes to: the first message is handled where the worker waits, or is what the scan
    is stopped for; or the channel is closed. -/
theorem receive_cases {s s' : RunLoop} (hstep : s.receive = some s') :
    s.worker.activity = .waiting ∧
    ((∃ message messages, s.messages = message :: messages ∧
        (s.worker.mode = .scanning ∧ message = .republish ∨ s.worker.mode = .idle) ∧
        s' = { s with
          worker := s.worker.handleMessage message, messages
          record := s.record ++ .received message :: message.calls.map .called }) ∨
      (∃ message messages, s.messages = message :: messages ∧ s.worker.mode = .scanning ∧
        message ≠ .republish ∧
        s' = { s with
          interrupt := some (.message message), messages
          record := s.record ++ [.received message] }) ∨
      (s.worker.mode = .scanning ∧ s' = { s with interrupt := some .channelClosed }) ∨
      s.worker.mode = .idle ∧ s' = { s with exited := true }) := by
  unfold receive at hstep
  split at hstep
  · next messages hwaiting hmode hmessages =>
      obtain rfl := Option.some.inj hstep
      exact ⟨hwaiting, .inl ⟨.republish, messages, hmessages, .inl ⟨hmode, rfl⟩, rfl⟩⟩
  · next message messages hnot hwaiting hmode hmessages =>
      obtain rfl := Option.some.inj hstep
      exact ⟨hwaiting, .inr (.inl ⟨message, messages, hmessages, hmode, hnot, rfl⟩)⟩
  · next hwaiting hmode hmessages =>
      obtain ⟨-, ⟨⟩⟩ := Option.ite_none_right_eq_some.1 hstep
      exact ⟨hwaiting, .inr (.inr (.inl ⟨hmode, rfl⟩))⟩
  · next message messages hwaiting hmode hmessages =>
      obtain rfl := Option.some.inj hstep
      exact ⟨hwaiting, .inl ⟨message, messages, hmessages, .inr hmode, rfl⟩⟩
  · next hwaiting hmode hmessages =>
      obtain ⟨-, ⟨⟩⟩ := Option.ite_none_right_eq_some.1 hstep
      exact ⟨hwaiting, .inr (.inr (.inr ⟨hmode, rfl⟩))⟩
  · cases hstep

/-! ## How far the worker is -/

/-- The record is that of the handlers that have run and a part of the one that is running. -/
inductive Progress (offlineAfter : Duration) (s : RunLoop) : Prop where
  | resting (hs : List Handled) (activity : s.worker.activity = .waiting)
      (interrupt : ∀ message, s.interrupt ≠ some (.message message))
      (record : s.record = history offlineAfter .new hs)
      (tracker : s.worker.tracker = trackerAfter offlineAfter .new hs)
  /-- Of a handler, only these publications are left. -/
  | finishing (hs : List Handled) (h : Handled) (part : List Occurrence) (ps : List Publication)
      (activity : s.worker.activity = .publish ps .wait)
      (interrupt : ∀ message, s.interrupt ≠ some (.message message))
      (record : s.record = history offlineAfter .new hs ++ part)
      (rest : part ++ ps.map .published = h.record offlineAfter (trackerAfter offlineAfter .new hs))
      (tracker : s.worker.tracker = h.tracker offlineAfter (trackerAfter offlineAfter .new hs))
  /-- A command was received, and the scan is being stopped for it. -/
  | handedOff (hs : List Handled) (command : Command)
      (activity : s.worker.activity = .waiting)
      (interrupt : s.interrupt = some (.message (.command command)))
      (record : s.record = history offlineAfter .new hs ++ [.received (.command command)])
      (tracker : s.worker.tracker = trackerAfter offlineAfter .new hs)
  /-- A command was started, and these publications are left before the actuation. -/
  | commanding (hs : List Handled) (command : Command) (part : List Occurrence)
      (ps : List Publication)
      (activity : s.worker.activity = .publish ps (.actuate command.toActuation))
      (interrupt : s.interrupt = none) (mode : s.worker.mode ≠ .scanning)
      (record : s.record = history offlineAfter .new hs ++ part)
      (rest : part ++ ps.map .published = opening (trackerAfter offlineAfter .new hs) command)
      (tracker : s.worker.tracker =
        ((trackerAfter offlineAfter .new hs).onCommandStarted command.toActuation).1)

theorem Progress.new : Progress offlineAfter .new :=
  .resting [] rfl (fun _ h => by cases h) rfl rfl

theorem Activity.publish_eq_waiting {ps : List Publication} {resume : Resume}
    (h : Activity.publish ps resume = .waiting) : ps = [] ∧ resume = .wait := by
  cases ps with
  | nil => cases resume with
    | wait => exact ⟨rfl, rfl⟩
    | actuate action => cases h
  | cons p ps => cases h

theorem Activity.publish_eq_actuating {ps : List Publication} {resume : Resume} {action : Actuation}
    (h : Activity.publish ps resume = .actuating action) : ps = [] ∧ resume = .actuate action := by
  cases ps with
  | nil => cases resume with
    | wait => cases h
    | actuate action' => cases h; exact ⟨rfl, rfl⟩
  | cons p ps => cases h

/-- In a `select!` with no interrupt on its way, everything received so far is done with. -/
theorem Progress.at_rest {s : RunLoop} (h : Progress offlineAfter s)
    (hwaiting : s.worker.activity = .waiting) (hint : s.interrupt = none) :
    ∃ hs, s.record = history offlineAfter .new hs ∧
      s.worker.tracker = trackerAfter offlineAfter .new hs := by
  cases h with
  | resting hs _ _ record tracker => exact ⟨hs, record, tracker⟩
  | finishing hs h part ps activity _ record rest tracker =>
      obtain ⟨rfl, -⟩ := Activity.publish_eq_waiting (activity.symm.trans hwaiting)
      rw [List.map_nil, List.append_nil] at rest
      exact ⟨hs ++ [h], by rw [record, rest, history_snoc], by rw [tracker, trackerAfter_snoc]⟩
  | handedOff hs command _ interrupt => cases interrupt.symm.trans hint
  | commanding hs command part ps activity =>
      obtain ⟨-, hresume⟩ := Activity.publish_eq_waiting (activity.symm.trans hwaiting)
      cases hresume

/-- While an actuation runs, its command has been received and all of its start published. -/
theorem Progress.while_actuating {s : RunLoop} (h : Progress offlineAfter s) {action : Actuation}
    (hactuating : s.worker.activity = .actuating action) :
    s.interrupt = none ∧ s.worker.mode ≠ .scanning ∧
    ∃ (hs : List Handled) (command : Command), action = command.toActuation ∧
      s.record = history offlineAfter .new hs ++ opening (trackerAfter offlineAfter .new hs) command ∧
      s.worker.tracker =
        ((trackerAfter offlineAfter .new hs).onCommandStarted command.toActuation).1 := by
  cases h with
  | resting hs activity => cases activity.symm.trans hactuating
  | finishing hs h part ps activity =>
      obtain ⟨-, hresume⟩ := Activity.publish_eq_actuating (activity.symm.trans hactuating)
      cases hresume
  | handedOff hs command activity => cases activity.symm.trans hactuating
  | commanding hs command part ps activity interrupt mode record rest tracker =>
      obtain ⟨rfl, hresume⟩ := Activity.publish_eq_actuating (activity.symm.trans hactuating)
      rw [List.map_nil, List.append_nil] at rest
      exact ⟨interrupt, mode, hs, command, (Resume.actuate.inj hresume).symm, rest ▸ record, tracker⟩

/-- Starting a handler whose publications are all that is left of it. -/
theorem Progress.start {s : RunLoop} {hs : List Handled}
    (hrecord : s.record = history offlineAfter .new hs)
    (htracker : s.worker.tracker = trackerAfter offlineAfter .new hs) (h : Handled)
    (done : List Occurrence) {s' : RunLoop} {mutated : LockTracker × Changed}
    (hrun : h.record offlineAfter s.worker.tracker = done ++ publishing mutated)
    (hmutated : h.tracker offlineAfter s.worker.tracker = mutated.1)
    (hworker : s'.worker = s.worker.report mutated .wait)
    (hint : ∀ message, s'.interrupt ≠ some (.message message))
    (hrecord' : s'.record = s.record ++ done) : Progress offlineAfter s' := by
  refine .finishing hs h done (publications mutated.1 mutated.2) ?_ hint ?_ ?_ ?_
  · rw [hworker]
    rfl
  · rw [hrecord', hrecord]
  · rw [← htracker, hrun]
    rfl
  · rw [hworker, ← htracker, hmutated]
    rfl

/-! ## One step -/

theorem Progress.congr {s s' : RunLoop} (h : Progress offlineAfter s) (hworker : s'.worker = s.worker)
    (hint : s'.interrupt = s.interrupt) (hrecord : s'.record = s.record) :
    Progress offlineAfter s' := by
  cases h with
  | resting hs activity interrupt record tracker =>
      exact .resting hs (hworker ▸ activity) (hint ▸ interrupt) (hrecord ▸ record) (hworker ▸ tracker)
  | finishing hs h part ps activity interrupt record rest tracker =>
      exact .finishing hs h part ps (hworker ▸ activity) (hint ▸ interrupt) (hrecord ▸ record) rest
        (hworker ▸ tracker)
  | handedOff hs command activity interrupt record tracker =>
      exact .handedOff hs command (hworker ▸ activity) (hint ▸ interrupt) (hrecord ▸ record)
        (hworker ▸ tracker)
  | commanding hs command part ps activity interrupt mode record rest tracker =>
      exact .commanding hs command part ps (hworker ▸ activity) (hint ▸ interrupt) (hworker ▸ mode)
        (hrecord ▸ record) rest (hworker ▸ tracker)

/-- At rest, nothing is left: what changes but the tracker and the record does not matter. -/
theorem Progress.idle {s s' : RunLoop} (h : Progress offlineAfter s)
    (hwaiting : s.worker.activity = .waiting) (hint : s.interrupt = none)
    (hwaiting' : s'.worker.activity = .waiting) (htracker : s'.worker.tracker = s.worker.tracker)
    (hint' : ∀ message, s'.interrupt ≠ some (.message message)) (hrecord : s'.record = s.record) :
    Progress offlineAfter s' := by
  obtain ⟨hs, hhistory, hafter⟩ := h.at_rest hwaiting hint
  exact .resting hs hwaiting' hint' (hrecord.trans hhistory) (htracker.trans hafter)

/-- Starting a command. -/
theorem Progress.command {s' : RunLoop} {hs : List Handled} {w : BleWorker} {c : Command}
    (htracker : w.tracker = trackerAfter offlineAfter .new hs) (hmode : w.mode ≠ .scanning)
    (hworker : s'.worker = w.handleMessage (.command c)) (hint : s'.interrupt = none)
    (hrecord : s'.record = history offlineAfter .new hs ++
      [.received (.command c), .called (.onCommandStarted c.toActuation)]) :
    Progress offlineAfter s' := by
  refine .commanding hs c _ _ (by rw [hworker]; rfl) hint (by rw [hworker]; exact hmode) hrecord ?_ ?_
  · rw [← htracker]
    rfl
  · rw [hworker, ← htracker]
    rfl

theorem Progress.own {s s' : RunLoop} (h : Progress offlineAfter s) (hint : s.interrupt = none)
    {event : WorkerEvent} (hstep : s.own offlineAfter event = some s') : Progress offlineAfter s' := by
  obtain ⟨worker, hworker, hs'⟩ := Option.map_eq_some_iff.1 hstep
  rcases BleWorker.step_eq hworker with ⟨hwaiting, hmoves, mode, rfl⟩ |
    ⟨nowMs, ad, rfl, hwaiting, rfl⟩ | ⟨nowMs, rfl, hwaiting, rfl⟩ |
    ⟨action, succeeded, blind, nowMs, rfl, hactuating, rfl⟩
  · split at hs'
    · subst hs'
      exact h.idle hwaiting hint hwaiting rfl (by simp) rfl
    · subst hs'
      refine h.idle hwaiting hint hwaiting rfl (by simp [hint]) ?_
      have hnone : event.occurrences offlineAfter s.worker.activity = [] := by
        cases event <;> first | rfl | exact absurd hmoves id
      show s.record ++ _ = s.record
      rw [hnone, List.append_nil]
  · subst hs'
    obtain ⟨hs, hhistory, hafter⟩ := h.at_rest hwaiting hint
    exact .start hhistory hafter (.advertisement nowMs ad) [.called (.onAdvertisement nowMs ad)]
      rfl rfl rfl (by simp [hint]) rfl
  · subst hs'
    obtain ⟨hs, hhistory, hafter⟩ := h.at_rest hwaiting hint
    exact .start hhistory hafter (.offlineTick nowMs)
      [.called (.pollAvailability nowMs offlineAfter)] rfl rfl rfl (by simp [hint]) rfl
  · subst hs'
    obtain ⟨-, -, hs, command, rfl, record, tracker⟩ := h.while_actuating hactuating
    let mutated := settled s.worker.tracker command.toActuation succeeded blind nowMs
    have hsettled : s.worker.finishCommand command.toActuation succeeded blind nowMs =
        s.worker.report mutated .wait := rfl
    refine .finishing hs (.command command succeeded blind nowMs)
      (opening (trackerAfter offlineAfter .new hs) command ++
        (WorkerEvent.actuated succeeded blind nowMs).occurrences offlineAfter s.worker.activity)
      (publications mutated.1 mutated.2) (congrArg BleWorker.activity hsettled) (by simp [hint])
      ?_ ?_ ?_
    · show s.record ++ _ = _
      rw [record, List.append_assoc]
    · rw [Handled.record, ← tracker, hactuating]
      rfl
    · rw [Handled.tracker, ← tracker]
      exact congrArg BleWorker.tracker hsettled

theorem Progress.receive {s s' : RunLoop} (h : Progress offlineAfter s) (hint : s.interrupt = none)
    (hstep : s.receive = some s') : Progress offlineAfter s' := by
  obtain ⟨hwaiting, hcases⟩ := receive_cases hstep
  obtain ⟨hs, hhistory, hafter⟩ := h.at_rest hwaiting hint
  rcases hcases with ⟨message, messages, hmessages, hmode, rfl⟩ |
    ⟨message, messages, hmessages, hmode, hcommand, rfl⟩ | ⟨hmode, rfl⟩ | ⟨hmode, rfl⟩
  · cases message with
    | republish =>
        exact .start hhistory hafter .republish [.received .republish] rfl rfl rfl
          (by simp [hint]) rfl
    | command c =>
        have hidle : s.worker.mode = .idle := hmode.resolve_left fun h => by cases h.2
        exact .command hafter (by rw [hidle]; simp) rfl hint (congrArg (· ++ _) hhistory)
  · cases message with
    | republish => exact absurd rfl hcommand
    | command c => exact .handedOff hs c hwaiting rfl (congrArg (· ++ _) hhistory) hafter
  · exact h.idle hwaiting hint hwaiting rfl (by simp) rfl
  · exact h.idle hwaiting hint hwaiting rfl (by simp [hint]) rfl

theorem Progress.interrupted {s : RunLoop} (h : Progress offlineAfter s) {i : Interrupt}
    (hint : s.interrupt = some i) : Progress offlineAfter (s.interrupted i) := by
  cases h with
  | resting hs activity interrupt record tracker =>
      cases i with
      | message m => exact absurd hint (interrupt m)
      | scanError => exact .resting hs activity (by simp [RunLoop.interrupted]) record tracker
      | channelClosed => exact .resting hs activity (by simp [RunLoop.interrupted]) record tracker
  | finishing hs h part ps activity interrupt record rest tracker =>
      cases i with
      | message m => exact absurd hint (interrupt m)
      | scanError =>
          exact .finishing hs h part ps activity (by simp [RunLoop.interrupted]) record rest tracker
      | channelClosed =>
          exact .finishing hs h part ps activity (by simp [RunLoop.interrupted]) record rest tracker
  | handedOff hs c activity interrupt record tracker =>
      obtain rfl := Option.some.inj (interrupt.symm.trans hint)
      refine .command (w := { s.worker with mode := .starting }) tracker (by simp) rfl rfl ?_
      show s.record ++ _ = _
      rw [record, List.append_assoc]
      rfl
  | commanding hs c part ps activity interrupt => cases interrupt.symm.trans hint

theorem Progress.published {s : RunLoop} (h : Progress offlineAfter s) {p : Publication}
    {worker : BleWorker} (hpublished : s.worker.published = some (p, worker)) :
    Progress offlineAfter { s with worker, record := s.record ++ [.published p] } := by
  unfold BleWorker.published at hpublished
  split at hpublished
  · next next rest resume hactivity =>
      obtain ⟨rfl, rfl⟩ := Prod.mk.inj (Option.some.inj hpublished)
      cases h with
      | resting hs activity => cases hactivity.symm.trans activity
      | finishing hs h part ps activity interrupt record hrest tracker =>
          cases ps with
          | nil => cases hactivity.symm.trans activity
          | cons q ps =>
              cases hactivity.symm.trans activity
              exact .finishing hs h (part ++ [.published next]) rest rfl interrupt (by simp [record])
                (by simpa using hrest) tracker
      | handedOff hs c activity => cases hactivity.symm.trans activity
      | commanding hs c part ps activity interrupt mode record hrest tracker =>
          cases ps with
          | nil => cases hactivity.symm.trans activity
          | cons q ps =>
              cases hactivity.symm.trans activity
              exact .commanding hs c (part ++ [.published next]) rest rfl interrupt mode
                (by simp [record]) (by simpa using hrest) tracker
  · cases hpublished
  · cases hpublished

theorem Progress.step {s s' : RunLoop} {a : LoopAction} (h : Progress offlineAfter s)
    (hstep : s.step offlineAfter a = some s') : Progress offlineAfter s' := by
  cases a with
  | send message =>
      obtain ⟨-, ⟨⟩⟩ := Option.ite_none_left_eq_some.1 hstep
      exact h.congr rfl rfl rfl
  | close =>
      obtain rfl := Option.some.inj hstep
      exact h.congr rfl rfl rfl
  | own event =>
      obtain ⟨⟨hint, -⟩, hown⟩ := Option.ite_none_right_eq_some.1 hstep
      exact h.own hint hown
  | receive =>
      obtain ⟨⟨hint, -⟩, hreceive⟩ := Option.ite_none_right_eq_some.1 hstep
      exact h.receive hint hreceive
  | scanStopped =>
      obtain ⟨i, hint, rfl⟩ := Option.map_eq_some_iff.1 hstep
      exact h.interrupted hint
  | publish =>
      obtain ⟨⟨p, worker⟩, hpublished, rfl⟩ := Option.map_eq_some_iff.1 hstep
      exact h.published hpublished

/-! ## The channel -/

theorem receivedOf_occurrences (event : WorkerEvent) (activity : Activity) :
    receivedOf (event.occurrences offlineAfter activity) = [] := by
  unfold WorkerEvent.occurrences
  rw [receivedOf_append, receivedOf_called, List.append_nil]
  cases event <;> cases activity <;> rfl

/-- What is sent is either received or still in the channel, in the order it was sent. -/
def InOrder (s : RunLoop) : Prop := s.sent = receivedOf s.record ++ s.messages

theorem InOrder.receive {s s' : RunLoop} (h : s.InOrder) (hstep : s.receive = some s') :
    s'.InOrder := by
  have hone : ∀ (m : WorkerMessage) (calls : List TrackerCall),
      receivedOf (s.record ++ .received m :: calls.map .called) = receivedOf s.record ++ [m] := by
    intro m calls
    rw [receivedOf_append]
    exact congrArg (receivedOf s.record ++ m :: ·) (receivedOf_called calls)
  unfold InOrder at h ⊢
  rcases (receive_cases hstep).2 with ⟨message, messages, hmessages, -, rfl⟩ |
    ⟨message, messages, hmessages, -, -, rfl⟩ | ⟨-, rfl⟩ | ⟨-, rfl⟩
  · rw [h, hmessages]
    exact (List.append_assoc ..).symm.trans
      (congrArg (· ++ messages) (hone message message.calls).symm)
  · rw [h, hmessages]
    exact (List.append_assoc ..).symm.trans (congrArg (· ++ messages) (hone message []).symm)
  · exact h
  · exact h

theorem InOrder.step {s s' : RunLoop} {a : LoopAction} (h : s.InOrder)
    (hstep : s.step offlineAfter a = some s') : s'.InOrder := by
  cases a with
  | send message =>
      obtain ⟨-, ⟨⟩⟩ := Option.ite_none_left_eq_some.1 hstep
      unfold InOrder at h ⊢
      show s.sent ++ [message] = receivedOf s.record ++ (s.messages ++ [message])
      rw [h, List.append_assoc]
  | close =>
      obtain rfl := Option.some.inj hstep
      exact h
  | own event =>
      obtain ⟨-, hown⟩ := Option.ite_none_right_eq_some.1 hstep
      obtain ⟨worker, -, rfl⟩ := Option.map_eq_some_iff.1 hown
      split
      · exact h
      · unfold InOrder at h ⊢
        show s.sent = receivedOf (s.record ++ _) ++ s.messages
        rw [receivedOf_append, receivedOf_occurrences, List.append_nil, h]
  | receive =>
      obtain ⟨-, hreceive⟩ := Option.ite_none_right_eq_some.1 hstep
      exact h.receive hreceive
  | scanStopped =>
      obtain ⟨i, -, rfl⟩ := Option.map_eq_some_iff.1 hstep
      cases i with
      | message m =>
          unfold InOrder at h ⊢
          show s.sent = receivedOf (s.record ++ _) ++ s.messages
          rw [receivedOf_append, receivedOf_called, List.append_nil, h]
      | scanError => exact h
      | channelClosed => exact h
  | publish =>
      obtain ⟨⟨p, worker⟩, -, rfl⟩ := Option.map_eq_some_iff.1 hstep
      unfold InOrder at h ⊢
      show s.sent = receivedOf (s.record ++ [.published p]) ++ s.messages
      rw [receivedOf_append]
      exact h.trans (congrArg (· ++ s.messages) (List.append_nil _).symm)

/-! ## Runs -/

/-- The actuation that was received and has not been carried out yet. -/
def owed (self : RunLoop) : List Actuation :=
  match self.interrupt, self.worker.activity with
  | some (.message (.command command)), _ => [command.toActuation]
  | _, .publishing _ _ (.actuate action) | _, .actuating action => [action]
  | _, _ => []

theorem owed_of_wait {s : RunLoop} {ps : List Publication}
    (hactivity : s.worker.activity = .publish ps .wait)
    (hint : ∀ message, s.interrupt ≠ some (.message message)) : s.owed = [] := by
  unfold owed
  rw [hactivity]
  rcases hi : s.interrupt with _ | ⟨m⟩ | _ | _
  · cases ps <;> rfl
  · exact absurd hi (hint m)
  · cases ps <;> rfl
  · cases ps <;> rfl

theorem owed_of_actuate {s : RunLoop} {ps : List Publication} {action : Actuation}
    (hactivity : s.worker.activity = .publish ps (.actuate action)) (hint : s.interrupt = none) :
    s.owed = [action] := by
  unfold owed
  rw [hactivity, hint]
  cases ps <;> rfl

theorem Progress.actuations {s : RunLoop} (h : Progress offlineAfter s) :
    commandsOf (receivedOf s.record) = actuationsOf s.record ++ s.owed := by
  cases h with
  | resting hs activity interrupt record =>
      rw [owed_of_wait (show _ = Activity.publish [] .wait from activity) interrupt, record,
        actuationsOf_history, List.append_nil]
  | finishing hs h part ps activity interrupt record rest =>
      have hreceived := congrArg receivedOf rest
      have hactuations := congrArg actuationsOf rest
      rw [receivedOf_append, receivedOf_published, List.append_nil] at hreceived
      rw [actuationsOf_append, actuationsOf_published, List.append_nil] at hactuations
      rw [owed_of_wait activity interrupt, record, receivedOf_append, actuationsOf_append,
        commandsOf_append, hreceived, hactuations, actuationsOf_history, h.actuationsOf_record,
        List.append_nil]
  | handedOff hs c activity interrupt record =>
      have howed : s.owed = [c.toActuation] := by
        unfold owed
        rw [interrupt]
      rw [howed, record, receivedOf_append, actuationsOf_append, commandsOf_append,
        actuationsOf_history, List.append_assoc]
      rfl
  | commanding hs c part ps activity interrupt _ record rest =>
      have hreceived := congrArg receivedOf rest
      have hactuations := congrArg actuationsOf rest
      rw [receivedOf_append, receivedOf_published, List.append_nil, opening, receivedOf_append,
        publishing, receivedOf_published] at hreceived
      rw [actuationsOf_append, actuationsOf_published, List.append_nil, opening, actuationsOf_append,
        publishing, actuationsOf_published] at hactuations
      rw [owed_of_actuate activity interrupt, record, receivedOf_append, actuationsOf_append,
        commandsOf_append, hreceived, hactuations, actuationsOf_history, List.append_assoc]
      rfl

/-- The handlers that are done, and how much there is of the one that is not. -/
theorem Progress.handlers {s : RunLoop} (h : Progress offlineAfter s) :
    ∃ done part current, s.record = history offlineAfter .new done ++ part ∧
      part <+: Handled.record offlineAfter (trackerAfter offlineAfter .new done) current ∧
      (s.worker.activity = .waiting → s.interrupt = none → part = []) := by
  by_cases hrest : s.worker.activity = .waiting ∧ s.interrupt = none
  · obtain ⟨hs, record, -⟩ := h.at_rest hrest.1 hrest.2
    exact ⟨hs, [], .republish, by rw [record, List.append_nil], List.nil_prefix, fun _ _ => rfl⟩
  · have hnot : ∀ {part : List Occurrence}, s.worker.activity = .waiting → s.interrupt = none →
        part = [] := fun hwaiting hint => absurd ⟨hwaiting, hint⟩ hrest
    cases h with
    | resting hs activity interrupt record =>
        exact ⟨hs, [], .republish, by rw [record, List.append_nil], List.nil_prefix, hnot⟩
    | finishing hs h part ps activity interrupt record rest =>
        exact ⟨hs, part, h, record, ⟨_, rest⟩, hnot⟩
    | handedOff hs c activity interrupt record =>
        refine ⟨hs, _, .command c true (.fromSecs 0) 0, record, ?_, hnot⟩
        simp [Handled.record, opening]
    | commanding hs c part ps activity interrupt _ record rest =>
        refine ⟨hs, part, .command c true (.fromSecs 0) 0, record, ?_, hnot⟩
        rw [Handled.record, ← rest, List.append_assoc, List.append_assoc]
        exact List.prefix_append ..

/-- **Commands exactly once and in order.** In every run of the worker's loops over its channel:
    messages are received in the order they were sent, each once; the actuations are those the received
    commands ask for, but for the one that is on its way; the record is that of handlers that ran one
    after the other to their end, and the beginning of one more if the worker is not at rest; and no
    actuation runs while the scan does. -/
theorem commands_once_in_order {actions : List LoopAction} {s : RunLoop}
    (hrun : Runs.exec (step offlineAfter) new actions = some s) :
    s.sent = receivedOf s.record ++ s.messages ∧
    commandsOf (receivedOf s.record) = actuationsOf s.record ++ s.owed ∧
    (∃ done part current, s.record = history offlineAfter .new done ++ part ∧
      part <+: Handled.record offlineAfter (trackerAfter offlineAfter .new done) current ∧
      (s.worker.activity = .waiting → s.interrupt = none → part = [])) ∧
    ∀ action, s.worker.activity = .actuating action → s.worker.mode ≠ .scanning ∧ s.interrupt = none := by
  have hprogress : Progress offlineAfter s :=
    Runs.exec_invariant (I := Progress offlineAfter) (fun _ _ _ h => h.step) hrun .new
  have horder : s.InOrder := Runs.exec_invariant (I := InOrder) (fun _ _ _ h => h.step) hrun rfl
  refine ⟨horder, hprogress.actuations, hprogress.handlers, fun action hactuating => ?_⟩
  obtain ⟨hinterrupt, hmode, -⟩ := hprogress.while_actuating hactuating
  exact ⟨hmode, hinterrupt⟩

/-- Two commands and a `Republish`, sent while the scan runs; the first fails, the second succeeds. -/
theorem commands_once_in_order_two_commands :
    ∃ s, Runs.exec (step (.fromSecs 60)) new
        [.own .scanStarted, .send (.command .lock), .send .republish, .send (.command .unlock), .receive,
          .scanStopped, .publish, .own (.actuated false (.fromSecs 9) 9000), .own .scanFailed, .receive,
          .publish, .publish, .receive, .publish, .own (.actuated true (.fromSecs 9) 19000)] = some s ∧
      s.sent = [.command .lock, .republish, .command .unlock] ∧
      actuationsOf s.record = commandsOf s.sent ∧ actuationsOf s.record = [.lock, .unlock] := by
  obtain ⟨s, hs⟩ : ∃ s, Runs.exec (step (.fromSecs 60)) new
      [.own .scanStarted, .send (.command .lock), .send .republish, .send (.command .unlock), .receive,
        .scanStopped, .publish, .own (.actuated false (.fromSecs 9) 9000), .own .scanFailed, .receive,
        .publish, .publish, .receive, .publish, .own (.actuated true (.fromSecs 9) 19000)] = some s :=
    Option.isSome_iff_exists.1 (by decide +kernel)
  have hend := congrArg (Option.map fun s => (s.messages, s.owed, s.sent)) hs
  obtain ⟨hmessages, howed, hsent⟩ : s.messages = [] ∧ s.owed = [] ∧
      s.sent = [.command .lock, .republish, .command .unlock] := by
    have hvalues : some (s.messages, s.owed, s.sent) =
        some ([], [], [.command .lock, .republish, .command .unlock]) := hend.symm.trans (by decide +kernel)
    simpa using hvalues
  obtain ⟨horder, hactuations, -, -⟩ := commands_once_in_order hs
  rw [hmessages, List.append_nil] at horder
  rw [howed, List.append_nil, ← horder] at hactuations
  exact ⟨s, hs, hsent, hactuations.symm, by rw [← hactuations, hsent]; rfl⟩

/-! ## The loops add nothing to the worker -/

/-- While the scan is being stopped, the worker is where the scan left it. -/
def HeldByScan (s : RunLoop) : Prop :=
  ∀ i, s.interrupt = some i → s.worker.activity = .waiting ∧ s.worker.mode = .scanning ∧
    i ≠ .message .republish

/-- A step of the loops is a step of the worker, or leaves it alone. -/
def WorkerMoves (offlineAfter : Duration) (w w' : BleWorker) : Prop :=
  w' = w ∨ (∃ event, w.step offlineAfter event = some w') ∨ (∃ m, w.receive m = some w') ∨
    ∃ p, w.published = some (p, w')

theorem receive_while_scanning {w : BleWorker} (hwaiting : w.activity = .waiting)
    (hmode : w.mode = .scanning) :
    w.receive .republish = some (w.handleMessage .republish) ∧
      ∀ c, w.receive (.command c) = some ({ w with mode := .starting }.handleMessage (.command c)) := by
  obtain ⟨tracker, mode, activity⟩ := w
  subst hwaiting hmode
  exact ⟨rfl, fun c => rfl⟩

theorem receive_while_idle {w : BleWorker} (hwaiting : w.activity = .waiting)
    (hmode : w.mode = .idle) (message : WorkerMessage) :
    w.receive message = some (w.handleMessage message) := by
  obtain ⟨tracker, mode, activity⟩ := w
  subst hwaiting hmode
  rfl

theorem eventsEnded_while_scanning {w : BleWorker} (hwaiting : w.activity = .waiting)
    (hmode : w.mode = .scanning) :
    w.step offlineAfter .eventsEnded = some { w with mode := .idle } := by
  obtain ⟨tracker, mode, activity⟩ := w
  subst hwaiting hmode
  rfl

theorem receive_refines {s s' : RunLoop} (hint : s.interrupt = none) (hstep : s.receive = some s') :
    s'.HeldByScan ∧ WorkerMoves offlineAfter s.worker s'.worker := by
  have hfree : ∀ s' : RunLoop, s'.interrupt = s.interrupt → s'.HeldByScan := by
    intro s' h i hi
    rw [h, hint] at hi
    cases hi
  obtain ⟨hwaiting, hcases⟩ := receive_cases hstep
  rcases hcases with ⟨message, messages, hmessages, hmode, rfl⟩ |
    ⟨message, messages, hmessages, hmode, hnot, rfl⟩ | ⟨hmode, rfl⟩ | ⟨hmode, rfl⟩
  · refine ⟨hfree _ rfl, .inr (.inr (.inl ⟨message, ?_⟩))⟩
    rcases hmode with ⟨hmode, rfl⟩ | hmode
    · exact (receive_while_scanning hwaiting hmode).1
    · exact receive_while_idle hwaiting hmode message
  · refine ⟨fun i hi => ⟨hwaiting, hmode, fun h => hnot ?_⟩, .inl rfl⟩
    exact Interrupt.message.inj ((Option.some.inj hi).trans h)
  · refine ⟨fun i hi => ⟨hwaiting, hmode, fun h => ?_⟩, .inl rfl⟩
    cases (Option.some.inj hi).trans h
  · exact ⟨hfree _ rfl, .inl rfl⟩

/-- **The loops refine the worker.** -/
theorem step_refines {s s' : RunLoop} {a : LoopAction} (h : s.HeldByScan)
    (hstep : s.step offlineAfter a = some s') :
    s'.HeldByScan ∧ WorkerMoves offlineAfter s.worker s'.worker := by
  cases a with
  | send message =>
      obtain ⟨-, ⟨⟩⟩ := Option.ite_none_left_eq_some.1 hstep
      exact ⟨h, .inl rfl⟩
  | close =>
      obtain rfl := Option.some.inj hstep
      exact ⟨h, .inl rfl⟩
  | own event =>
      obtain ⟨⟨hint, -⟩, hown⟩ := Option.ite_none_right_eq_some.1 hstep
      obtain ⟨worker, hworker, rfl⟩ := Option.map_eq_some_iff.1 hown
      split
      · next hevent =>
          subst hevent
          refine ⟨fun i hi => ?_, .inl rfl⟩
          obtain rfl := Option.some.inj hi
          unfold BleWorker.step at hworker
          split at hworker <;> first | (next hevent => cases hevent; done) | skip
          · next hwaiting hmode _ => exact ⟨hwaiting, hmode, by simp⟩
          · cases hworker
      · refine ⟨fun i hi => ?_, .inr (.inl ⟨event, hworker⟩)⟩
        rw [show _ = s.interrupt from rfl, hint] at hi
        cases hi
  | receive =>
      obtain ⟨⟨hint, -⟩, hreceive⟩ := Option.ite_none_right_eq_some.1 hstep
      exact receive_refines hint hreceive
  | scanStopped =>
      obtain ⟨i, hint, rfl⟩ := Option.map_eq_some_iff.1 hstep
      obtain ⟨hwaiting, hmode, hnot⟩ := h i hint
      cases i with
      | message m =>
          cases m with
          | republish => exact absurd rfl hnot
          | command c =>
              exact ⟨fun i hi => (by cases hi),
                .inr (.inr (.inl ⟨.command c, (receive_while_scanning hwaiting hmode).2 c⟩))⟩
      | scanError =>
          exact ⟨fun i hi => (by cases hi),
            .inr (.inl ⟨.eventsEnded, eventsEnded_while_scanning hwaiting hmode⟩)⟩
      | channelClosed => exact ⟨fun i hi => (by cases hi), .inl rfl⟩
  | publish =>
      obtain ⟨⟨p, worker⟩, hpublished, rfl⟩ := Option.map_eq_some_iff.1 hstep
      refine ⟨fun i hi => ?_, .inr (.inr (.inr ⟨p, hpublished⟩))⟩
      obtain ⟨hwaiting, -⟩ := h i hi
      rw [BleWorker.published, hwaiting] at hpublished
      cases hpublished

/-- Every run of the loops is one of the worker. -/
theorem exec_refines {actions : List LoopAction} {s s' : RunLoop} (h : s.HeldByScan)
    (hrun : Runs.exec (step offlineAfter) s actions = some s') :
    Relation.ReflTransGen (WorkerMoves offlineAfter) s.worker s'.worker := by
  have hkept := Runs.exec_invariant
    (I := fun t => t.HeldByScan ∧ Relation.ReflTransGen (WorkerMoves offlineAfter) s.worker t.worker)
    (fun t a t' ht hstep => ?_) hrun ⟨h, .refl⟩
  · exact hkept.2
  · obtain ⟨hheld, hmoves⟩ := step_refines ht.1 hstep
    exact ⟨hheld, ht.2.tail hmoves⟩

end RunLoop

end TTLock
