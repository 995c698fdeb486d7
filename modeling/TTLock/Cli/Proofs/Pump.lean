import TTLock.Cli.Pump
import TTLock.Cli.Proofs.Worker

set_option autoImplicit false

/-! # When the two tasks deadlock

Between polls the pump takes nothing off the request queue. So while it announces, or waits for a slot
in the message queue that a publishing worker will not free, the requests still to come have to fit
into the queue as it stands: that is `Room`. Each step keeps it exactly if the step has `RoomFor` what
it brings (`room_step_iff`), and once it is gone it never comes back. -/

namespace TTLock

namespace Daemon

/-- The requests that have to be queued before the pump polls again still fit. -/
def Room (self : Daemon) : Prop :=
  match self.pump with
  | .announcing rest => self.requests.length + rest.length ≤ REQUEST_CAPACITY
  | .sending _ => self.messages.length = MESSAGE_CAPACITY →
      self.requests.length + self.worker.activity.outstanding.length ≤ REQUEST_CAPACITY
  | .polling | .backoff => True

/-- What a step needs to find: a `ConnAck`, room for the announcement; a publication made during an
    announcement, room for the rest of that; and where the pump waits for the message queue or starts
    to, room for all the worker is about to publish. -/
def RoomFor (offlineAfter : Duration) (self : Daemon) : DaemonAction → Prop
  | .connAck => self.requests.length + announcement.length ≤ REQUEST_CAPACITY
  | .publish => ∀ rest, self.pump = .announcing rest →
      self.requests.length + 1 + rest.length ≤ REQUEST_CAPACITY
  | .incoming payload => parseCommand payload ≠ none → self.messages.length = MESSAGE_CAPACITY →
      self.requests.length + self.worker.activity.outstanding.length ≤ REQUEST_CAPACITY
  | .announce => ∀ request, self.pump = .announcing [request] →
      self.messages.length = MESSAGE_CAPACITY →
      self.requests.length + 1 + self.worker.activity.outstanding.length ≤ REQUEST_CAPACITY
  | .worker event => ∀ message worker, self.pump = .sending message →
      self.messages.length = MESSAGE_CAPACITY → self.worker.step offlineAfter event = some worker →
      self.requests.length + worker.activity.outstanding.length ≤ REQUEST_CAPACITY
  | .request | .connectionError | .backoffElapsed | .send | .receive => True

/-! ## What a step of the tasks does -/

/-- Everything a step can do, with what it finds. -/
inductive Moves (offlineAfter : Duration) (s : Daemon) : DaemonAction → Daemon → Prop
  | connAck (hpump : s.pump = .polling) :
      Moves offlineAfter s .connAck { s with pump := .announcing announcement, connected := true }
  | forwarded {payload : String} {command : Command} (hpump : s.pump = .polling)
      (hparse : parseCommand payload = some command) :
      Moves offlineAfter s (.incoming payload) { s with pump := .sending (.command command) }
  | ignored {payload : String} (hparse : parseCommand payload = none) :
      Moves offlineAfter s (.incoming payload) s
  | request (hpump : s.pump = .polling) :
      Moves offlineAfter s .request { s with requests := s.requests.tail }
  | connectionError (hpump : s.pump = .polling) :
      Moves offlineAfter s .connectionError { s with pump := .backoff, connected := false }
  | backoffElapsed (hpump : s.pump = .backoff) :
      Moves offlineAfter s .backoffElapsed { s with pump := .polling }
  | announced {request : Request} (hpump : s.pump = .announcing [request])
      (hroom : s.requests.length < REQUEST_CAPACITY) :
      Moves offlineAfter s .announce
        { s with pump := .sending .republish, requests := s.requests ++ [request] }
  | announcing {request next : Request} {rest : List Request}
      (hpump : s.pump = .announcing (request :: next :: rest))
      (hroom : s.requests.length < REQUEST_CAPACITY) :
      Moves offlineAfter s .announce
        { s with pump := .announcing (next :: rest), requests := s.requests ++ [request] }
  | send {message : WorkerMessage} (hpump : s.pump = .sending message)
      (hroom : s.messages.length < MESSAGE_CAPACITY) :
      Moves offlineAfter s .send { s with pump := .polling, messages := s.messages ++ [message] }
  | worker {event : WorkerEvent} {worker : BleWorker}
      (hworker : s.worker.step offlineAfter event = some worker) :
      Moves offlineAfter s (.worker event) { s with worker }
  | receive {message : WorkerMessage} {messages : List WorkerMessage} {worker : BleWorker}
      (hmessages : s.messages = message :: messages)
      (hworker : s.worker.receive message = some worker) :
      Moves offlineAfter s .receive { s with worker, messages }
  | publish {publication : Publication} {worker : BleWorker}
      (hroom : s.requests.length < REQUEST_CAPACITY)
      (hworker : s.worker.published = some (publication, worker)) :
      Moves offlineAfter s .publish
        { s with worker, requests := s.requests ++ [.publish publication] }

theorem step_moves {offlineAfter : Duration} {s s' : Daemon} {a : DaemonAction}
    (h : s.step offlineAfter a = some s') : Moves offlineAfter s a s' := by
  cases a with
  | connAck =>
      obtain ⟨⟨hpump, -⟩, ⟨⟩⟩ := Option.ite_none_right_eq_some.1 h
      exact .connAck hpump
  | incoming payload =>
      obtain ⟨⟨hpump, -⟩, h⟩ := Option.ite_none_right_eq_some.1 h
      cases hparse : parseCommand payload with
      | some command =>
          rw [hparse] at h
          cases h
          exact .forwarded hpump hparse
      | none =>
          rw [hparse] at h
          cases h
          exact .ignored hparse
  | request =>
      obtain ⟨⟨hpump, -⟩, ⟨⟩⟩ := Option.ite_none_right_eq_some.1 h
      exact .request hpump
  | connectionError =>
      obtain ⟨hpump, ⟨⟩⟩ := Option.ite_none_right_eq_some.1 h
      exact .connectionError hpump
  | backoffElapsed =>
      obtain ⟨hpump, ⟨⟩⟩ := Option.ite_none_right_eq_some.1 h
      exact .backoffElapsed hpump
  | announce =>
      simp only [Daemon.step] at h
      split at h
      · next request rest hpump =>
          obtain ⟨hroom, ⟨⟩⟩ := Option.ite_none_right_eq_some.1 h
          cases rest with
          | nil => exact .announced hpump hroom
          | cons next rest => exact .announcing hpump hroom
      · cases h
  | send =>
      simp only [Daemon.step] at h
      split at h
      · next message hpump =>
          obtain ⟨hroom, ⟨⟩⟩ := Option.ite_none_right_eq_some.1 h
          exact .send hpump hroom
      · cases h
  | worker event =>
      obtain ⟨worker, hworker, rfl⟩ := Option.map_eq_some_iff.1 h
      exact .worker hworker
  | receive =>
      simp only [Daemon.step] at h
      split at h
      · cases h
      · next message messages hmessages =>
          obtain ⟨worker, hworker, rfl⟩ := Option.map_eq_some_iff.1 h
          exact .receive hmessages hworker
  | publish =>
      obtain ⟨hroom, h⟩ := Option.ite_none_right_eq_some.1 h
      obtain ⟨⟨publication, worker⟩, hworker, rfl⟩ := Option.map_eq_some_iff.1 h
      exact .publish hroom hworker

/-! ## Capacities -/

structure WithinCapacity (s : Daemon) : Prop where
  requests : s.requests.length ≤ REQUEST_CAPACITY
  messages : s.messages.length ≤ MESSAGE_CAPACITY

theorem WithinCapacity.step {offlineAfter : Duration} {s s' : Daemon} {a : DaemonAction}
    (h : s.WithinCapacity) (hstep : s.step offlineAfter a = some s') : s'.WithinCapacity := by
  obtain ⟨hr, hm⟩ := h
  cases step_moves hstep with
  | connAck | forwarded | ignored | connectionError | backoffElapsed | worker => exact ⟨hr, hm⟩
  | request => exact ⟨by rw [List.length_tail]; omega, hm⟩
  | announced _ hroom | announcing _ hroom | publish hroom _ =>
      exact ⟨by rw [List.length_append, List.length_singleton]; omega, hm⟩
  | send _ hroom => exact ⟨hr, by rw [List.length_append, List.length_singleton]; omega⟩
  | receive hmessages _ =>
      rw [hmessages, List.length_cons] at hm
      exact ⟨hr, Nat.le_of_succ_le hm⟩

/-! ## Room -/

/-- **One step.** There is room after it iff there was and the step found room for what it brought. -/
theorem room_step_iff {offlineAfter : Duration} {s s' : Daemon} {a : DaemonAction}
    (h : s.WithinCapacity) (hstep : s.step offlineAfter a = some s') :
    s'.Room ↔ s.Room ∧ s.RoomFor offlineAfter a := by
  obtain ⟨hr, hm⟩ := h
  cases step_moves hstep with
  | connAck hpump => simp [Room, RoomFor, hpump]
  | forwarded hpump hparse => simp [Room, RoomFor, hpump, hparse]
  | ignored hparse => simp [RoomFor, hparse]
  | request hpump | connectionError hpump | backoffElapsed hpump => simp [Room, RoomFor, hpump]
  | announced hpump hroom =>
      -- the last request: what matters from here on is the message queue
      simp only [Room, RoomFor, hpump, List.length_append, List.length_singleton,
        Pump.announcing.injEq, List.cons.injEq, and_true, forall_eq']
      exact (and_iff_right hroom).symm
  | announcing hpump hroom =>
      simp only [Room, RoomFor, hpump, List.length_append, List.length_cons, List.length_nil,
        Pump.announcing.injEq, List.cons.injEq, reduceCtorEq, and_false, false_implies, implies_true,
        and_true]
      omega
  | send hpump hroom =>
      simp only [Room, RoomFor, hpump, and_true, true_iff]
      intro hfull
      omega
  | @worker event worker hworker =>
      obtain ⟨hnone, -⟩ := BleWorker.step_cases hworker
      cases hpump : s.pump with
      | polling | backoff | announcing rest => simp [Room, RoomFor, hpump]
      | sending message =>
          simp only [Room, RoomFor, hpump, hnone, List.length_nil, hworker, Pump.sending.injEq,
            Option.some.injEq]
          refine ⟨fun hroom => ⟨fun _ => hr, fun _ w _ hfull hw => ?_⟩, fun hroom hfull =>
            hroom.2 message worker rfl hfull rfl⟩
          exact hw ▸ hroom hfull
  | receive hmessages hworker =>
      obtain ⟨hnone, -⟩ := BleWorker.receive_cases hworker
      cases hpump : s.pump with
      | polling | backoff | announcing rest => simp [Room, RoomFor, hpump]
      | sending _ =>
          -- the message queue is no longer full, and nothing was left to publish before
          rw [hmessages, List.length_cons] at hm
          simp only [Room, RoomFor, hpump, hnone, List.length_nil, and_true]
          exact iff_of_true (fun hfull => by omega) fun _ => hr
  | publish hroom hworker =>
      obtain ⟨hout, -⟩ := BleWorker.published_cases hworker
      cases hpump : s.pump with
      | polling | backoff => simp [Room, RoomFor, hpump]
      | announcing rest =>
          simp only [Room, RoomFor, hpump, List.length_append, List.length_singleton,
            Pump.announcing.injEq, forall_eq']
          omega
      | sending _ =>
          simp only [Room, RoomFor, hpump, hout, List.length_append, List.length_cons, List.length_nil,
            reduceCtorEq, false_implies, implies_true, and_true]
          omega

/-! ## Deadlock -/

theorem not_deadlocked_of_room {s : Daemon} (h : s.Room) : ¬s.Deadlocked := by
  rintro (⟨⟨request, rest, hpump⟩, hfull⟩ | ⟨⟨message, hpump⟩, hmessages, hout, hfull⟩)
  · simp only [Room, hpump, List.length_cons] at h
    omega
  · simp only [Room, hpump] at h
    have hpos := List.length_pos_iff.2 hout
    have hle := h hmessages
    omega

/-- Without room the pump is not polling. -/
theorem not_polling_of_not_room {s : Daemon} (h : ¬s.Room) :
    s.pump ≠ .polling ∧ s.pump ≠ .backoff :=
  ⟨fun hp => h (by simp only [Room, hp]), fun hp => h (by simp only [Room, hp])⟩

/-- Without room, the next request or publication can still be queued, or the pump is stuck. -/
theorem deadlocked_or_queues {s : Daemon} (hcap : s.WithinCapacity) (h : ¬s.Room)
    (offlineAfter : Duration) : s.Deadlocked ∨
      ∃ a s', s.step offlineAfter a = some s' ∧ s'.requests.length = s.requests.length + 1 := by
  obtain ⟨hr, -⟩ := hcap
  rcases s with ⟨pump, connected, ⟨tracker, mode, activity⟩, messages, requests⟩
  have hfull : requests.length = REQUEST_CAPACITY ∨ requests.length < REQUEST_CAPACITY :=
    Nat.eq_or_lt_of_le hr
  cases pump with
  | polling => exact absurd trivial h
  | backoff => exact absurd trivial h
  | announcing rest =>
      cases rest with
      | nil => exact absurd hr h
      | cons request rest =>
          refine hfull.imp (fun hfull => .inl ⟨⟨request, rest, rfl⟩, hfull⟩) fun hlt => ?_
          exact ⟨.announce, _, if_pos hlt, List.length_append ..⟩
  | sending message =>
      simp only [Room, Classical.not_imp] at h
      obtain ⟨hmessages, hroom⟩ := h
      cases activity with
      | waiting | actuating _ => exact absurd hr hroom
      | publishing next rest resume =>
          refine hfull.imp (fun hfull => .inr ⟨⟨message, rfl⟩, hmessages, List.cons_ne_nil _ _, hfull⟩)
            fun hlt => ?_
          exact ⟨.publish, _, if_pos hlt, List.length_append ..⟩

/-- Once there is no room, there never is again, and a deadlock is at hand. -/
theorem lost_of_not_room {offlineAfter : Duration} {s : Daemon} (hcap : s.WithinCapacity)
    (h : ¬s.Room) :
    (∀ as t, Runs.exec (Daemon.step offlineAfter) s as = some t →
      t.pump ≠ .polling ∧ t.pump ≠ .backoff) ∧
    ∃ as t, Runs.exec (Daemon.step offlineAfter) s as = some t ∧ t.Deadlocked := by
  constructor
  · intro as t hrun
    have hkept : ∀ (s : Daemon) (a : DaemonAction) (s' : Daemon), s.WithinCapacity ∧ ¬s.Room →
        s.step offlineAfter a = some s' → s'.WithinCapacity ∧ ¬s'.Room :=
      fun s a s' hs hstep => ⟨hs.1.step hstep, fun hroom =>
        hs.2 ((room_step_iff hs.1 hstep).1 hroom).1⟩
    exact not_polling_of_not_room (Runs.exec_invariant hkept hrun ⟨hcap, h⟩).2
  · induction hn : REQUEST_CAPACITY - s.requests.length using Nat.strongRecOn generalizing s with
    | ind n ih =>
        rcases deadlocked_or_queues hcap h offlineAfter with hdead | ⟨a, s', hstep, hlen⟩
        · exact ⟨[], s, rfl, hdead⟩
        · have hcap' := hcap.step hstep
          have hroom' : ¬s'.Room := fun hroom => h ((room_step_iff hcap hstep).1 hroom).1
          have hle := hcap'.requests
          obtain ⟨as, t, hrun, hdead⟩ := ih (REQUEST_CAPACITY - s'.requests.length)
            (by omega) hcap' hroom' rfl
          exact ⟨a :: as, t, Runs.exec_cons_eq_some.2 ⟨s', hstep, hrun⟩, hdead⟩

theorem withinCapacity_init : Daemon.init.WithinCapacity := ⟨Nat.zero_le _, Nat.zero_le _⟩

/-- **The tasks never deadlock while there is room, and never recover without.** No run whose steps
    all find room for what they bring reaches a deadlock. And the first step that does not costs
    everything: whatever happens after it, the pump never polls again, and the tasks can run into a
    deadlock. -/
theorem deadlock_free_while_room (offlineAfter : Duration) :
    (∀ as t, Runs.Guarded (Daemon.step offlineAfter) (Daemon.RoomFor offlineAfter) Daemon.init as →
      Runs.exec (Daemon.step offlineAfter) Daemon.init as = some t → ¬t.Deadlocked) ∧
    ∀ as s a s', Runs.exec (Daemon.step offlineAfter) Daemon.init as = some s →
      s.step offlineAfter a = some s' → ¬s.RoomFor offlineAfter a →
      (∀ bs t, Runs.exec (Daemon.step offlineAfter) s' bs = some t →
        t.pump ≠ .polling ∧ t.pump ≠ .backoff) ∧
      ∃ bs t, Runs.exec (Daemon.step offlineAfter) s' bs = some t ∧ t.Deadlocked := by
  constructor
  · intro as t hguarded hrun
    have hkept : ∀ (s : Daemon) (a : DaemonAction) (s' : Daemon), s.WithinCapacity ∧ s.Room →
        s.RoomFor offlineAfter a → s.step offlineAfter a = some s' → s'.WithinCapacity ∧ s'.Room :=
      fun s a s' hs hroom hstep => ⟨hs.1.step hstep, (room_step_iff hs.1 hstep).2 ⟨hs.2, hroom⟩⟩
    exact not_deadlocked_of_room
      (Runs.exec_guarded hkept hguarded hrun ⟨withinCapacity_init, trivial⟩).2
  · intro as s a s' hrun hstep hno
    have hcap : s.WithinCapacity :=
      Runs.exec_invariant (fun _ _ _ hs hstep => hs.step hstep) hrun withinCapacity_init
    exact lost_of_not_room (hcap.step hstep) fun hroom => hno ((room_step_iff hcap hstep).1 hroom).2

/-- An advertisement with this bolt position. -/
def heard (bolt : Bolt) : DaemonAction :=
  .worker (.advertisement 0 (.stateful ⟨none, .default⟩ ⟨bolt, Percent.new 80, false, false⟩))

/-- Before the broker can be reached, the bolt moves eleven times; then the connection comes up. -/
def busyOutage : List DaemonAction :=
  [.worker .scanStarted, heard .locked, .publish, .publish, .publish] ++
    (List.replicate 5 [heard .unlocked, .publish, heard .locked, .publish]).flatten ++
    [heard .unlocked, .publish, .connAck, .announce, .announce]

/-- The announcement fills the queue that only the next poll would empty. -/
theorem busy_outage_deadlocks :
    ∃ s, Runs.exec (Daemon.step (.fromSecs 60)) Daemon.init busyOutage = some s ∧
      s.Deadlocked := by
  refine ⟨_, rfl, .inl ⟨⟨_, _, rfl⟩, ?_⟩⟩
  decide

/-- A connection that comes up before anything was heard. -/
def quietStart : List DaemonAction := [.connAck, .announce, .announce, .announce, .send]

theorem quiet_start_not_deadlocked :
    ∃ s, Runs.exec (Daemon.step (.fromSecs 60)) Daemon.init quietStart = some s ∧
      ¬s.Deadlocked := by
  refine ⟨_, rfl, (deadlock_free_while_room (.fromSecs 60)).1 quietStart _ ?_ rfl⟩
  refine ⟨show 0 + 3 ≤ 16 by decide, fun s hs => ?_⟩
  cases hs
  refine ⟨fun request h => (by cases h), fun s hs => ?_⟩
  cases hs
  refine ⟨fun request h => (by cases h), fun s hs => ?_⟩
  cases hs
  refine ⟨fun request h hfull => (by cases hfull), fun s hs => ?_⟩
  cases hs
  exact ⟨trivial, fun s hs => trivial⟩

end Daemon

end TTLock
