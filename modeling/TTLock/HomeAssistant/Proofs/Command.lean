import TTLock.HomeAssistant.Command
import TTLock.Core.Proofs.Ops
import TTLock.Core.Proofs.Tracker

set_option autoImplicit false

/-! # Overlapping commands are carried out one after the other

The connect lock is first come, first served, and it is held from the first attempt of a call to the end of
its last. So the calls that have ended are the first ones that were made, at most one is at work, and the
others wait (`Ordered`). `Progress` lists what an event can do then. What is done to links is what each call
would do alone, one call after the other (`commands_are_serial`). -/

namespace TTLock

/-! ## A call on its own -/

/-- What an attempt does to its link, if it gets one. -/
inductive Attempted (attempt : Nat) : Except HaError Output → List LinkAct → Prop where
  | unreached (err : HaError) : Attempted attempt (.error err) []
  | reached (outcome : Except HaError Output) :
      Attempted attempt outcome [.connected attempt, .stopNotify attempt, .disconnect attempt]

/-- What a call does from one of its attempts on, and how it ends. -/
inductive Performs {τ : Type} (setup : Setup τ) : Nat → Except CallError Output → List LinkAct → Prop where
  | done {attempt : Nat} {output : Output} {acts : List LinkAct}
      (h : Attempted attempt (.ok output) acts) : Performs setup attempt (.ok output) acts
  | refused {attempt : Nat} {err : HaError} {acts : List LinkAct}
      (h : Attempted attempt (.error err) acts) (hretries : setup.retries err = false) :
      Performs setup attempt (.error (.raised err)) acts
  | exhausted {attempt : Nat} {err : HaError} {acts : List LinkAct}
      (h : Attempted attempt (.error err) acts) (hretries : setup.retries err = true)
      (hlast : attempt = setup.attempts) :
      Performs setup attempt (.error (.failedAfter setup.attempts err)) acts
  | again {attempt : Nat} {err : HaError} {acts rest : List LinkAct} {result : Except CallError Output}
      (h : Attempted attempt (.error err) acts) (hretries : setup.retries err = true)
      (hleft : attempt < setup.attempts) (hrest : Performs setup (attempt + 1) result rest) :
      Performs setup attempt result (acts ++ .slept (retryDelay attempt) :: rest)

def LinkAct.isConnected : LinkAct → Bool
  | .connected _ => true
  | .stopNotify _ | .disconnect _ | .slept _ => false

def LinkAct.seconds : LinkAct → Nat
  | .slept seconds => seconds
  | .connected _ | .stopNotify _ | .disconnect _ => 0

theorem Attempted.connections {attempt : Nat} {outcome : Except HaError Output} {acts : List LinkAct}
    (h : Attempted attempt outcome acts) :
    acts.countP LinkAct.isConnected ≤ 1 ∧ (acts.map LinkAct.seconds).sum = 0 := by
  cases h with
  | unreached err => exact ⟨Nat.zero_le 1, rfl⟩
  | reached outcome => exact ⟨Nat.le_refl 1, rfl⟩

/-- A call makes no more connections than it has attempts, and no wait between them is longer than the
    longest one. -/
theorem Performs.bounded {τ : Type} {setup : Setup τ} {attempt : Nat} {result : Except CallError Output}
    {acts : List LinkAct} (h : Performs setup attempt result acts) (hle : attempt ≤ setup.attempts) :
    acts.countP LinkAct.isConnected ≤ setup.attempts + 1 - attempt ∧
      (acts.map LinkAct.seconds).sum ≤ RETRY_MAX_DELAY * (setup.attempts - attempt) := by
  induction h with
  | done h | refused h _ | exhausted h _ _ =>
      obtain ⟨hcount, hsum⟩ := h.connections
      rw [hsum]
      exact ⟨by omega, Nat.zero_le _⟩
  | @again attempt err acts rest result h hretries hleft hrest ih =>
      obtain ⟨hcount, hsum⟩ := h.connections
      obtain ⟨ihcount, ihsum⟩ := ih (by omega)
      have hdelay : retryDelay attempt ≤ RETRY_MAX_DELAY := Nat.min_le_right _ _
      have hmul : RETRY_MAX_DELAY * (setup.attempts - attempt) =
          RETRY_MAX_DELAY + RETRY_MAX_DELAY * (setup.attempts - (attempt + 1)) := by
        rw [show setup.attempts - attempt = (setup.attempts - (attempt + 1)) + 1 by omega, Nat.mul_succ,
          Nat.add_comm]
      simp only [List.countP_append, List.countP_cons, LinkAct.isConnected, Bool.false_eq_true, if_false,
        List.map_append, List.map_cons, LinkAct.seconds, List.sum_append, List.sum_cons, hsum]
      omega

/-- What is left to do once an attempt has come to `outcome`. -/
def After {τ : Type} (setup : Setup τ) (attempt : Nat) (outcome : Except HaError Output)
    (result : Except CallError Output) (rest : List LinkAct) : Prop :=
  ∀ acts, Attempted attempt outcome acts → Performs setup attempt result (acts ++ rest)

namespace Work

variable {τ : Type} {setup : Setup τ}

def attempt : Work → Nat
  | connecting attempt _ | driving attempt _ | stopping attempt _ | disconnecting attempt _
  | sleeping attempt => attempt

/-- The attempt a call is at is one it has. It only waits for another one that it has, too. -/
def Numbered (setup : Setup τ) (work : Work) : Prop :=
  1 ≤ work.attempt ∧ work.attempt ≤ setup.attempts ∧
    ∀ attempt, work = sleeping attempt → attempt < setup.attempts

/-- What a call at work still has to do. -/
def Rest (setup : Setup τ) (result : Except CallError Output) (rest : List LinkAct) : Work → Prop
  | connecting attempt _ => Performs setup attempt result rest
  | driving attempt _ => ∃ outcome rest', rest = .stopNotify attempt :: .disconnect attempt :: rest' ∧
      After setup attempt outcome result rest'
  | stopping attempt drove => ∃ rest', rest = .disconnect attempt :: rest' ∧
      After setup attempt drove result rest'
  | disconnecting attempt drove => After setup attempt drove result rest
  | sleeping attempt => Performs setup (attempt + 1) result rest

theorem one_le_attempts (setup : Setup τ) : 1 ≤ setup.attempts := by
  unfold Setup.attempts
  omega

theorem numbered_first (setup : Setup τ) (version : Option LockVersion) :
    (connecting 1 version).Numbered setup :=
  ⟨Nat.le_refl 1, one_le_attempts setup, fun _ h => by cases h⟩

/-- After a failed attempt the call sleeps and makes another one, or ends. -/
theorem afterFailure_cases (setup : Setup τ) {attempt : Nat} (hle : attempt ≤ setup.attempts)
    (err : HaError) :
    (setup.afterFailure attempt err = .goesOn (.sleeping attempt) ∧ attempt < setup.attempts ∧
      ∀ result rest, Performs setup (attempt + 1) result rest →
        After setup attempt (.error err) result (.slept (retryDelay attempt) :: rest)) ∨
    ∃ error, setup.afterFailure attempt err = .ends (.error error) ∧
      After setup attempt (.error err) (.error error) [] := by
  unfold Setup.afterFailure
  cases hretries : setup.retries err with
  | false =>
      refine .inr ⟨.raised err, rfl, fun acts hacts => ?_⟩
      rw [List.append_nil]
      exact .refused hacts hretries
  | true =>
      by_cases hlast : attempt = setup.attempts
      · rw [if_pos rfl, if_pos hlast]
        refine .inr ⟨.failedAfter setup.attempts err, rfl, fun acts hacts => ?_⟩
        rw [List.append_nil]
        exact .exhausted hacts hretries hlast
      · rw [if_pos rfl, if_neg hlast]
        have hleft : attempt < setup.attempts := by omega
        exact .inl ⟨rfl, hleft, fun result rest hrest acts hacts => .again hacts hretries hleft hrest⟩

/-- What a call can do when it is woken up. -/
inductive Resumed (setup : Setup τ) (request : CallRequest) (learned : Option LockVersion) (link : τ) :
    Work → Wakeup τ → Turn → τ → Prop where
  | connected (attempt : Nat) (version : Option LockVersion) (link' : τ) :
      Resumed setup request learned link (connecting attempt version) (.connected link')
        (.goesOn (driving attempt version)) link'
  | unconnected (attempt : Nat) (version : Option LockVersion) (err : HaError) :
      Resumed setup request learned link (connecting attempt version) (.raised err)
        (setup.afterFailure attempt err) link
  | drove (attempt : Nat) (version : Option LockVersion) (drove : Except HaError Output) (link' : τ)
      (h : setup.drive request version link = some (drove, link')) :
      Resumed setup request learned link (driving attempt version) .drove
        (.goesOn (stopping attempt drove)) link'
  | unnotified (attempt : Nat) (version : Option LockVersion) (err : HaError) :
      Resumed setup request learned link (driving attempt version) (.raised err)
        (.goesOn (stopping attempt (.error err))) link
  | stopped (attempt : Nat) (drove : Except HaError Output) (wakeup : Wakeup τ) :
      Resumed setup request learned link (stopping attempt drove) wakeup
        (.goesOn (disconnecting attempt drove)) link
  | done (attempt : Nat) (output : Output) (wakeup : Wakeup τ) :
      Resumed setup request learned link (disconnecting attempt (.ok output)) wakeup
        (.ends (.ok output)) link
  | failed (attempt : Nat) (err : HaError) (wakeup : Wakeup τ) :
      Resumed setup request learned link (disconnecting attempt (.error err)) wakeup
        (setup.afterFailure attempt err) link
  | slept (attempt : Nat) : Resumed setup request learned link (sleeping attempt) .returned
      (.goesOn (connecting (attempt + 1) learned)) link

theorem resumed_of_resume {work : Work} {request : CallRequest} {learned : Option LockVersion}
    {wakeup : Wakeup τ} {link link' : τ} {turn : Turn}
    (h : work.resume setup request learned wakeup link = some (turn, link')) :
    Resumed setup request learned link work wakeup turn link' := by
  cases work with
  | connecting attempt version =>
      cases wakeup <;> cases h
      · exact .connected attempt version link'
      · exact .unconnected attempt version _
  | driving attempt version =>
      cases wakeup with
      | connected link => cases h
      | raised err => cases h; exact .unnotified attempt version err
      | drove =>
          obtain ⟨⟨drove, link''⟩, hdrive, heq⟩ := Option.map_eq_some_iff.1 h
          cases heq
          exact .drove attempt version drove link' hdrive
      | returned => cases h
  | stopping attempt drove => cases wakeup <;> cases h <;> exact .stopped attempt drove _
  | disconnecting attempt drove =>
      cases drove with
      | ok output => cases wakeup <;> cases h <;> exact .done attempt output _
      | error err => cases wakeup <;> cases h <;> exact .failed attempt err _
  | sleeping attempt => cases wakeup <;> cases h; exact .slept attempt

/-- A call that was woken up does what was left to do, or the first part of it. -/
theorem rest_of_resume {work : Work} {request : CallRequest} {learned : Option LockVersion}
    {wakeup : Wakeup τ} {link link' : τ} {turn : Turn} (hn : work.Numbered setup)
    (h : work.resume setup request learned wakeup link = some (turn, link')) :
    (∃ work', turn = .goesOn work' ∧ work'.Numbered setup ∧
      ∀ result rest, work'.Rest setup result rest → work.Rest setup result (work'.act.toList ++ rest)) ∨
    ∃ result, turn = .ends result ∧ work.Rest setup result [] := by
  obtain ⟨hone, hle, hsleeping⟩ := hn
  cases resumed_of_resume h with
  | connected attempt version =>
      refine .inl ⟨_, rfl, ⟨hone, hle, fun _ h => by cases h⟩, ?_⟩
      rintro result _ ⟨outcome, rest, rfl, hafter⟩
      exact hafter _ (.reached outcome)
  | unconnected attempt version err =>
      rcases afterFailure_cases setup hle err with ⟨hturn, hleft, hafter⟩ | ⟨error, hturn, hafter⟩
      · refine .inl ⟨_, hturn, ⟨hone, hle, fun _ h => by cases h; exact hleft⟩, fun result rest hrest => ?_⟩
        exact hafter result rest hrest [] (.unreached err)
      · exact .inr ⟨_, hturn, hafter [] (.unreached err)⟩
  | drove attempt version outcome _ hdrive =>
      refine .inl ⟨_, rfl, ⟨hone, hle, fun _ h => by cases h⟩, ?_⟩
      rintro result _ ⟨rest, rfl, hafter⟩
      exact ⟨outcome, rest, rfl, hafter⟩
  | unnotified attempt version err =>
      refine .inl ⟨_, rfl, ⟨hone, hle, fun _ h => by cases h⟩, ?_⟩
      rintro result _ ⟨rest, rfl, hafter⟩
      exact ⟨.error err, rest, rfl, hafter⟩
  | stopped attempt outcome =>
      exact .inl ⟨_, rfl, ⟨hone, hle, fun _ h => by cases h⟩, fun result rest hrest => ⟨rest, rfl, hrest⟩⟩
  | done attempt output =>
      refine .inr ⟨_, rfl, fun acts hacts => ?_⟩
      rw [List.append_nil]
      exact .done hacts
  | failed attempt err =>
      rcases afterFailure_cases setup hle err with ⟨hturn, hleft, hafter⟩ | ⟨error, hturn, hafter⟩
      · exact .inl ⟨_, hturn, ⟨hone, hle, fun _ h => by cases h; exact hleft⟩, hafter⟩
      · exact .inr ⟨_, hturn, hafter⟩
  | slept attempt =>
      have hleft := hsleeping attempt rfl
      exact .inl ⟨_, rfl, ⟨Nat.succ_pos _, hleft, fun _ h => by cases h⟩, fun result rest hrest => hrest⟩

end Work

namespace CoordinatorRun

variable {τ : Type} {setup : Setup τ} {run run' : CoordinatorRun τ} {k : Nat}

/-! ## The order of the calls -/

/-- The first `k` calls have ended, and the others have not. Only the first of these may be at work. -/
structure Ordered (run : CoordinatorRun τ) (k : Nat) : Prop where
  le : k ≤ run.calls.length
  queue : run.connectLock.queue = List.range' k (run.calls.length - k)
  ended : ∀ i < k, ∃ request result, run.calls[i]? = some ⟨request, .ended result⟩
  front : k < run.calls.length →
    (run.connectLock.holder = none ∧ ∃ request, run.calls[k]? = some ⟨request, .acquiring⟩) ∨
    (run.connectLock.holder = some k ∧ ∃ request work, run.calls[k]? = some ⟨request, .working work⟩)
  waiting : ∀ i, k < i → i < run.calls.length → ∃ request, run.calls[i]? = some ⟨request, .acquiring⟩

theorem getElem?_setPhase (number : Nat) (phase : Phase) (calls : List Call) (i : Nat) :
    (setPhase number phase calls)[i]? =
      (calls[i]?).map fun call => if number = i then { call with phase } else call := by
  rw [setPhase, List.getElem?_modify]
  cases calls[i]? with
  | none => rfl
  | some call => by_cases h : number = i <;> simp [h]

@[simp] theorem length_setPhase (number : Nat) (phase : Phase) (calls : List Call) :
    (setPhase number phase calls).length = calls.length := List.length_modify ..

theorem getElem?_setPhase_self {number : Nat} (phase : Phase) {calls : List Call} {call : Call}
    (h : calls[number]? = some call) :
    (setPhase number phase calls)[number]? = some { call with phase } := by
  simp [getElem?_setPhase, h]

theorem getElem?_setPhase_ne {number i : Nat} (phase : Phase) (calls : List Call) (h : number ≠ i) :
    (setPhase number phase calls)[i]? = calls[i]? := by
  simp [getElem?_setPhase, h]

@[simp] theorem map_request_setPhase (number : Nat) (phase : Phase) (calls : List Call) :
    (setPhase number phase calls).map Call.request = calls.map Call.request := by
  refine List.ext_getElem? fun i => ?_
  simp only [List.getElem?_map, getElem?_setPhase, Option.map_map]
  cases calls[i]? with
  | none => rfl
  | some call => by_cases h : number = i <;> simp [h]

/-- What an event can do to a run of which `k` calls have ended, and how many have ended then. -/
inductive Progress (setup : Setup τ) (run : CoordinatorRun τ) (k : Nat) :
    CallEvent τ → CoordinatorRun τ → Nat → Prop where
  /-- With every other call ended, a new one is at work at once. -/
  | called (request : CallRequest) : Progress setup run k (.called request)
      { run with
        tracker := announced request run.tracker
        connectLock := run.connectLock.acquire run.calls.length
        calls := run.calls ++ [{
          request
          phase := if k = run.calls.length then
            .working (.connecting 1 (announced request run.tracker).lockVersion) else .acquiring }] } k
  | granted (request : CallRequest) (connectLock : FairLock Nat)
      (h : run.calls[k]? = some ⟨request, .acquiring⟩) :
      Progress setup run k .granted
        { run with
          connectLock
          calls := setPhase k (.working (.connecting 1 run.tracker.lockVersion)) run.calls } k
  | goesOn (request : CallRequest) (work work' : Work) (wakeup : Wakeup τ) (link : τ) (blind : Duration)
      (nowMs : UInt64) (h : run.calls[k]? = some ⟨request, .working work⟩)
      (hresume : work.resume setup request run.tracker.lockVersion wakeup run.link =
        some (.goesOn work', link)) :
      Progress setup run k (.resumed k wakeup blind nowMs)
        { run with
          calls := setPhase k (.working work') run.calls
          link
          log := run.log ++ work'.act.toList.map fun act => (k, act) } k
  | ends (request : CallRequest) (work : Work) (result : Except CallError Output) (wakeup : Wakeup τ)
      (link : τ) (blind : Duration) (nowMs : UInt64)
      (h : run.calls[k]? = some ⟨request, .working work⟩)
      (hresume : work.resume setup request run.tracker.lockVersion wakeup run.link =
        some (.ends result, link)) :
      Progress setup run k (.resumed k wakeup blind nowMs)
        { run with
          tracker := finished request result blind nowMs run.tracker
          connectLock := run.connectLock.release
          calls := setPhase k (.ended result) run.calls
          link } (k + 1)
  | advertisement (nowMs : UInt64) (advertisement : Advertisement) :
      Progress setup run k (.advertisement nowMs advertisement)
        { run with tracker := (run.tracker.onAdvertisement nowMs advertisement).1 } k
  | unavailable : Progress setup run k .unavailable
      { run with tracker := run.tracker.onUnavailable.1 } k

namespace Ordered

theorem idle (tracker : LockTracker) (link : τ) : Ordered (.idle tracker link) 0 where
  le := Nat.le_refl 0
  queue := rfl
  ended i hi := absurd hi (Nat.not_lt_zero i)
  front h := absurd h (Nat.lt_irrefl 0)
  waiting i _ hi := absurd hi (Nat.not_lt_zero i)

/-- Only the first call that has not ended can be at work. -/
theorem working (h : Ordered run k) {i : Nat} {request : CallRequest} {work : Work}
    (hi : run.calls[i]? = some ⟨request, .working work⟩) : i = k := by
  have hlt : i < run.calls.length := (List.getElem?_eq_some_iff.1 hi).1
  rcases Nat.lt_trichotomy i k with hik | rfl | hik
  · obtain ⟨_, _, hended⟩ := h.ended i hik
    cases hi.symm.trans hended
  · rfl
  · obtain ⟨_, hwaiting⟩ := h.waiting i hik hlt
    cases hi.symm.trans hwaiting

theorem holder (h : Ordered run k) {request : CallRequest} {work : Work}
    (hk : run.calls[k]? = some ⟨request, .working work⟩) : run.connectLock.holder = some k := by
  rcases h.front (List.getElem?_eq_some_iff.1 hk).1 with ⟨-, _, hacquiring⟩ | ⟨hholder, -⟩
  · cases hk.symm.trans hacquiring
  · exact hholder

theorem queue_eq_nil_iff (h : Ordered run k) : run.connectLock.queue = [] ↔ k = run.calls.length := by
  have hle := h.le
  rw [h.queue, List.range'_eq_nil_iff]
  omega

theorem free_of_all_ended (h : Ordered run k) (hk : k = run.calls.length) :
    run.connectLock.holder = none := by
  have hqueue := h.queue_eq_nil_iff.2 hk
  rcases hholder : run.connectLock.holder with _ | i
  · rfl
  · rw [FairLock.queue_of_holder hholder] at hqueue
    cases hqueue

theorem free_of_acquiring (h : Ordered run k) {request : CallRequest}
    (hk : run.calls[k]? = some ⟨request, .acquiring⟩) : run.connectLock.holder = none := by
  rcases h.front (List.getElem?_eq_some_iff.1 hk).1 with ⟨hnone, -⟩ | ⟨-, _, _, hworking⟩
  · exact hnone
  · cases hk.symm.trans hworking

theorem called (h : Ordered run k) (tracker : LockTracker) (request : CallRequest) (phase : Phase)
    (hphase : if k = run.calls.length then ∃ work, phase = .working work else phase = .acquiring) :
    Ordered { run with
      tracker
      connectLock := run.connectLock.acquire run.calls.length
      calls := run.calls ++ [⟨request, phase⟩] } k := by
  have hle := h.le
  have hlast : (run.calls ++ [(⟨request, phase⟩ : Call)])[run.calls.length]? = some ⟨request, phase⟩ := by
    simp
  have hbefore : ∀ i < run.calls.length,
      (run.calls ++ [(⟨request, phase⟩ : Call)])[i]? = run.calls[i]? := fun i hi =>
    List.getElem?_append_left hi
  refine ⟨?_, ?_, fun i hi => ?_, fun hlt => ?_, fun i hki hlt => ?_⟩
  · simp only [List.length_append, List.length_singleton]
    omega
  · have hlen : run.calls.length + 1 - k = (run.calls.length - k) + 1 := by omega
    simp only [FairLock.queue_acquire, h.queue, List.length_append, List.length_singleton, hlen,
      List.range'_1_concat]
    rw [show k + (run.calls.length - k) = run.calls.length by omega]
  · simp only [hbefore i (by omega)]
    exact h.ended i hi
  · simp only [FairLock.holder_acquire, h.queue_eq_nil_iff]
    by_cases hk : k = run.calls.length
    · rw [if_pos hk] at hphase ⊢
      obtain ⟨work, rfl⟩ := hphase
      exact .inr ⟨congrArg some hk.symm, request, work, hk ▸ hlast⟩
    · rw [if_neg hk, hbefore k (by omega)]
      exact h.front (by omega)
  · rcases Nat.lt_or_ge i run.calls.length with hi | hi
    · simp only [hbefore i hi]
      exact h.waiting i hki hi
    · simp only [List.length_append, List.length_singleton] at hlt
      obtain rfl : i = run.calls.length := by omega
      rw [if_neg (by omega)] at hphase
      subst hphase
      exact ⟨request, hlast⟩

/-- A call that is made is at work at once only if no other call is. -/
theorem working_of_called (h : Ordered run k) {request request' : CallRequest}
    {version : Option LockVersion} {work : Work}
    (hwork : (run.calls ++ [(⟨request, if k = run.calls.length then .working (.connecting 1 version)
      else .acquiring⟩ : Call)])[k]? = some ⟨request', .working work⟩) :
    run.calls[k]? = some ⟨request', .working work⟩ ∨
      run.connectLock.holder = none ∧ work = .connecting 1 version := by
  rcases Nat.lt_or_eq_of_le h.le with hlt | heq
  · rw [List.getElem?_append_left hlt] at hwork
    exact .inl hwork
  · simp only [heq, if_true, List.getElem?_concat_length] at hwork
    cases hwork
    exact .inr ⟨h.free_of_all_ended heq, rfl⟩

/-- The call at the front goes on to another phase of its work. -/
theorem atWork (h : Ordered run k) (connectLock : FairLock Nat)
    (hqueue : connectLock.queue = run.connectLock.queue) (hholder : connectLock.holder = some k)
    {call : Call} (hk : run.calls[k]? = some call) (work : Work) (link : τ) (log : List (Nat × LinkAct)) :
    Ordered { run with connectLock, calls := setPhase k (.working work) run.calls, link, log } k := by
  refine ⟨?_, ?_, fun i hi => ?_, fun _ => .inr ⟨hholder, _, _, getElem?_setPhase_self _ hk⟩,
    fun i hki hlt => ?_⟩
  · simp only [length_setPhase, h.le]
  · simp only [length_setPhase, hqueue, h.queue]
  · simp only [getElem?_setPhase_ne _ _ (show k ≠ i by omega)]
    exact h.ended i hi
  · simp only [getElem?_setPhase_ne _ _ (show k ≠ i by omega)]
    exact h.waiting i hki (by simpa only [length_setPhase] using hlt)

/-- It ends, and the next one is at the front. -/
theorem ends (h : Ordered run k) (tracker : LockTracker) {request : CallRequest} {work : Work}
    (hk : run.calls[k]? = some ⟨request, .working work⟩) (result : Except CallError Output) (link : τ) :
    Ordered { run with
      tracker
      connectLock := run.connectLock.release
      calls := setPhase k (.ended result) run.calls
      link } (k + 1) := by
  have hlt := (List.getElem?_eq_some_iff.1 hk).1
  refine ⟨?_, ?_, fun i hi => ?_, fun hnext => ?_, fun i hki hlen => ?_⟩
  · simp only [length_setPhase]
    omega
  · have hqueue := FairLock.queue_of_holder (h.holder hk)
    rw [h.queue, show run.calls.length - k = (run.calls.length - (k + 1)) + 1 by omega,
      List.range'_succ] at hqueue
    simp only [length_setPhase, (List.cons.inj hqueue).2]
  · rcases Nat.lt_or_ge i k with hik | hik
    · simp only [getElem?_setPhase_ne _ _ (show k ≠ i by omega)]
      exact h.ended i hik
    · obtain rfl : i = k := by omega
      exact ⟨_, _, getElem?_setPhase_self _ hk⟩
  · simp only [length_setPhase] at hnext
    obtain ⟨next, hwaiting⟩ := h.waiting (k + 1) (by omega) hnext
    refine .inl ⟨rfl, next, ?_⟩
    simp only [getElem?_setPhase_ne _ _ (show k ≠ k + 1 by omega), hwaiting]
  · simp only [getElem?_setPhase_ne _ _ (show k ≠ i by omega)]
    exact h.waiting i (by omega) (by simpa only [length_setPhase] using hlen)

/-- **One event.** -/
theorem step (h : Ordered run k) {e : CallEvent τ} (hstep : CoordinatorRun.step setup run e = some run') :
    ∃ k', Progress setup run k e run' k' ∧ Ordered run' k' := by
  cases e with
  | called request =>
      have hholder : (run.connectLock.acquire run.calls.length).holder = some run.calls.length ↔
          k = run.calls.length := by
        simp only [FairLock.holder_acquire, h.queue_eq_nil_iff]
        by_cases hk : k = run.calls.length
        · simp only [hk, if_true]
        · have hle := h.le
          rcases h.front (by omega) with ⟨hnone, -⟩ | ⟨hsome, -⟩
          · simp only [hnone, hk, if_false, reduceCtorEq]
          · simp only [hsome, hk, if_false, Option.some.injEq]
      simp only [CoordinatorRun.step, hholder, Option.some.injEq] at hstep
      subst hstep
      refine ⟨k, .called request, h.called _ request _ ?_⟩
      by_cases hk : k = run.calls.length
      · simp only [if_pos hk]
        exact ⟨_, rfl⟩
      · simp only [if_neg hk]
  | granted =>
      obtain ⟨⟨i, connectLock⟩, hgrant, rfl⟩ := Option.map_eq_some_iff.1 hstep
      obtain ⟨hnone, hsome, hqueue⟩ := FairLock.grant_eq_some hgrant
      have hi : i :: connectLock.release.queue = List.range' k (run.calls.length - k) := by
        rw [← FairLock.queue_of_holder hsome, hqueue, h.queue]
      obtain ⟨rfl, hpos, -⟩ := List.range'_eq_cons_iff.1 hi.symm
      rcases h.front (by omega) with ⟨-, request, hk⟩ | ⟨hholder, -⟩
      · exact ⟨k, .granted request connectLock hk, h.atWork connectLock hqueue hsome hk _ _ _⟩
      · cases hnone.symm.trans hholder
  | resumed i wakeup blind nowMs =>
      simp only [CoordinatorRun.step] at hstep
      rcases hi : run.calls[i]? with _ | ⟨request, _ | work | _⟩ <;> rw [hi] at hstep <;> try cases hstep
      obtain rfl := h.working hi
      obtain ⟨⟨work' | result, link⟩, hresume, rfl⟩ := Option.map_eq_some_iff.1 hstep
      · exact ⟨i, .goesOn request work work' wakeup link blind nowMs hi hresume,
          h.atWork run.connectLock rfl (h.holder hi) hi work' link _⟩
      · exact ⟨i + 1, .ends request work result wakeup link blind nowMs hi hresume,
          h.ends _ hi result link⟩
  | advertisement nowMs advertisement =>
      obtain rfl := Option.some.inj hstep
      exact ⟨k, .advertisement nowMs advertisement, ⟨h.le, h.queue, h.ended, h.front, h.waiting⟩⟩
  | unavailable =>
      obtain rfl := Option.some.inj hstep
      exact ⟨k, .unavailable, ⟨h.le, h.queue, h.ended, h.front, h.waiting⟩⟩

end Ordered

/-! ## All calls together -/

/-- What the calls did, one call after the other. -/
def served (logs : List (List LinkAct)) : List (Nat × LinkAct) :=
  logs.zipIdx.flatMap fun (acts, number) => acts.map fun act => (number, act)

theorem served_concat (logs : List (List LinkAct)) (acts : List LinkAct) :
    served (logs ++ [acts]) = served logs ++ acts.map fun act => (logs.length, act) := by
  simp [served, List.zipIdx_append]

/-- Each call did what it would have done alone: `logs` is what those did that have ended, and `doing`
    what the one at work has done by now. -/
structure Serial (setup : Setup τ) (run : CoordinatorRun τ) (logs : List (List LinkAct))
    (doing : List LinkAct) : Prop where
  ordered : Ordered run logs.length
  log : run.log = served logs ++ doing.map fun act => (logs.length, act)
  ended : ∀ (i : Nat) (acts : List LinkAct), logs[i]? = some acts → ∃ request result,
    run.calls[i]? = some ⟨request, .ended result⟩ ∧ Performs setup 1 result acts
  working : ∀ request work, run.calls[logs.length]? = some ⟨request, .working work⟩ →
    work.Numbered setup ∧
      ∀ result rest, work.Rest setup result rest → Performs setup 1 result (doing ++ rest)
  idle : run.connectLock.holder = none → doing = []

variable {logs : List (List LinkAct)} {doing : List LinkAct}

theorem Serial.start (setup : Setup τ) (tracker : LockTracker) (link : τ) :
    Serial setup (.idle tracker link) [] [] where
  ordered := .idle tracker link
  log := rfl
  ended i acts h := by cases h
  working request work h := by cases h
  idle _ := rfl

/-- A call that has just got the connect lock has everything left to do. -/
theorem Serial.first (h : Serial setup run logs doing) (hidle : run.connectLock.holder = none)
    (version : Option LockVersion) : (Work.connecting 1 version).Numbered setup ∧
      ∀ result rest, (Work.connecting 1 version).Rest setup result rest →
        Performs setup 1 result (doing ++ rest) := by
  rw [h.idle hidle]
  exact ⟨Work.numbered_first setup version, fun result rest hrest => hrest⟩

theorem Serial.step (h : Serial setup run logs doing) {e : CallEvent τ}
    (hstep : CoordinatorRun.step setup run e = some run') :
    ∃ logs' doing', Serial setup run' logs' doing' := by
  obtain ⟨k', hprogress, hordered⟩ := h.ordered.step hstep
  have hle := h.ordered.le
  have hbefore : ∀ {i : Nat} {acts : List LinkAct}, logs[i]? = some acts → i < logs.length :=
    fun hi => (List.getElem?_eq_some_iff.1 hi).1
  cases hprogress with
  | called request =>
      refine ⟨logs, doing, hordered, h.log, fun i acts hi => ?_, fun request' work hwork => ?_,
        fun hnone => ?_⟩
      · simp only [List.getElem?_append_left (Nat.lt_of_lt_of_le (hbefore hi) hle)]
        exact h.ended i acts hi
      · -- the new call has its turn only if no other is left
        rcases h.ordered.working_of_called hwork with hwork | ⟨hfree, rfl⟩
        · exact h.working request' work hwork
        · exact h.first hfree _
      · exact h.idle (FairLock.free_of_acquire hnone)
  | granted request connectLock hk =>
      have hfree := h.ordered.free_of_acquiring hk
      refine ⟨logs, doing, hordered, h.log, fun i acts hi => ?_, fun request' work hwork => ?_, fun _ => ?_⟩
      · simp only [getElem?_setPhase_ne _ _ (hbefore hi).ne']
        exact h.ended i acts hi
      · cases (getElem?_setPhase_self _ hk).symm.trans hwork
        exact h.first hfree _
      · exact h.idle hfree
  | goesOn request work work' wakeup link blind nowMs hk hresume =>
      obtain ⟨hn, hperforms⟩ := h.working request work hk
      rcases Work.rest_of_resume hn hresume with ⟨_, hturn, hn', hrest⟩ | ⟨_, hturn, -⟩
      · cases hturn
        refine ⟨logs, doing ++ work'.act.toList, hordered, ?_, fun i acts hi => ?_,
          fun request' work'' hwork => ?_, fun hnone => ?_⟩
        · simp only [h.log, List.map_append, List.append_assoc]
        · simp only [getElem?_setPhase_ne _ _ (hbefore hi).ne']
          exact h.ended i acts hi
        · cases (getElem?_setPhase_self _ hk).symm.trans hwork
          refine ⟨hn', fun result rest hr => ?_⟩
          rw [List.append_assoc]
          exact hperforms result _ (hrest result rest hr)
        · cases hnone.symm.trans (h.ordered.holder hk)
      · cases hturn
  | ends request work result wakeup link blind nowMs hk hresume =>
      obtain ⟨hn, hperforms⟩ := h.working request work hk
      rcases Work.rest_of_resume hn hresume with ⟨_, hturn, -⟩ | ⟨_, hturn, hrest⟩
      · cases hturn
      · cases hturn
        -- what the call has done becomes the last of the logs
        have hlen : (logs ++ [doing]).length = logs.length + 1 := List.length_append
        refine ⟨logs ++ [doing], [], hlen ▸ hordered, ?_, fun i acts hi => ?_,
          fun request' work' hwork => ?_, fun _ => rfl⟩
        · simp only [h.log, served_concat, List.map_nil, List.append_nil]
        · rcases Nat.lt_or_ge i logs.length with hlt | hge
          · rw [List.getElem?_append_left hlt] at hi
            simp only [getElem?_setPhase_ne _ _ hlt.ne']
            exact h.ended i acts hi
          · have hi' := (List.getElem?_eq_some_iff.1 hi).1
            obtain rfl : i = logs.length := by omega
            rw [List.getElem?_concat_length] at hi
            cases hi
            have hall := hperforms result [] hrest
            rw [List.append_nil] at hall
            exact ⟨request, result, getElem?_setPhase_self _ hk, hall⟩
        · rw [hlen] at hwork
          cases (hordered.holder hwork).symm.trans rfl
  | advertisement nowMs advertisement =>
      exact ⟨logs, doing, hordered, h.log, h.ended, h.working, h.idle⟩
  | unavailable => exact ⟨logs, doing, hordered, h.log, h.ended, h.working, h.idle⟩

/-- **Overlapping commands do not interfere.** However the calls overlap, they end in the order they were
    made, at most one is at work at a time, and what is done to links is what each call would do alone, one
    call after the other: each connection is let go of before anything else is done, a failed attempt is
    followed by another one only if its error is of that kind and one is left, and no call connects more
    often than it may. -/
theorem commands_are_serial (setup : Setup τ) (tracker : LockTracker) (link : τ)
    (events : List (CallEvent τ)) (run : CoordinatorRun τ)
    (hrun : Runs.exec (CoordinatorRun.step setup) (.idle tracker link) events = some run) :
    (∃ logs doing, Serial setup run logs doing ∧ ∀ acts ∈ logs,
      acts.countP LinkAct.isConnected ≤ setup.attempts ∧
      (acts.map LinkAct.seconds).sum ≤ RETRY_MAX_DELAY * (setup.attempts - 1)) ∧
    ∀ (i j : Nat) (request request' : CallRequest) (work work' : Work),
      run.calls[i]? = some ⟨request, .working work⟩ → run.calls[j]? = some ⟨request', .working work'⟩ →
      i = j := by
  obtain ⟨logs, doing, h⟩ := Runs.exec_invariant
    (I := fun run => ∃ logs doing, Serial setup run logs doing)
    (fun _ _ _ ⟨_, _, h⟩ hstep => h.step hstep) hrun ⟨[], [], .start setup tracker link⟩
  refine ⟨⟨logs, doing, h, fun acts hacts => ?_⟩, fun i j _ _ _ _ hi hj => ?_⟩
  · obtain ⟨i, hi⟩ := List.mem_iff_getElem?.1 hacts
    obtain ⟨_, _, -, hperforms⟩ := h.ended i acts hi
    exact hperforms.bounded (Work.one_le_attempts setup)
  · rw [h.ordered.working hi, h.ordered.working hj]

/-- Somebody unlocks while the first of two attempts to lock is made. That finds no device, and the second
    one is not notified. -/
def unlockDuringLock : List (CallEvent ScriptedLink) :=
  let went (wakeup : Wakeup ScriptedLink) : CallEvent ScriptedLink := .resumed 0 wakeup (.fromSecs 9) 9000
  [.called (.actuate .lock), .called (.actuate .unlock), went (.raised .transient), went .returned,
    went (.connected ⟨[], []⟩), went (.raised .transient), went .returned, went (.raised (.bleak "gone")),
    .granted]

theorem unlock_during_lock_serial :
    let setup : Setup ScriptedLink :=
      { cipher := aes128Cbc, aesKey := sampleKey, unlockKey := ⟨5, by decide⟩, connectAttempts := 2
        packageDir := "/ttlock_ble", exception := fun _ => ⟨true, false, []⟩
        client := ScriptedLink.transport .transient 0 }
    ∃ run, Runs.exec (CoordinatorRun.step setup) (.idle .new ⟨[], []⟩) unlockDuringLock = some run ∧
      run.log = [(0, .slept 2), (0, .connected 2), (0, .stopNotify 2), (0, .disconnect 2)] ∧
      ∃ logs doing, Serial setup run logs doing ∧ ∀ acts ∈ logs,
        acts.countP LinkAct.isConnected ≤ setup.attempts ∧
        (acts.map LinkAct.seconds).sum ≤ RETRY_MAX_DELAY * (setup.attempts - 1) :=
  ⟨_, rfl, rfl, (commands_are_serial _ .new ⟨[], []⟩ unlockDuringLock _ rfl).1⟩

end CoordinatorRun

end TTLock
