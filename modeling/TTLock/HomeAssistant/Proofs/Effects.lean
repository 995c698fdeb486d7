import TTLock.HomeAssistant.Proofs.Command
import TTLock.HomeAssistant.Proofs.LockSafety

set_option autoImplicit false

/-! # What overlapping commands do to a lock

The calls of a coordinator that is set up for a lock, over links as bad as any. What the lock has done is
what the calls asked for, in the order they were made (`commands_act_in_order`). So the position that is
reported while no call is at work is right, unless the last call failed (`reported_position_is_right`). -/

namespace TTLock

/-! ## Moves of calls -/

/-- What the lock does if it moves its bolt `moves` times for a call. -/
def CallRequest.performs : CallRequest → (moves : Nat) → List Actuation
  | .actuate action, moves => List.replicate moves action
  | .status, _ => []

/-- What it does for all of them. -/
def effects (requests : List CallRequest) (moves : List Nat) : List Actuation :=
  (List.zipWith CallRequest.performs requests moves).flatten

def Bolt.after (bolt : Bolt) (performed : List Actuation) : Bolt :=
  (performed.getLast?.map Actuation.target).getD bolt

theorem Bolt.after_append (bolt : Bolt) (performed more : List Actuation) :
    bolt.after (performed ++ more) = (bolt.after performed).after more := by
  unfold Bolt.after
  rw [List.getLast?_append]
  cases more.getLast? <;> rfl

theorem Bolt.after_replicate (bolt : Bolt) (moves : Nat) (action : Actuation) :
    bolt.after (List.replicate moves action) = if moves = 0 then bolt else action.target := by
  cases moves with
  | zero => rfl
  | succ moves => simp [Bolt.after, List.getLast?_replicate]

@[simp] theorem CallRequest.performs_zero (request : CallRequest) : request.performs 0 = [] := by
  cases request <;> rfl

theorem CallRequest.performs_add (request : CallRequest) (m n : Nat) :
    request.performs (m + n) = request.performs m ++ request.performs n := by
  cases request with
  | actuate action => exact List.replicate_add ..
  | status => rfl

theorem effects_append_left {requests : List CallRequest} {moves : List Nat}
    (h : moves.length ≤ requests.length) (more : List CallRequest) :
    effects (requests ++ more) moves = effects requests moves := by
  induction requests generalizing moves with
  | nil =>
      obtain rfl := List.eq_nil_of_length_eq_zero (Nat.le_zero.1 h)
      cases more <;> rfl
  | cons request requests ih =>
      cases moves with
      | nil => rfl
      | cons m moves =>
          have htail := ih (Nat.le_of_succ_le_succ h)
          unfold effects at htail ⊢
          rw [List.cons_append, List.zipWith_cons_cons, List.zipWith_cons_cons, List.flatten_cons,
            List.flatten_cons, htail]

theorem effects_concat {requests : List CallRequest} {moves : List Nat} {request : CallRequest}
    (h : requests[moves.length]? = some request) (m : Nat) :
    effects requests (moves ++ [m]) = effects requests moves ++ request.performs m := by
  induction moves generalizing requests with
  | nil =>
      cases requests with
      | nil => cases h
      | cons _ requests =>
          cases h
          simp [effects]
  | cons m' moves ih =>
      cases requests with
      | nil => cases h
      | cons _ requests =>
          have htail := @ih requests (by simpa using h)
          unfold effects at htail ⊢
          rw [List.cons_append, List.zipWith_cons_cons, List.zipWith_cons_cons, List.flatten_cons,
            List.flatten_cons, htail, List.append_assoc]

/-- A call that has not moved the bolt makes no difference. -/
theorem effects_concat_zero (requests : List CallRequest) (moves : List Nat) :
    effects requests (moves ++ [0]) = effects requests moves := by
  induction moves generalizing requests with
  | nil => cases requests <;> simp [effects]
  | cons m moves ih =>
      cases requests with
      | nil => rfl
      | cons request requests =>
          have htail := ih requests
          unfold effects at htail ⊢
          rw [List.cons_append, List.zipWith_cons_cons, List.zipWith_cons_cons, List.flatten_cons,
            List.flatten_cons, htail]

/-! ## One drive -/

/-- All a lock is ever asked. -/
def lockCommands : List UInt8 :=
  [COMM_CHECK_USER_TIME, COMM_FUNCTION_LOCK, COMM_UNLOCK, COMM_SEARCH_BICYCLE_STATUS]

/-- Whether a call may have had this `output`, with the bolt now in this position. -/
def CallRequest.Achieved (bolt : Bolt) (moves : Nat) : CallRequest → Output → Prop
  | .actuate _, .actuated => moves ≠ 0
  | .status, .status state => state = bolt.lockState
  | .actuate _, .status _ | .status, .actuated => False

section

variable (C : Cipher) (lock : PairedLock) (unlockKey : UnlockKey) (connectAttempts : Int)
  (packageDir : String) (exception : String → BleakException) (fate : Nat → Fate) (rendered : String)

/-- A coordinator with the lock's AES key, and links to the lock. -/
def PairedLock.setup : Setup LockLink :=
  { cipher := C, aesKey := lock.aesKey, unlockKey, connectAttempts, packageDir, exception
    client := LockLink.transport .transient (.bleak rendered) C lock fate }

end

variable {C : Cipher} {lock : PairedLock} {unlockKey : UnlockKey} {connectAttempts : Int}
  {packageDir : String} {exception : String → BleakException} {fate : Nat → Fate} {rendered : String}

/-- Of at most three challenges that were drawn in a row, one and this key make the sum the lock came to by
    the last of them, between number `low` and number `high`. -/
def PairedLock.MeetsWithin (lock : PairedLock) (unlockKey : UnlockKey) (low high : Nat) : Prop :=
  ∃ first issued, low ≤ first ∧ issued ≤ high ∧ issued ≤ first + 3 ∧ lock.Meets unlockKey first issued

theorem PairedLock.MeetsWithin.mono {low high high' : Nat} (h : lock.MeetsWithin unlockKey low high)
    (hle : high ≤ high') : lock.MeetsWithin unlockKey low high' := by
  obtain ⟨first, issued, hlow, hhigh, hfew, hmeets⟩ := h
  exact ⟨first, issued, hlow, hhigh.trans hle, hfew, hmeets⟩

/-- What a drive over a new connection does. -/
structure Drove (lock : PairedLock) (unlockKey : UnlockKey) (request : CallRequest) (before : LockSession)
    (moves : Nat) (drove : Except HaError Output) (after : LockSession) : Prop where
  le : moves ≤ 3
  performed : after.performed = before.performed ++ request.performs moves
  bolt : after.bolt = before.bolt.after (request.performs moves)
  drawn : before.issued ≤ after.issued ∧ after.issued ≤ before.issued + 3
  meets : moves ≠ 0 → lock.Meets unlockKey before.issued after.issued
  achieved : ∀ output, drove = .ok output → request.Achieved after.bolt moves output

theorem drive_cases (hC : C.Lawful) {link : LockLink} {before : LockSession}
    (hfresh : Fresh C lock lockCommands before link) (request : CallRequest) (version : Option LockVersion) :
    ∃ drove link' moves, (lock.setup C unlockKey connectAttempts packageDir exception fate rendered).drive
        request version link = some (drove, link') ∧
      Drove lock unlockKey request before moves drove link'.session := by
  cases request with
  | actuate action =>
      have hsub : [COMM_CHECK_USER_TIME, action.commandType] ⊆ lockCommands := by
        cases action <;> decide
      obtain ⟨result, op, link', hdrive, hsound⟩ := @asyncDrive_actuate C lock action unlockKey
        (version.getD .default) before hC fate link (hfresh.mono hsub) 2 (Nat.le_refl 2) rendered
      obtain ⟨moves, hle, hmoved, hok⟩ := hsound.moved
      refine ⟨result.map fun () => .actuated, link', moves, ?_, hle, hmoved.performed, ?_, hmoved.drawn,
        fun h => (hmoved.authorized h).2, fun output houtput => ?_⟩
      · simp only [Setup.drive, PairedLock.setup, hdrive, Option.map_some]
      · rw [hmoved.bolt, CallRequest.performs, Bolt.after_replicate]
      · rcases result with e | ⟨⟩ <;> cases houtput
        exact hok rfl
  | status =>
      obtain ⟨result, op, link', hdrive, htold⟩ := @asyncDrive_status C lock (version.getD .default) before
        hC fate link (hfresh.mono (by decide)) 2 (by decide) rendered
      refine ⟨result.map .status, link', 0, ?_, Nat.zero_le 3, ?_, ?_, ?_, fun h => absurd rfl h,
        fun output houtput => ?_⟩
      · simp only [Setup.drive, PairedLock.setup, hdrive, Option.map_some]
      · rw [htold.session, CallRequest.performs, List.append_nil]
      · rw [htold.session]
        rfl
      · rw [htold.session]
        exact ⟨Nat.le_refl _, Nat.le_add_right _ _⟩
      · rcases result with e | state <;> cases houtput
        rw [htold.session]
        exact (htold.state state rfl).2

theorem CallRequest.Achieved.add {request : CallRequest} {bolt : Bolt} {moves : Nat} {output : Output}
    (h : request.Achieved bolt moves output) (now : Nat) : request.Achieved bolt (now + moves) output := by
  cases request <;> cases output
  · have hmoves : moves ≠ 0 := h
    show now + moves ≠ 0
    omega
  all_goals exact h

/-! ## One call -/

/-- A call that is at this work, and for which the bolt was moved so many times by `now`. -/
def AtWork (C : Cipher) (lock : PairedLock) (link : LockLink) (request : CallRequest) (now : Nat) :
    Work → Prop
  | .connecting attempt _ => now ≤ 3 * (attempt - 1)
  | .driving attempt _ => now ≤ 3 * (attempt - 1) ∧ Fresh C lock lockCommands link.session link
  | .stopping attempt drove | .disconnecting attempt drove =>
      now ≤ 3 * attempt ∧ ∀ output, drove = .ok output → request.Achieved link.session.bolt now output
  | .sleeping attempt => now ≤ 3 * attempt

/-- A call that ends like this. -/
def EndsWell (attempts : Nat) (request : CallRequest) (bolt : Bolt) (moves : Nat)
    (result : Except CallError Output) : Prop :=
  moves ≤ 3 * attempts ∧ ∀ output, result = .ok output → request.Achieved bolt moves output

def Turned (C : Cipher) (lock : PairedLock) (attempts : Nat) (link : LockLink) (request : CallRequest)
    (now : Nat) : Turn → Prop
  | .goesOn work => AtWork C lock link request now work
  | .ends result => EndsWell attempts request link.session.bolt now result

theorem turned_afterFailure {setup : Setup LockLink} {attempt : Nat} (hle : attempt ≤ setup.attempts)
    (err : HaError) (link : LockLink) (request : CallRequest) {now : Nat} (hnow : now ≤ 3 * attempt) :
    Turned C lock setup.attempts link request now (setup.afterFailure attempt err) := by
  unfold Setup.afterFailure
  split_ifs
  · exact ⟨by omega, fun _ h => by cases h⟩
  · exact hnow
  · exact ⟨by omega, fun _ h => by cases h⟩

/-- What the lock does when a call goes on, and where that call is then. -/
theorem moves_of_resume (hC : C.Lawful) {work : Work} {request : CallRequest} {learned : Option LockVersion}
    {wakeup : Wakeup LockLink} {link link' : LockLink} {turn : Turn} {now : Nat}
    (hn : work.Numbered (lock.setup C unlockKey connectAttempts packageDir exception fate rendered))
    (hwork : AtWork C lock link request now work)
    (hredials : ∀ link', wakeup = .connected link' → Fresh C lock lockCommands link.session link')
    (hresume : work.resume (lock.setup C unlockKey connectAttempts packageDir exception fate rendered)
      request learned wakeup link = some (turn, link')) :
    ∃ more, link'.session.performed = link.session.performed ++ request.performs more ∧
      link'.session.bolt = link.session.bolt.after (request.performs more) ∧
      link.session.issued ≤ link'.session.issued ∧
      (more ≠ 0 → lock.MeetsWithin unlockKey link.session.issued link'.session.issued) ∧
      Turned C lock (lock.setup C unlockKey connectAttempts packageDir exception fate rendered).attempts
        link' request (now + more) turn := by
  obtain ⟨hone, hle, -⟩ := hn
  have hstill : link.session.performed = link.session.performed ++ request.performs 0 ∧
      link.session.bolt = link.session.bolt.after (request.performs 0) ∧
      link.session.issued ≤ link.session.issued ∧
      (0 ≠ 0 → lock.MeetsWithin unlockKey link.session.issued link.session.issued) := by
    rw [CallRequest.performs_zero, List.append_nil]
    exact ⟨rfl, rfl, Nat.le_refl _, fun h => absurd rfl h⟩
  obtain ⟨hperformed, hbolt, hissued, hmeets⟩ := hstill
  cases Work.resumed_of_resume hresume with
  | connected attempt version =>
      have hfresh := hredials link' rfl
      rw [← hfresh.session] at hperformed hbolt
      exact ⟨0, hfresh.session ▸ hperformed, hfresh.session ▸ hbolt, hfresh.session.symm ▸ hissued,
        fun h => absurd rfl h, hwork, ⟨rfl, hfresh.replies, hfresh.script⟩⟩
  | unconnected attempt version err =>
      have hnow : now ≤ 3 * (attempt - 1) := hwork
      have hnow' : now ≤ 3 * attempt := by omega
      exact ⟨0, hperformed, hbolt, hissued, hmeets, turned_afterFailure hle err link request hnow'⟩
  | drove attempt version drove _ hdrive =>
      obtain ⟨hnow, hfresh⟩ := hwork
      obtain ⟨drove', link'', moves, hdrive', h⟩ := @drive_cases C lock unlockKey connectAttempts packageDir
        exception fate rendered hC link link.session hfresh request version
      cases hdrive.symm.trans hdrive'
      have hmoves := h.le
      have hattempt : 1 ≤ attempt := hone
      obtain ⟨hlow, hfew⟩ := h.drawn
      exact ⟨moves, h.performed, h.bolt, hlow,
        fun hne => ⟨_, _, Nat.le_refl _, Nat.le_refl _, hfew, h.meets hne⟩, by omega,
        fun output houtput => (h.achieved output houtput).add now⟩
  | unnotified attempt version err =>
      obtain ⟨hnow, -⟩ := hwork
      exact ⟨0, hperformed, hbolt, hissued, hmeets, by omega, fun _ h => by cases h⟩
  | stopped attempt drove => exact ⟨0, hperformed, hbolt, hissued, hmeets, hwork⟩
  | done attempt output =>
      obtain ⟨hnow, hachieved⟩ := hwork
      have hlast : attempt ≤ _ := hle
      refine ⟨0, hperformed, hbolt, hissued, hmeets, by omega, fun _ h => ?_⟩
      cases h
      exact hachieved output rfl
  | failed attempt err =>
      exact ⟨0, hperformed, hbolt, hissued, hmeets, turned_afterFailure hle err link request hwork.1⟩
  | slept attempt => exact ⟨0, hperformed, hbolt, hissued, hmeets, hwork⟩

/-! ## All calls -/

namespace CoordinatorRun

/-- Every connection is a new one to the same lock. -/
def Redials (C : Cipher) (lock : PairedLock) (run : CoordinatorRun LockLink) :
    CallEvent LockLink → Prop
  | .resumed _ (.connected link) _ _ => Fresh C lock lockCommands run.link.session link
  | _ => True

/-- What the lock has done: it moved its bolt as often as `moves` says for the calls that have ended, and
    `now` times for the one at work. The key opened it, with a challenge drawn since `before`. -/
structure Acted (C : Cipher) (lock : PairedLock) (unlockKey : UnlockKey) (setup : Setup LockLink)
    (before : LockSession) (run : CoordinatorRun LockLink) (moves : List Nat) (now : Nat) : Prop where
  ordered : Ordered run moves.length
  performed : run.link.session.performed =
    before.performed ++ effects (run.calls.map Call.request) (moves ++ [now])
  bolt : run.link.session.bolt =
    before.bolt.after (effects (run.calls.map Call.request) (moves ++ [now]))
  issued_le : before.issued ≤ run.link.session.issued
  meets : effects (run.calls.map Call.request) (moves ++ [now]) ≠ [] →
    lock.MeetsWithin unlockKey before.issued run.link.session.issued
  ended : ∀ (i m : Nat), moves[i]? = some m → ∃ request result,
    run.calls[i]? = some ⟨request, .ended result⟩ ∧
    EndsWell setup.attempts request
      (before.bolt.after (effects (run.calls.map Call.request) (moves.take (i + 1)))) m result
  working : ∀ request work, run.calls[moves.length]? = some ⟨request, .working work⟩ →
    work.Numbered setup ∧ AtWork C lock run.link request now work
  idle : run.connectLock.holder = none → now = 0

variable {setup : Setup LockLink} {before : LockSession} {run run' : CoordinatorRun LockLink}
  {moves : List Nat} {now : Nat}

theorem Acted.start (setup : Setup LockLink) (tracker : LockTracker) (link : LockLink) :
    Acted C lock unlockKey setup link.session (.idle tracker link) [] 0 where
  ordered := .idle tracker link
  performed := (List.append_nil _).symm
  bolt := rfl
  issued_le := Nat.le_refl _
  meets h := absurd rfl h
  ended i m h := by cases h
  working request work h := by cases h
  idle _ := rfl

/-- A call that was only just made has not moved the bolt. -/
theorem Acted.effects_called (h : Acted C lock unlockKey setup before run moves now)
    (request : CallRequest) :
    effects (run.calls.map Call.request ++ [request]) (moves ++ [now]) =
      effects (run.calls.map Call.request) (moves ++ [now]) := by
  have hlen : (run.calls.map Call.request).length = run.calls.length := List.length_map ..
  rcases Nat.lt_or_eq_of_le h.ordered.le with hlt | heq
  · exact effects_append_left (by rw [List.length_append, List.length_singleton, hlen]; exact hlt) _
  · rw [h.idle (h.ordered.free_of_all_ended heq), effects_concat_zero, effects_concat_zero]
    exact effects_append_left (by rw [hlen]; exact heq.le) _

/-- Once the bolt has moved some more for the call at work. -/
theorem Acted.more (h : Acted C lock unlockKey setup before run moves now) {request : CallRequest}
    {work : Work} (hk : run.calls[moves.length]? = some ⟨request, .working work⟩) {session : LockSession}
    {more : Nat} (hperformed : session.performed = run.link.session.performed ++ request.performs more)
    (hbolt : session.bolt = run.link.session.bolt.after (request.performs more))
    (hissued : run.link.session.issued ≤ session.issued)
    (hmeets : more ≠ 0 → lock.MeetsWithin unlockKey run.link.session.issued session.issued) :
    session.performed =
      before.performed ++ effects (run.calls.map Call.request) (moves ++ [now + more]) ∧
    session.bolt = before.bolt.after (effects (run.calls.map Call.request) (moves ++ [now + more])) ∧
    (effects (run.calls.map Call.request) (moves ++ [now + more]) ≠ [] →
      lock.MeetsWithin unlockKey before.issued session.issued) := by
  have hrequest : (run.calls.map Call.request)[moves.length]? = some request := by
    rw [List.getElem?_map, hk]
    rfl
  have hmore : effects (run.calls.map Call.request) (moves ++ [now + more]) =
      effects (run.calls.map Call.request) (moves ++ [now]) ++ request.performs more := by
    rw [effects_concat hrequest, effects_concat hrequest, CallRequest.performs_add, List.append_assoc]
  refine ⟨?_, ?_, fun hne => ?_⟩
  · rw [hperformed, h.performed, hmore, List.append_assoc]
  · rw [hbolt, h.bolt, hmore, Bolt.after_append]
  · by_cases hzero : more = 0
    · subst hzero
      exact (h.meets hne).mono hissued
    · obtain ⟨first, issued, hfirst, hwithin⟩ := hmeets hzero
      exact ⟨first, issued, h.issued_le.trans hfirst, hwithin⟩

theorem Acted.step (hC : C.Lawful)
    (hsetup : setup = lock.setup C unlockKey connectAttempts packageDir exception fate rendered)
    (h : Acted C lock unlockKey setup before run moves now) {e : CallEvent LockLink}
    (hredials : Redials C lock run e) (hstep : CoordinatorRun.step setup run e = some run') :
    ∃ moves' now', Acted C lock unlockKey setup before run' moves' now' := by
  obtain ⟨k', hprogress, hordered⟩ := h.ordered.step hstep
  have hle := h.ordered.le
  have hbefore : ∀ {i m : Nat}, moves[i]? = some m → i < moves.length := fun hi =>
    (List.getElem?_eq_some_iff.1 hi).1
  have hfirst : run.connectLock.holder = none → ∀ (request : CallRequest) (version : Option LockVersion),
      (Work.connecting 1 version).Numbered setup ∧
        AtWork C lock run.link request now (.connecting 1 version) := by
    intro hfree request version
    exact ⟨Work.numbered_first setup version, (h.idle hfree).le⟩
  cases hprogress with
  | called request =>
      have hsame := h.effects_called request
      refine ⟨moves, now, hordered, ?_, ?_, h.issued_le, ?_, fun i m hi => ?_,
        fun request' work hwork => ?_, fun hnone => h.idle (FairLock.free_of_acquire hnone)⟩
      · simp only [List.map_append, List.map_cons, List.map_nil, hsame, h.performed]
      · simp only [List.map_append, List.map_cons, List.map_nil, hsame, h.bolt]
      · simp only [List.map_append, List.map_cons, List.map_nil, hsame]
        exact h.meets
      · have htake : (moves.take (i + 1)).length ≤ (run.calls.map Call.request).length := by
          rw [List.length_map]
          exact (List.length_take_le' _ _).trans hle
        simp only [List.getElem?_append_left (Nat.lt_of_lt_of_le (hbefore hi) hle), List.map_append,
          effects_append_left htake]
        exact h.ended i m hi
      · rcases h.ordered.working_of_called hwork with hwork | ⟨hfree, rfl⟩
        · exact h.working request' work hwork
        · exact hfirst hfree request' _
  | granted request connectLock hk =>
      have hfree := h.ordered.free_of_acquiring hk
      refine ⟨moves, now, hordered, ?_, ?_, h.issued_le, ?_, fun i m hi => ?_,
        fun request' work hwork => ?_, fun _ => h.idle hfree⟩
      · simp only [map_request_setPhase, h.performed]
      · simp only [map_request_setPhase, h.bolt]
      · simp only [map_request_setPhase]
        exact h.meets
      · simp only [getElem?_setPhase_ne _ _ (hbefore hi).ne', map_request_setPhase]
        exact h.ended i m hi
      · cases (getElem?_setPhase_self _ hk).symm.trans hwork
        exact hfirst hfree _ _
  | goesOn request work work' wakeup link blind nowMs hk hresume =>
      obtain ⟨hn, hwork⟩ := h.working request work hk
      have hn' : work'.Numbered setup := by
        rcases Work.rest_of_resume hn hresume with ⟨_, hturn, hn', -⟩ | ⟨_, hturn, -⟩ <;> cases hturn
        exact hn'
      subst hsetup
      -- the wait that ends may have been that for `_async_drive`, and then the lock has acted
      obtain ⟨more, hperformed, hbolt, hissued, hmeets, hturned⟩ := moves_of_resume hC hn hwork
        (fun link' hlink => by subst hlink; exact hredials) hresume
      obtain ⟨hperformed', hbolt', hmeets'⟩ := h.more hk hperformed hbolt hissued hmeets
      refine ⟨moves, now + more, hordered, ?_, ?_, h.issued_le.trans hissued, ?_, fun i m hi => ?_,
        fun request' work'' hwork' => ?_, fun hnone => ?_⟩
      · simp only [map_request_setPhase, hperformed']
      · simp only [map_request_setPhase, hbolt']
      · simp only [map_request_setPhase]
        exact hmeets'
      · simp only [getElem?_setPhase_ne _ _ (hbefore hi).ne', map_request_setPhase]
        exact h.ended i m hi
      · cases (getElem?_setPhase_self _ hk).symm.trans hwork'
        exact ⟨hn', hturned⟩
      · cases hnone.symm.trans (h.ordered.holder hk)
  | ends request work result wakeup link blind nowMs hk hresume =>
      obtain ⟨hn, hwork⟩ := h.working request work hk
      subst hsetup
      obtain ⟨more, hperformed, hbolt, hissued, hmeets, hturned⟩ := moves_of_resume hC hn hwork
        (fun link' hlink => by subst hlink; exact hredials) hresume
      obtain ⟨hperformed', hbolt', hmeets'⟩ := h.more hk hperformed hbolt hissued hmeets
      have hlen : (moves ++ [now + more]).length = moves.length + 1 := List.length_append
      refine ⟨moves ++ [now + more], 0, hlen ▸ hordered, ?_, ?_, h.issued_le.trans hissued, ?_,
        fun i m hi => ?_, fun request' work' hwork' => ?_, fun _ => rfl⟩
      · simp only [map_request_setPhase, effects_concat_zero, hperformed']
      · simp only [map_request_setPhase, effects_concat_zero, hbolt']
      · simp only [map_request_setPhase, effects_concat_zero]
        exact hmeets'
      · simp only [map_request_setPhase]
        rcases Nat.lt_or_ge i moves.length with hlt | hge
        · rw [List.getElem?_append_left hlt] at hi
          simp only [getElem?_setPhase_ne _ _ hlt.ne', List.take_append_of_le_length (Nat.succ_le_of_lt hlt)]
          exact h.ended i m hi
        · have hi' := (List.getElem?_eq_some_iff.1 hi).1
          obtain rfl : i = moves.length := by omega
          rw [List.getElem?_concat_length] at hi
          cases hi
          refine ⟨request, result, getElem?_setPhase_self _ hk, ?_⟩
          rw [List.take_of_length_le hlen.le, ← hbolt']
          exact hturned
      · rw [hlen] at hwork'
        cases hordered.holder hwork'
  | advertisement nowMs advertisement =>
      exact ⟨moves, now, hordered, h.performed, h.bolt, h.issued_le, h.meets, h.ended, h.working, h.idle⟩
  | unavailable =>
      exact ⟨moves, now, hordered, h.performed, h.bolt, h.issued_le, h.meets, h.ended, h.working, h.idle⟩

/-- The `k`-th call ended by an exception. -/
def LastFailed (run : CoordinatorRun LockLink) (k : Nat) : Prop :=
  ∃ i request err, k = i + 1 ∧ run.calls[i]? = some ⟨request, .ended (.error err)⟩

/-- With no call at work and unless the last one failed, the position that is reported is right. -/
def Accurate (run : CoordinatorRun LockLink) (k : Nat) : Prop :=
  run.connectLock.holder = none → ¬LastFailed run k →
    ∀ bolt, run.tracker.knowledge.observed? = some bolt → bolt = run.link.session.bolt

/-- An advertisement carries the position the lock has its bolt in. -/
def Truthful (run : CoordinatorRun LockLink) : CallEvent LockLink → Prop
  | .advertisement _ advertisement =>
      ∀ status, advertisement.status = some status → status.bolt = run.link.session.bolt
  | _ => True

theorem Ordered.unique {k k' : Nat} (h : Ordered run k) (h' : Ordered run k') : k = k' := by
  have hnot : ∀ {k k' : Nat}, Ordered run k → Ordered run k' → ¬k < k' := by
    intro k k' h h' hlt
    obtain ⟨_, _, hended⟩ := h'.ended k hlt
    rcases h.front (List.getElem?_eq_some_iff.1 hended).1 with ⟨-, _, hk⟩ | ⟨-, _, _, hk⟩ <;>
      cases hended.symm.trans hk
  exact Nat.le_antisymm (Nat.le_of_not_lt (hnot h' h)) (Nat.le_of_not_lt (hnot h h'))

theorem observed?_announced (request : CallRequest) (tracker : LockTracker) :
    (announced request tracker).knowledge.observed? = tracker.knowledge.observed? := by
  cases request with
  | actuate action => exact tracker.observed?_apply (.onCommandStarted action)
  | status => rfl

/-- After a call that ended well, the position is the one the call has seen to or learned. -/
theorem observed?_finished {request : CallRequest} {output : Output} {bolt : Bolt} {moves : Nat}
    (h : request.Achieved (bolt.after (request.performs moves)) moves output) (blind : Duration)
    (nowMs : UInt64) (tracker : LockTracker) :
    (finished request (.ok output) blind nowMs tracker).knowledge.observed? =
      some (bolt.after (request.performs moves)) := by
  cases request with
  | actuate action =>
      cases output with
      | actuated =>
          have hmoves : moves ≠ 0 := h
          rw [CallRequest.performs, Bolt.after_replicate, if_neg hmoves]
          cases action <;> rfl
      | status state => cases h
  | status =>
      cases output with
      | actuated => cases h
      | status state =>
          obtain rfl : state = bolt.lockState := h
          cases bolt <;> rfl

theorem Accurate.step (hC : C.Lawful)
    (hsetup : setup = lock.setup C unlockKey connectAttempts packageDir exception fate rendered)
    (h : Acted C lock unlockKey setup before run moves now) (ha : Accurate run moves.length)
    {e : CallEvent LockLink} (hredials : Redials C lock run e) (htruthful : Truthful run e)
    (hstep : CoordinatorRun.step setup run e = some run') :
    ∃ moves' now', Acted C lock unlockKey setup before run' moves' now' ∧
      Accurate run' moves'.length := by
  obtain ⟨moves', now', h'⟩ := h.step hC hsetup hredials hstep
  obtain ⟨k', hprogress, hordered⟩ := h.ordered.step hstep
  refine ⟨moves', now', h', ?_⟩
  obtain rfl := hordered.unique h'.ordered
  have hworking : ∀ {request : CallRequest} {work : Work},
      run'.calls[moves'.length]? = some ⟨request, .working work⟩ → Accurate run' moves'.length :=
    fun hk hnone => by cases hnone.symm.trans (h'.ordered.holder hk)
  generalize hk' : moves'.length = k' at hprogress hworking ⊢
  cases hprogress with
  | called request =>
      intro hnone hlast bolt hbolt
      rw [observed?_announced] at hbolt
      refine ha (FairLock.free_of_acquire hnone) ?_ bolt hbolt
      rintro ⟨i, request', err, hi, hcall⟩
      refine hlast ⟨i, request', err, hi, ?_⟩
      simp only [List.getElem?_append_left (List.getElem?_eq_some_iff.1 hcall).1, hcall]
  | granted request connectLock hk => exact hworking (getElem?_setPhase_self _ hk)
  | goesOn request work work' wakeup link blind nowMs hk hresume =>
      exact hworking (getElem?_setPhase_self _ hk)
  | ends request work result wakeup link blind nowMs hk hresume =>
      intro hnone hlast bolt hbolt
      cases result with
      | error err => exact absurd ⟨_, request, err, rfl, getElem?_setPhase_self _ hk⟩ hlast
      | ok output =>
          obtain ⟨init, m, rfl⟩ : ∃ init m, moves' = init ++ [m] :=
            ⟨_, _, (List.dropLast_concat_getLast (List.ne_nil_of_length_eq_add_one hk')).symm⟩
          have hlen : init.length = moves.length := by
            rw [List.length_append, List.length_singleton] at hk'
            omega
          obtain ⟨request', result', hcall, -, hachieved⟩ := h'.ended init.length m (by simp)
          rw [hlen] at hcall
          cases (getElem?_setPhase_self _ hk).symm.trans hcall
          have hrequest : ((setPhase moves.length (.ended (.ok output)) run.calls).map
              Call.request)[init.length]? = some request := by
            rw [List.getElem?_map, hlen, hcall]
            rfl
          have hnow : now' = 0 := h'.idle hnone
          have hsession := h'.bolt
          rw [hnow, effects_concat_zero, effects_concat hrequest, Bolt.after_append] at hsession
          have hend := hachieved output rfl
          rw [List.take_of_length_le (by simp), effects_concat hrequest, Bolt.after_append] at hend
          rw [observed?_finished hend] at hbolt
          exact (Option.some.inj hbolt).symm.trans hsession.symm
  | advertisement nowMs advertisement =>
      intro hnone hlast bolt hbolt
      have hmark := run.tracker.observed?_apply (.onAdvertisement nowMs advertisement)
      change (run.tracker.onAdvertisement nowMs advertisement).1.knowledge.observed? = _ at hbolt
      change (run.tracker.onAdvertisement nowMs advertisement).1.knowledge.observed? = _ at hmark
      rw [hbolt, LockTracker.mark] at hmark
      rcases hstatus : advertisement.status with _ | status <;> rw [hstatus] at hmark
      · exact ha hnone hlast bolt hmark.symm
      · exact (Option.some.inj hmark).trans (htruthful status hstatus)
  | unavailable =>
      intro hnone hlast bolt hbolt
      exact ha hnone hlast bolt (hbolt ▸ (run.tracker.observed?_apply .onUnavailable).symm)

end CoordinatorRun

end TTLock
