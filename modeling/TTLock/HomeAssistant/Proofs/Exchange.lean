import TTLock.Cli.Proofs.Noise
import TTLock.HomeAssistant.Exchange
import TTLock.Lib.Retry.Restarting

set_option autoImplicit false

/-! # The two drivers

Over a script `_async_drive` does what driving a machine does with a count of stray frames that starts
afresh after every re-send. So it does what `run_op` does, unless stray frames on both sides of a
re-send add up to more than `run_op` puts up with (`drivers_agree_iff`). -/

namespace TTLock

open Retry (Exchange)

variable {σ T : Type}

/-- What Home Assistant makes of the end of a script. -/
def endingRaised : Retry.Ending T TtlockError → Except HaError T
  | .done output => .ok output
  | .failed e => .error (.ttlock (toPyerr e))
  | .ranOut => .error .transient

theorem toPyerr_cls (e : TtlockError) :
    (toPyerr e).cls = if e.isStaleFrame then .unexpectedCommand
      else if e.isRetryable then .crcMismatch else .ttlockError := by
  cases e <;> rfl

namespace HomeAssistant

section

variable {τ : Type} {client : Transport HaError τ} {op : Operation σ T} {now : Int} {raw : List UInt8}
  {lastAttempt : Bool} {strayLeft : Nat} {self self' : σ} {link link' : τ} {e : TtlockError}

theorem awaitResponse_error {e : HaError} (h : client.nextFrame link = (.error e, link')) :
    awaitResponse client op lastAttempt strayLeft self link = (.error e, self, link') := by
  rw [awaitResponse.eq_def]
  dsimp only
  rw [h]

theorem awaitResponse_ok (h : client.nextFrame link = (.ok (now, raw), link')) {step : Step T}
    (hc : (op.handleFrame now raw).call self = (.ok step, self')) :
    awaitResponse client op lastAttempt strayLeft self link = (.ok (some step), self', link') := by
  rw [awaitResponse.eq_def]
  dsimp only
  rw [h]
  simp only [hc]

theorem awaitResponse_refused (h : client.nextFrame link = (.ok (now, raw), link'))
    (hc : (op.handleFrame now raw).call self = (.error e, self')) :
    awaitResponse client op lastAttempt strayLeft self link =
      match (toPyerr e).cls with
      | .unexpectedCommand => match strayLeft with
        | 0 => (.error (.ttlock (toPyerr e)), self', link')
        | left + 1 => awaitResponse client op lastAttempt left self' link'
      | .crcMismatch =>
          if lastAttempt then (.error (.ttlock (toPyerr e)), self', link')
          else (.ok none, self', link')
      | .ttlockError => (.error (.ttlock (toPyerr e)), self', link') := by
  have hread := awaitResponse.eq_def client op lastAttempt strayLeft self link
  simp only [h, hc] at hread
  exact hread

end

section

variable (op : Operation σ T) (now : Int)

/-- What follows waiting for a response to `payload`, with so many attempts left. -/
def responded {τ : Type} (client : Transport HaError τ) (fuel : Nat) (payload : List UInt8)
    (left : Nat) (awaited : Except HaError (Option (Step T)) × σ × τ) :
    Option (Except HaError T × σ × τ) :=
  let exchanged : Except HaError (Step T) × σ × τ := match awaited with
    | (.error e, self, link) => (.error e, self, link)
    | (.ok (some step), self, link) => (.ok step, self, link)
    | (.ok none, self, link) => asyncExchange client op payload left self link
  match exchanged with
  | (.error e, self, link) => some (.error e, self, link)
  | (.ok step, self, link) => asyncSteps client op fuel step self link

theorem asyncSteps_write {fuel : Nat} (payload : List UInt8) (self : σ) (link : ScriptedLink) :
    asyncSteps (ScriptedLink.transport .transient now) op (fuel + 1) (.write payload) self link =
      responded op (ScriptedLink.transport .transient now) fuel payload CRC_RETRIES
        (awaitResponse (ScriptedLink.transport .transient now) op false MAX_STRAY_FRAMES self
          { link with events := link.events ++ [.sent payload] }) := by
  rw [asyncSteps]
  rfl

theorem asyncExchange_succ {fuel : Nat} (payload : List UInt8) (left : Nat) (self : σ)
    (link : ScriptedLink) :
    responded op (ScriptedLink.transport .transient now) fuel payload (left + 1)
        (.ok none, self, link) =
      responded op (ScriptedLink.transport .transient now) fuel payload left
        (awaitResponse (ScriptedLink.transport .transient now) op (left = 0) MAX_STRAY_FRAMES self
          { link with events := link.events ++ [.sent payload] }) := by
  rw [responded]
  rfl

/-- From where `_async_exchange` waits for a response it does what the machine does. -/
theorem awaitResponse_scripted {fuel : Nat} {script : List (List UInt8)}
    (hfuel : script.length ≤ fuel) (payload : List UInt8) (strayLeft left : Nat) (self : σ)
    (events : List (Retry.Event (List UInt8) (List UInt8))) :
    let client := ScriptedLink.transport .transient now
    let outcome := Retry.attend policy.restarting (op.machine now) payload strayLeft left self script
    ∃ self' script', responded op client fuel payload left
        (awaitResponse client op (left = 0) strayLeft self ⟨script, events⟩) =
      some (endingRaised outcome.ending, self', ⟨script', events ++ outcome.events⟩) := by
  dsimp only
  induction script generalizing fuel payload strayLeft left self events with
  | nil =>
      refine ⟨self, [], ?_⟩
      have hread : (ScriptedLink.transport HaError.transient now).nextFrame ⟨[], events⟩ =
          (.error .transient, ⟨[], events⟩) := rfl
      rw [awaitResponse_error hread]
      simp [responded, Retry.attend, endingRaised]
  | cons raw script ih =>
      have hread : (ScriptedLink.transport HaError.transient now).nextFrame ⟨raw :: script, events⟩ =
          (.ok (now, raw), ⟨script, events ++ [.got raw]⟩) := rfl
      have hscript : script.length ≤ fuel := Nat.le_of_succ_le hfuel
      rw [Retry.attend]
      rcases hc : (op.handleFrame now raw).call self with ⟨e | next | output, self'⟩
      · rw [awaitResponse_refused hread hc, Operation.machine_error hc, toPyerr_cls]
        rcases e.kind_cases with ⟨hs, hr⟩ | ⟨hs, hr⟩ | ⟨hs, hr⟩
        · simp only [hs, if_true]
          cases strayLeft with
          | zero => exact ⟨self', script, rfl⟩
          | succ strayLeft =>
              obtain ⟨self'', script', h⟩ := ih hscript payload strayLeft left self'
                (events ++ [.got raw])
              exact ⟨self'', script', h.trans (by simp)⟩
        · simp only [hs, hr, if_true, Bool.false_eq_true, if_false]
          cases left with
          | zero => exact ⟨self', script, rfl⟩
          | succ left =>
              obtain ⟨self'', script', h⟩ := ih hscript payload MAX_STRAY_FRAMES left self'
                (events ++ [.got raw] ++ [.sent payload])
              refine ⟨self'', script', ?_⟩
              simp only [Nat.add_eq_zero_iff, Nat.one_ne_zero, and_false, decide_false,
                Bool.false_eq_true, if_false]
              rw [asyncExchange_succ, h]
              simp [policy, Retry.Bounds.restarting]
        · simp only [hs, hr, Bool.false_eq_true, if_false]
          exact ⟨self', script, rfl⟩
      · rw [awaitResponse_ok hread hc, Operation.machine_send hc]
        obtain ⟨fuel, rfl⟩ := Nat.exists_eq_add_one_of_ne_zero
          (Nat.ne_of_gt (Nat.lt_of_lt_of_le (Nat.succ_pos _) hfuel))
        obtain ⟨self'', script', h⟩ := ih (Nat.le_of_succ_le_succ hfuel) next MAX_STRAY_FRAMES
          CRC_RETRIES self' (events ++ [.got raw] ++ [.sent next])
        refine ⟨self'', script', ?_⟩
        show asyncSteps _ op (fuel + 1) (.write next) self' _ = _
        rw [asyncSteps_write]
        refine h.trans ?_
        simp [policy, Retry.Bounds.restarting]
      · rw [awaitResponse_ok hread hc, Operation.machine_done hc]
        refine ⟨self', script, ?_⟩
        cases fuel <;> rfl

end

/-- `_async_drive` over a script: its result, and what it wrote and read. -/
def asyncOver (op : Operation σ T) (now : Int) (self : σ) (script : List (List UInt8)) (fuel : Nat) :
    Option (Except HaError T × List (Retry.Event (List UInt8) (List UInt8))) :=
  (asyncDrive (ScriptedLink.transport .transient now) op fuel self ⟨script, []⟩).map
    fun (result, _, link) => (result, link.events)

theorem asyncOver_eq_attend {op : Operation σ T} (now : Int) {self self' : σ}
    {script : List (List UInt8)} {fuel : Nat} (hfuel : script.length < fuel) {frame : List UInt8}
    (h : op.start.call self = (.ok (.write frame), self')) :
    let outcome :=
      Retry.attend policy.restarting (op.machine now) frame policy.stray policy.corrupt self' script
    asyncOver op now self script fuel =
      some ((endingRaised outcome.ending).mapError raised, .sent frame :: outcome.events) := by
  intro outcome
  obtain ⟨fuel, rfl⟩ := Nat.exists_eq_add_one_of_ne_zero (Nat.ne_zero_of_lt hfuel)
  obtain ⟨self'', script', hawait⟩ := awaitResponse_scripted op now (Nat.le_of_lt_succ hfuel) frame
    MAX_STRAY_FRAMES CRC_RETRIES self' [.sent frame]
  rw [asyncOver, asyncDrive, h]
  dsimp only
  rw [asyncSteps_write]
  exact congrArg _ (congrArg _ hawait)

/-- The drivers end the same way: with the same output, for an error of the same variant, or for
    nothing having arrived. -/
def EndAlike : Except CliError T → Except HaError T → Prop
  | .ok output, .ok output' => output = output'
  | .error (.core e), .error (.homeAssistantError cause) => e.ctorIdx = cause.error.ctorIdx
  | .error .timeout, .error .transient => True
  | _, _ => False

/-- Over the script both drivers write the same frames, read the same frames and end the same way. -/
def DriversAgree (op : Operation σ T) (now : Int) (self : σ) (script : List (List UInt8)) (fuel : Nat) :
    Prop :=
  ∃ result result' events events', op.overScript now self script fuel = some (result, events) ∧
    asyncOver op now self script fuel = some (result', events') ∧
    Retry.sentOf events = Retry.sentOf events' ∧ Retry.gotOf events = Retry.gotOf events' ∧
    EndAlike result result'

theorem toPyerr_error (e : TtlockError) : (toPyerr e).error = e := by
  cases e <;> rfl

theorem endAlike_ending (ending : Retry.Ending T TtlockError) :
    EndAlike (endingResult ending) ((endingRaised ending).mapError raised) := by
  cases ending with
  | done output => exact rfl
  | failed e => exact congrArg TtlockError.ctorIdx (toPyerr_error e).symm
  | ranOut => trivial

/-- **The two drivers agree** unless an exchange ends, for `run_op`, at a stray frame after a re-send
    that another stray frame came before. -/
theorem drivers_agree_iff (op : Operation σ T) (now : Int) (self : σ) (script : List (List UInt8))
    {fuel : Nat} (hfuel : script.length < fuel) :
    DriversAgree op now self script fuel ↔ Retry.NoSecondWave policy (op.exchanges now self script) := by
  by_cases hw : ∃ frame self', op.start.call self = (.ok (.write frame), self')
  · obtain ⟨frame, self', hw⟩ := hw
    have hover := Operation.overScript_eq_attend now hfuel hw
    have hover' := asyncOver_eq_attend now hfuel hw
    have hexchanges : op.exchanges now self script =
        Retry.exchanges (op.machine now) frame self' script := by rw [Operation.exchanges, hw]
    rw [hexchanges]
    constructor
    · rintro ⟨result, result', events, events', hcli, hha, hsent, hgot, halike⟩
      by_contra hwave
      obtain ⟨⟨e, hfailed⟩, extra, hextra, hran⟩ := Retry.attend_restarting_reads_on _ _ _ _ hwave
      rw [show policy.keeping = policy from rfl] at hfailed hextra
      obtain ⟨rfl, rfl⟩ := Prod.mk.inj (Option.some.inj (hover.symm.trans hcli))
      obtain ⟨rfl, rfl⟩ := Prod.mk.inj (Option.some.inj (hover'.symm.trans hha))
      -- what Home Assistant goes on to read would show, so it waits in vain where `run_op` fails
      rw [hextra, ← List.cons_append] at hsent hgot
      rw [hran (Retry.eq_nil_of_sentOf_gotOf hsent.symm hgot.symm), hfailed] at halike
      exact halike
    · intro hwave
      have hsame := Retry.attend_restarting_eq _ _ _ _ hwave
      rw [show policy.keeping = policy from rfl] at hsame
      rw [hsame] at hover'
      exact ⟨_, _, _, _, hover, hover', rfl, rfl, endAlike_ending _⟩
  · have hnone : op.exchanges now self script = [] := by
      obtain ⟨-, -, hnone, -⟩ :=
        Operation.overScript_of_no_write now fuel fun frame self' h => hw ⟨frame, self', h⟩
      exact hnone script
    have hwave : Retry.NoSecondWave policy (op.exchanges now self script) := by
      intro pre x post before r after heq
      rw [hnone] at heq
      exact absurd heq.symm (by simp)
    refine iff_of_true ?_ hwave
    unfold DriversAgree Operation.overScript asyncOver Transport.runOp asyncDrive
    rcases hstart : op.start.call self with ⟨e | frame | output, self'⟩
    · exact ⟨_, _, [], [], rfl, rfl, rfl, rfl, congrArg TtlockError.ctorIdx (toPyerr_error e).symm⟩
    · exact absurd ⟨frame, self', hstart⟩ hw
    · refine ⟨.ok output, .ok output, [], [], ?_, ?_, rfl, rfl, rfl⟩
      · cases fuel <;> rfl
      · cases fuel <;> rfl

/-- A push, a corrupted reply, and what the lock answers when asked again. -/
def samplePush : List UInt8 := sampleReply [COMM_UNLOCK, 1, 0, 0]
def sampleStatus : List UInt8 := sampleReply [COMM_SEARCH_BICYCLE_STATUS, 1, 99, 0]
def sampleCorrupted : List UInt8 := sampleStatus.set 28 0

/-- One push and one re-send. -/
theorem drivers_agree_push_and_corruption :
    DriversAgree (StatusOp.operation aes128Cbc) 0 (.new sampleKey .default)
      [samplePush, sampleCorrupted, sampleStatus] 4 := by
  have hshort : ∀ x ∈ (StatusOp.operation aes128Cbc).exchanges 0 (.new sampleKey .default)
      [samplePush, sampleCorrupted, sampleStatus], x.rejected.length ≤ 4 := by decide +kernel
  refine (drivers_agree_iff _ 0 _ _ (by decide)).2 fun pre x post before r after heq _ hafter hover hr => ?_
  -- a fifth stray frame is not among so few
  have hlength := hshort x (heq ▸ List.mem_append_right _ List.mem_cons_self)
  rcases hover with ⟨-, hstray, -⟩ | ⟨hcorrupt, -, -⟩
  · have hcount : Retry.count .stray before ≤ before.length := List.countP_le_length
    rw [hafter, List.length_append, List.length_cons] at hlength
    have hfour : MAX_STRAY_FRAMES = 4 := rfl
    change Retry.count .stray before = MAX_STRAY_FRAMES at hstray
    omega
  · cases hr.symm.trans hcorrupt

/-- Three pushes on either side of a corrupted reply: `run_op` gives up at the fifth, Home Assistant
    reads on to the reply. -/
theorem drivers_disagree :
    let script := [samplePush, samplePush, samplePush, sampleCorrupted,
      samplePush, samplePush, samplePush, sampleStatus]
    ((StatusOp.operation aes128Cbc).overScript 0 (.new sampleKey .default) script 9).map Prod.fst =
        some (.error (.core (.unexpectedCommand COMM_SEARCH_BICYCLE_STATUS COMM_UNLOCK))) ∧
      (asyncOver (StatusOp.operation aes128Cbc) 0 (.new sampleKey .default) script 9).map Prod.fst =
        some (.ok .locked) ∧
      ¬DriversAgree (StatusOp.operation aes128Cbc) 0 (.new sampleKey .default) script 9 := by
  intro script
  have hcli : ((StatusOp.operation aes128Cbc).overScript 0 (.new sampleKey .default) script 9).map
      Prod.fst =
      some (.error (.core (.unexpectedCommand COMM_SEARCH_BICYCLE_STATUS COMM_UNLOCK))) := by
    decide +kernel
  have hha : (asyncOver (StatusOp.operation aes128Cbc) 0 (.new sampleKey .default) script 9).map
      Prod.fst = some (.ok .locked) := by
    decide +kernel
  refine ⟨hcli, hha, ?_⟩
  rintro ⟨result, result', events, events', hover, hover', -, -, halike⟩
  rw [hover] at hcli
  rw [hover'] at hha
  obtain rfl := Option.some.inj hcli
  obtain rfl := Option.some.inj hha
  exact halike

end HomeAssistant

end TTLock
