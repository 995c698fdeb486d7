import TTLock.Cli.Proofs.Transport

set_option autoImplicit false

/-! # Driving an operation through noise

What a script makes an operation do falls into exchanges, one a frame it writes, each with the frames
it refused on the way. As long as no exchange holds more of them than the policy puts up with, the run
ends as if they had never arrived; otherwise it ends at the first of them that is one too many
(`run_op_tolerates_noise`). -/

namespace TTLock

open Retry (Exchange)

variable {σ T : Type}

namespace Operation

variable (op : Operation σ T) (now : Int) (self : σ) (script : List (List UInt8))

/-- `run_op` over a script: its result, and what it wrote and read. -/
def overScript (fuel : Nat) :
    Option (Except CliError T × List (Retry.Event (List UInt8) (List UInt8))) :=
  (Transport.runOp (ScriptedLink.transport .timeout now) op fuel self ⟨script, []⟩).map
    fun (result, _, link) => (result, link.events)

/-- The exchanges of a script, if nothing were bounded. An operation that does not start with a frame
    has none. -/
def exchanges : List (Exchange (List UInt8) (List UInt8) T TtlockError) :=
  match op.start.call self with
  | (.ok (.write frame), self) => Retry.exchanges (op.machine now) frame self script
  | _ => []

/-- The script without the frames that are discarded or answered by a re-send. -/
def cleaned : List (List UInt8) :=
  match op.start.call self with
  | (.ok (.write _), self) => Retry.clean (op.machine now) self script
  | _ => script

/-- The policy is kept to by every exchange of the script. -/
def Bearable : Prop := ∀ x ∈ op.exchanges now self script, x.Within policy

/-- What `run_op` makes of scripts. -/
structure ToleratesNoise : Prop where
  /-- Noise that is borne changes nothing but how often a frame is written: once more for each reply
      that failed its CRC check. -/
  bearable : ∀ now self script fuel, script.length < fuel → op.Bearable now self script →
    ∃ result events events',
      op.overScript now self script fuel = some (result, events) ∧
      op.overScript now self (op.cleaned now self script) fuel = some (result, events') ∧
      Retry.sentOf events' = (op.exchanges now self script).map Exchange.request ∧
      Retry.sentOf events = (op.exchanges now self script).flatMap fun x =>
        List.replicate (1 + Retry.count .corrupt x.rejected) x.request
  /-- Noise that is not borne ends the run at the first frame that is one too many. -/
  unbearable : ∀ now self script fuel, script.length < fuel → ¬op.Bearable now self script →
    ∃ pre x post before r after, op.exchanges now self script = pre ++ x :: post ∧
      (∀ y ∈ pre, y.Within policy) ∧ x.rejected = before ++ r :: after ∧
      Retry.Overruns MAX_STRAY_FRAMES CRC_RETRIES before r ∧
      op.overScript now self script fuel = some (.error (.core r.error),
        (pre ++ [⟨x.request, before, .gaveUp r⟩]).flatMap Exchange.log)
  /-- Whatever the script, the run is made of bounded exchanges, all but the last of which were
      answered. -/
  bounded : ∀ now self script fuel, script.length < fuel →
    let steps := Retry.performed policy (op.exchanges now self script)
    ∃ result, op.overScript now self script fuel = some (result, steps.flatMap Exchange.log) ∧
      (∀ x ∈ steps, (Retry.sentOf x.log).length ≤ 3 ∧ (Retry.gotOf x.log).length ≤ 7) ∧
      (∀ x ∈ steps.dropLast, ∃ raw, x.close = .answered raw) ∧
      ∀ x, steps.getLast? = some x → result = endingResult x.close.ending

variable {op now self script}

/-- An operation that does not start with a frame comes to the same over every script. -/
theorem overScript_of_no_write (now : Int) (fuel : Nat)
    (h : ∀ frame self', op.start.call self ≠ (.ok (.write frame), self')) :
    ∃ result, (∀ script, op.overScript now self script fuel = some (result, [])) ∧
      (∀ script, op.exchanges now self script = []) ∧ ∀ script, op.cleaned now self script = script := by
  unfold overScript Transport.runOp exchanges cleaned
  rcases hstart : op.start.call self with ⟨e | frame | output, self'⟩
  · exact ⟨.error (.core e), fun _ => rfl, fun _ => rfl, fun _ => rfl⟩
  · exact absurd hstart (h frame self')
  · exact ⟨.ok output, fun _ => by cases fuel <;> rfl, fun _ => rfl, fun _ => rfl⟩

/-- One that does is driven like a machine. -/
theorem overScript_eq_attend (now : Int) {fuel : Nat} (hfuel : script.length < fuel) {frame : List UInt8}
    {self' : σ} (h : op.start.call self = (.ok (.write frame), self')) :
    let outcome := Retry.attend policy (op.machine now) frame policy.stray policy.corrupt self' script
    op.overScript now self script fuel =
      some (endingResult outcome.ending, .sent frame :: outcome.events) := by
  intro outcome
  obtain ⟨self'', script', hdrive⟩ := Transport.drive_scripted op now hfuel frame self' []
  rw [overScript, Transport.runOp, h]
  dsimp only
  rw [hdrive]
  rfl

/-- So it performs the exchanges of the script. -/
theorem overScript_of_write (now : Int) {fuel : Nat} (hfuel : script.length < fuel) {frame : List UInt8}
    {self' : σ} (h : op.start.call self = (.ok (.write frame), self')) :
    let steps := Retry.performed policy (op.exchanges now self script)
    op.overScript now self script fuel =
      some (endingResult (Retry.replay steps).ending, steps.flatMap Exchange.log) := by
  intro steps
  obtain ⟨x, xs, hxs, hx⟩ := Retry.exchanges_eq_cons (op.machine now) frame self' script
  have hexchanges : op.exchanges now self script = x :: xs := by rw [exchanges, h, ← hxs]
  obtain ⟨y, ys, hys, hy⟩ := Retry.performedFrom_eq_cons policy policy.stray policy.corrupt x xs
  have hsteps : steps = y :: ys := by rw [← hys, ← hexchanges]; rfl
  rw [overScript_eq_attend now hfuel h, Retry.attend_eq, hxs, hys, hsteps, ← Retry.replay_log, hy, hx]

theorem exchanges_answered :
    ∀ x ∈ (op.exchanges now self script).dropLast, ∃ raw, x.close = .answered raw := by
  unfold exchanges
  rcases op.start.call self with ⟨e | frame | output, self'⟩
  · exact fun x h => absurd h List.not_mem_nil
  · exact Retry.exchanges_answered (op.machine now) frame self' script
  · exact fun x h => absurd h List.not_mem_nil

/-- Frames the policy puts up with leave an operation where it was. -/
theorem machine_stays
    (hstay : ∀ self now raw e self', (op.handleFrame now raw).call self = (.error e, self') → self' = self)
    (self : σ) (raw : List UInt8) (kind : Retry.Kind) (e : TtlockError) (self' : σ)
    (h : op.machine now self raw = (.rejected kind e, self')) : self' = self := by
  rcases hc : (op.handleFrame now raw).call self with ⟨e' | next | output, self''⟩
  · rw [machine_error hc] at h
    rw [← (Prod.mk.inj h).2]
    exact hstay self now raw e' self'' hc
  · rw [machine_send hc] at h
    cases (Prod.mk.inj h).1
  · rw [machine_done hc] at h
    cases (Prod.mk.inj h).1

/-- Deleting what is discarded or answered by a re-send deletes it from the exchanges. -/
theorem exchanges_cleaned (now : Int) (self : σ) (script : List (List UInt8))
    (hstay : ∀ self now raw e self', (op.handleFrame now raw).call self = (.error e, self') → self' = self) :
    op.exchanges now self (op.cleaned now self script) =
      (op.exchanges now self script).map Exchange.cleaned := by
  unfold exchanges cleaned
  rcases op.start.call self with ⟨e | frame | output, self'⟩
  · rfl
  · exact Retry.exchanges_clean (machine_stays hstay) frame self' script
  · rfl

theorem length_cleaned_le (op : Operation σ T) (now : Int) (self : σ) (script : List (List UInt8)) :
    (op.cleaned now self script).length ≤ script.length := by
  unfold cleaned
  rcases op.start.call self with ⟨e | frame | output, self'⟩
  · exact Nat.le_refl _
  · exact Retry.length_clean_le _ _ _
  · exact Nat.le_refl _

/-- Exchanges that were not cut short come to the result of their last. -/
theorem result_of_last {steps : List (Exchange (List UInt8) (List UInt8) T TtlockError)}
    {x : Exchange (List UInt8) (List UInt8) T TtlockError} (h : steps.getLast? = some x) :
    endingResult (Retry.replay steps).ending = endingResult x.close.ending := by
  obtain ⟨pre, rfl⟩ := List.getLast?_eq_some_iff.1 h
  rw [Retry.replay_ending]

theorem sentOf_steps (steps : List (Exchange (List UInt8) (List UInt8) T TtlockError)) :
    Retry.sentOf (steps.flatMap Exchange.log) =
      steps.flatMap fun x => List.replicate (1 + Retry.count .corrupt x.rejected) x.request := by
  rw [Retry.sentOf_flatMap]
  simp only [Exchange.sentOf_log]

/-- An operation that refusing a frame leaves where it was tolerates noise. -/
theorem toleratesNoise
    (hstay : ∀ self now raw e self', (op.handleFrame now raw).call self = (.error e, self') → self' = self) :
    op.ToleratesNoise where
  bearable now self script fuel hfuel hbear := by
    by_cases hw : ∃ frame self', op.start.call self = (.ok (.write frame), self')
    · obtain ⟨frame, self', hw⟩ := hw
      have hclean : ∀ y ∈ (op.exchanges now self script).map Exchange.cleaned, y.Within policy := by
        intro y hy
        obtain ⟨x, -, rfl⟩ := List.mem_map.1 hy
        exact x.cleaned_within policy
      have hover := overScript_of_write now hfuel hw
      have hover' := overScript_of_write now
        (Nat.lt_of_le_of_lt (length_cleaned_le op now self script) hfuel) hw
      rw [Retry.performed_of_within rfl hbear] at hover
      rw [exchanges_cleaned now self script hstay, Retry.performed_of_within rfl hclean] at hover'
      refine ⟨_, _, ((op.exchanges now self script).map Exchange.cleaned).flatMap Exchange.log, hover,
        ?_, ?_, sentOf_steps _⟩
      · rw [hover', Retry.replay_cleaned_ending]
      · rw [sentOf_steps, List.flatMap_map, List.map_eq_flatMap]
        rfl
    · obtain ⟨result, hover, hnone, hclean⟩ :=
        overScript_of_no_write now fuel fun frame self' h => hw ⟨frame, self', h⟩
      rw [hclean, hnone]
      exact ⟨result, [], [], hover script, hover script, rfl, rfl⟩
  unbearable now self script fuel hfuel hbear := by
    have hw : ∃ frame self', op.start.call self = (.ok (.write frame), self') := by
      by_contra hw
      obtain ⟨result, -, hnone, -⟩ :=
        overScript_of_no_write now fuel fun frame self' h => hw ⟨frame, self', h⟩
      refine hbear fun x hx => ?_
      rw [hnone] at hx
      cases hx
    obtain ⟨frame, self', hw⟩ := hw
    obtain ⟨pre, x, post, hxs, hpre, hx⟩ := Retry.exists_first_overrun hbear
    obtain ⟨before, r, after, hafter, hover, hperformed⟩ :=
      Retry.performed_of_overrun (B := policy) rfl hpre hx post
    refine ⟨pre, x, post, before, r, after, hxs, hpre, hafter, hover, ?_⟩
    rw [overScript_of_write now hfuel hw, hxs, hperformed, Retry.replay_ending]
    rfl
  bounded now self script fuel hfuel := by
    intro steps
    have hsteps : ∀ x ∈ steps, x.Within policy := Retry.performed_bounded rfl _
    have hlengths : ∀ x ∈ steps, (Retry.sentOf x.log).length ≤ 3 ∧ (Retry.gotOf x.log).length ≤ 7 := by
      intro x hx
      obtain ⟨hstray, hcorrupt⟩ : Retry.count .stray x.rejected ≤ 4 ∧
        Retry.count .corrupt x.rejected ≤ 2 := hsteps x hx
      have hgot := x.length_gotOf_log
      rw [x.sentOf_log, List.length_replicate]
      omega
    by_cases hw : ∃ frame self', op.start.call self = (.ok (.write frame), self')
    · obtain ⟨frame, self', hw⟩ := hw
      exact ⟨_, overScript_of_write now hfuel hw, hlengths, Retry.performed_answered exchanges_answered,
        fun x hx => result_of_last hx⟩
    · obtain ⟨result, hover, hnone, -⟩ :=
        overScript_of_no_write now fuel fun frame self' h => hw ⟨frame, self', h⟩
      have hsteps : steps = [] := congrArg (Retry.performed policy) (hnone script)
      rw [hsteps]
      exact ⟨result, hover script, by simp⟩

end Operation

/-- **`run_op` tolerates noise**, whatever the operation and the state it is in. -/
theorem run_op_tolerates_noise (C : Cipher) (chrono : Chrono) :
    (StatusOp.operation C).ToleratesNoise ∧
    (LockOp.operation C).ToleratesNoise ∧ (UnlockOp.operation C).ToleratesNoise ∧
    (LogPageOp.operation C chrono).ToleratesNoise := by
  have hactuate : (ActuateOp.operation C).ToleratesNoise :=
    Operation.toleratesNoise fun _ _ _ _ _ h => ActuateOp.state_of_refused h
  refine ⟨?_, hactuate, hactuate, ?_⟩
  · exact Operation.toleratesNoise fun _ _ _ _ _ h => StatusOp.state_of_refused h
  · exact Operation.toleratesNoise fun _ _ _ _ _ h => LogPageOp.state_of_refused h

end TTLock
