import TTLock.Cli.Transport
import TTLock.Core.Proofs.Ops

set_option autoImplicit false

/-! # Driving an operation

Over a script `run_op` does what driving the operation as a machine with retries does
(`drive_scripted`), so what that library says of exchanges holds of it: noise within the policy's bounds
is not noticed, and beyond them it ends the run where it is. Over a `Link` it is `runOp`
(`runOp_recorded`). -/

namespace TTLock

variable {σ T : Type}

/-! ## An operation as a machine with retries -/

/-- What an answer of the operation comes to, at a fixed clock. -/
def Operation.machine (op : Operation σ T) (now : Int) (self : σ) (raw : List UInt8) :
    Retry.Verdict (List UInt8) T TtlockError × σ :=
  match (op.handleFrame now raw).call self with
  | (.ok (.write next), self) => (.send next, self)
  | (.ok (.done output), self) => (.done output, self)
  | (.error e, self) =>
      (if e.isStaleFrame then .rejected .stray e
       else if e.isRetryable then .rejected .corrupt e
       else .fatal e, self)

/-- The bounds of `policy.rs`, over a whole exchange. -/
def policy : Retry.Bounds := ⟨MAX_STRAY_FRAMES, CRC_RETRIES, false⟩

/-- What the CLI makes of the end of a script. -/
def endingResult : Retry.Ending T TtlockError → Except CliError T
  | .done output => .ok output
  | .failed e => .error (.core e)
  | .ranOut => .error .timeout

section

variable {op : Operation σ T} {now : Int} {self self' : σ} {raw : List UInt8}

theorem Operation.machine_send {next : List UInt8}
    (hc : (op.handleFrame now raw).call self = (.ok (.write next), self')) :
    op.machine now self raw = (.send next, self') := by
  rw [machine, hc]

theorem Operation.machine_done {output : T}
    (hc : (op.handleFrame now raw).call self = (.ok (.done output), self')) :
    op.machine now self raw = (.done output, self') := by
  rw [machine, hc]

theorem Operation.machine_error {e : TtlockError}
    (hc : (op.handleFrame now raw).call self = (.error e, self')) :
    op.machine now self raw = (if e.isStaleFrame then .rejected .stray e
      else if e.isRetryable then .rejected .corrupt e else .fatal e, self') := by
  rw [machine, hc]

end

/-- An error is a reason to discard a frame, to send one again, or neither. -/
theorem TtlockError.kind_cases (e : TtlockError) :
    (e.isStaleFrame = true ∧ e.isRetryable = false) ∨
      (e.isStaleFrame = false ∧ e.isRetryable = true) ∨
      (e.isStaleFrame = false ∧ e.isRetryable = false) := by
  cases e <;> simp [isStaleFrame, isRetryable]

namespace Transport

/-! ## One frame of the inner loop -/

section

variable {τ : Type} {L : Transport CliError τ} {op : Operation σ T} {now : Int} {raw : List UInt8}
  {resend : Option (Nat → σ → τ → Except CliError (Step T) × σ × τ)} {strayLeft : Nat}
  {self self' : σ} {link link' : τ} {e : TtlockError}

theorem readReply_error {e : CliError} (h : L.nextFrame link = (.error e, link')) :
    readReply L op resend strayLeft self link = (.error e, self, link') := by
  rw [readReply.eq_def]
  dsimp only
  rw [h]

theorem readReply_ok (h : L.nextFrame link = (.ok (now, raw), link')) {next : Step T}
    (hc : (op.handleFrame now raw).call self = (.ok next, self')) :
    readReply L op resend strayLeft self link = (.ok next, self', link') := by
  rw [readReply.eq_def]
  dsimp only
  rw [h]
  simp only [hc]

theorem readReply_refused (h : L.nextFrame link = (.ok (now, raw), link'))
    (hc : (op.handleFrame now raw).call self = (.error e, self')) :
    readReply L op resend strayLeft self link =
      match e.isStaleFrame, strayLeft with
      | true, left + 1 => readReply L op resend left self' link'
      | _, _ => match e.isRetryable, resend with
        | true, some resend => resend strayLeft self' link'
        | _, _ => (.error (.core e), self', link') := by
  have hread := readReply.eq_def L op resend strayLeft self link
  simp only [h, hc] at hread
  exact hread

end

section

variable (op : Operation σ T) (now : Int)

/-- The loop that is entered again when a frame is to be sent again. -/
def resendOf {τ : Type} (L : Transport CliError τ) (frame : List UInt8) :
    (crcLeft : Nat) → Option (Nat → σ → τ → Except CliError (Step T) × σ × τ)
  | 0 => none
  | left + 1 => some (exchange L op frame left)

/-- What the outer loop makes of an exchange. -/
def continued {τ : Type} (L : Transport CliError τ) (fuel : Nat)
    (exchanged : Except CliError (Step T) × σ × τ) : Option (Except CliError T × σ × τ) :=
  match exchanged with
  | (.error e, self, link) => some (.error e, self, link)
  | (.ok next, self, link) => drive L op fuel next self link

theorem exchange_scripted (frame : List UInt8) (crcLeft strayLeft : Nat) (self : σ)
    (link : ScriptedLink) :
    exchange (ScriptedLink.transport .timeout now) op frame crcLeft strayLeft self link =
      readReply (ScriptedLink.transport .timeout now) op
        (resendOf op (ScriptedLink.transport .timeout now) frame crcLeft) strayLeft self
        { link with events := link.events ++ [.sent frame] } := by
  cases crcLeft <;> rfl

theorem drive_write {τ : Type} (L : Transport CliError τ) (fuel : Nat) (frame : List UInt8) (self : σ)
    (link : τ) :
    drive L op (fuel + 1) (.write frame) self link =
      continued op L fuel (exchange L op frame CRC_RETRIES MAX_STRAY_FRAMES self link) := by
  rw [drive]
  rfl

/-- From where `run_op` waits for a reply it does what the machine does. The induction is on the
    script: every frame read leads back to waiting, in the same exchange or in the next. -/
theorem readReply_scripted {fuel : Nat} {script : List (List UInt8)} (hfuel : script.length ≤ fuel)
    (frame : List UInt8) (strayLeft crcLeft : Nat) (self : σ)
    (events : List (Retry.Event (List UInt8) (List UInt8))) :
    let L := ScriptedLink.transport .timeout now
    let outcome := Retry.attend policy (op.machine now) frame strayLeft crcLeft self script
    ∃ self' script', continued op L fuel
        (readReply L op (resendOf op L frame crcLeft) strayLeft self ⟨script, events⟩) =
      some (endingResult outcome.ending, self', ⟨script', events ++ outcome.events⟩) := by
  dsimp only
  induction script generalizing fuel frame strayLeft crcLeft self events with
  | nil =>
      refine ⟨self, [], ?_⟩
      rw [readReply.eq_def]
      simp [ScriptedLink.transport, continued, Retry.attend, endingResult]
  | cons raw script ih =>
      have hread : (ScriptedLink.transport CliError.timeout now).nextFrame ⟨raw :: script, events⟩ =
          (.ok (now, raw), ⟨script, events ++ [.got raw]⟩) := rfl
      have hscript : script.length ≤ fuel := Nat.le_of_succ_le hfuel
      rw [Retry.attend]
      rcases hc : (op.handleFrame now raw).call self with ⟨e | next | output, self'⟩
      · rw [readReply_refused hread hc, Operation.machine_error hc]
        rcases e.kind_cases with ⟨hs, hr⟩ | ⟨hs, hr⟩ | ⟨hs, hr⟩
        · simp only [hs, hr, if_true]
          cases strayLeft with
          | zero => exact ⟨self', script, rfl⟩
          | succ left =>
              obtain ⟨self'', script', h⟩ := ih hscript frame left crcLeft self' (events ++ [.got raw])
              exact ⟨self'', script', h.trans (by simp)⟩
        · simp only [hs, hr, if_true, Bool.false_eq_true, if_false]
          cases crcLeft with
          | zero => exact ⟨self', script, rfl⟩
          | succ left =>
              obtain ⟨self'', script', h⟩ := ih hscript frame strayLeft left self'
                (events ++ [.got raw] ++ [.sent frame])
              refine ⟨self'', script', ?_⟩
              simp only [resendOf]
              rw [exchange_scripted, h]
              simp [policy]
        · simp only [hs, hr, Bool.false_eq_true, if_false]
          exact ⟨self', script, rfl⟩
      · rw [readReply_ok hread hc, Operation.machine_send hc]
        obtain ⟨fuel, rfl⟩ := Nat.exists_eq_add_one_of_ne_zero
          (Nat.ne_of_gt (Nat.lt_of_lt_of_le (Nat.succ_pos _) hfuel))
        obtain ⟨self'', script', h⟩ := ih (Nat.le_of_succ_le_succ hfuel) next MAX_STRAY_FRAMES
          CRC_RETRIES self' (events ++ [.got raw] ++ [.sent next])
        refine ⟨self'', script', ?_⟩
        show drive _ op (fuel + 1) (.write next) self' _ = _
        rw [drive_write, exchange_scripted, h]
        simp [policy]
      · rw [readReply_ok hread hc, Operation.machine_done hc]
        refine ⟨self', script, ?_⟩
        cases fuel <;> rfl

/-- Over a script `run_op` does what the machine does, once it has its first frame. -/
theorem drive_scripted {fuel : Nat} {script : List (List UInt8)} (hfuel : script.length < fuel)
    (frame : List UInt8) (self : σ) (events : List (Retry.Event (List UInt8) (List UInt8))) :
    let outcome := Retry.attend policy (op.machine now) frame policy.stray policy.corrupt self script
    ∃ self' script', drive (ScriptedLink.transport .timeout now) op fuel (.write frame) self
        ⟨script, events⟩ =
      some (endingResult outcome.ending, self', ⟨script', events ++ .sent frame :: outcome.events⟩) := by
  obtain ⟨fuel, rfl⟩ := Nat.exists_eq_add_one_of_ne_zero (Nat.ne_zero_of_lt hfuel)
  obtain ⟨self', script', h⟩ := readReply_scripted op now (Nat.le_of_lt_succ hfuel) frame
    MAX_STRAY_FRAMES CRC_RETRIES self (events ++ [.sent frame])
  refine ⟨self', script', ?_⟩
  rw [drive_write, exchange_scripted, h]
  simp [policy]

end

/-! ## Over a `Link` -/

section

variable (op : Operation σ T) {d : Except String Unit}

/-- Writing is the same over a `Link` if what follows it is. -/
theorem exchange_recorded {fuel : Nat} {frame : List UInt8} {crcLeft strayLeft : Nat} {self : σ}
    {reads : List (Except CliError (Int × List UInt8))}
    {next : List (Except CliError Unit) → Driven T}
    (hnext : ∀ writes written, ∃ self' link', continued op Recorded.transport fuel
        (readReply Recorded.transport op (resendOf op Recorded.transport frame crcLeft) strayLeft self
          ⟨⟨writes, reads, d⟩, written⟩) =
      some ((next writes).result, self', ⟨link', written ++ (next writes).written⟩))
    (writes : List (Except CliError Unit)) (written : List (List UInt8)) :
    ∃ self' link', continued op Recorded.transport fuel
        (exchange Recorded.transport op frame crcLeft strayLeft self ⟨⟨writes, reads, d⟩, written⟩) =
      some ((TTLock.writeFrame frame writes next).result, self',
        ⟨link', written ++ (TTLock.writeFrame frame writes next).written⟩) := by
  rcases writes with _ | ⟨e | ⟨⟩, writes⟩
  · exact ⟨self, _, by cases crcLeft <;> rfl⟩
  · exact ⟨self, _, by cases crcLeft <;> rfl⟩
  · obtain ⟨self', link', h⟩ := hnext writes (written ++ [frame])
    refine ⟨self', link', ?_⟩
    have hwrite : exchange Recorded.transport op frame crcLeft strayLeft self
        ⟨⟨.ok () :: writes, reads, d⟩, written⟩ =
        readReply Recorded.transport op (resendOf op Recorded.transport frame crcLeft) strayLeft self
          ⟨⟨writes, reads, d⟩, written ++ [frame]⟩ := by
      cases crcLeft <;> rfl
    rw [hwrite, h]
    simp [TTLock.writeFrame]

theorem readReply_recorded {fuel : Nat} {reads : List (Except CliError (Int × List UInt8))}
    (hfuel : reads.length ≤ fuel) {frame : List UInt8} {crcRetries crcLeft strayFrames strayLeft : Nat}
    (hcrc : crcRetries + crcLeft = CRC_RETRIES) (hstray : strayFrames + strayLeft = MAX_STRAY_FRAMES)
    (self : σ) (writes : List (Except CliError Unit)) (written : List (List UInt8)) :
    ∃ self' link', continued op Recorded.transport fuel
        (readReply Recorded.transport op (resendOf op Recorded.transport frame crcLeft) strayLeft self
          ⟨⟨writes, reads, d⟩, written⟩) =
      some ((awaitReply op frame crcRetries strayFrames self writes reads).result, self',
        ⟨link', written ++ (awaitReply op frame crcRetries strayFrames self writes reads).written⟩) := by
  induction reads generalizing fuel frame crcRetries crcLeft strayFrames strayLeft self writes written with
  | nil =>
      have hread : Recorded.transport.nextFrame ⟨⟨writes, [], d⟩, written⟩ =
          (.error .timeout, ⟨⟨writes, [], d⟩, written⟩) := rfl
      rw [readReply_error hread]
      exact ⟨self, ⟨writes, [], d⟩, by simp [continued, awaitReply]⟩
  | cons outcome reads ih =>
      have hreads : reads.length ≤ fuel := Nat.le_of_succ_le hfuel
      rcases outcome with e | ⟨now, raw⟩
      · have hread : Recorded.transport.nextFrame ⟨⟨writes, .error e :: reads, d⟩, written⟩ =
            (.error e, ⟨⟨writes, reads, d⟩, written⟩) := rfl
        rw [readReply_error hread]
        exact ⟨self, ⟨writes, reads, d⟩, by simp [continued, awaitReply]⟩
      · have hread : Recorded.transport.nextFrame ⟨⟨writes, .ok (now, raw) :: reads, d⟩, written⟩ =
            (.ok (now, raw), ⟨⟨writes, reads, d⟩, written⟩) := rfl
        rw [awaitReply]
        rcases hc : (op.handleFrame now raw).call self with ⟨e | next | output, self'⟩
        · rw [readReply_refused hread hc]
          rcases e.kind_cases with ⟨hs, hr⟩ | ⟨hs, hr⟩ | ⟨hs, hr⟩
          · simp only [hs, hr]
            cases strayLeft with
            | zero =>
                have hlimit : ¬strayFrames < MAX_STRAY_FRAMES := by omega
                exact ⟨self', ⟨writes, reads, d⟩, by simp [continued, hlimit]⟩
            | succ left =>
                have hlimit : strayFrames < MAX_STRAY_FRAMES := by omega
                simp only [hlimit, decide_true, Bool.and_self, if_true]
                exact ih hreads hcrc (by omega) self' writes written
          · simp only [hs, hr, Bool.false_and, Bool.false_eq_true, if_false, Bool.true_and,
              decide_eq_true_eq]
            cases crcLeft with
            | zero =>
                have hlimit : ¬crcRetries < CRC_RETRIES := by omega
                exact ⟨self', ⟨writes, reads, d⟩, by simp [continued, resendOf, hlimit]⟩
            | succ left =>
                have hlimit : crcRetries < CRC_RETRIES := by omega
                rw [if_pos hlimit]
                exact exchange_recorded op
                  (fun writes written => ih hreads (by omega) hstray self' writes written) writes written
          · simp only [hs, hr, Bool.false_and, Bool.false_eq_true, if_false]
            exact ⟨self', ⟨writes, reads, d⟩, by simp [continued]⟩
        · rw [readReply_ok hread hc]
          obtain ⟨fuel, rfl⟩ := Nat.exists_eq_add_one_of_ne_zero
            (Nat.ne_of_gt (Nat.lt_of_lt_of_le (Nat.succ_pos _) hfuel))
          show ∃ self' link', drive _ op (fuel + 1) (.write next) _ _ = _
          rw [drive_write]
          exact exchange_recorded op (fun writes written => ih (Nat.le_of_succ_le_succ hfuel)
            (Nat.zero_add _) (Nat.zero_add _) self' writes written) writes written
        · rw [readReply_ok hread hc]
          refine ⟨self', ⟨writes, reads, d⟩, ?_⟩
          cases fuel <;> simp [continued, drive]

/-- Over a `Link` the loops do what `runOp` does. -/
theorem runOp_recorded {fuel : Nat} (link : Link) (hfuel : link.reads.length < fuel) (self : σ) :
    ∃ self' link', runOp Recorded.transport op fuel self ⟨link, []⟩ =
      some ((TTLock.runOp op self link).result, self',
        ⟨link', (TTLock.runOp op self link).written⟩) := by
  rw [runOp, TTLock.runOp]
  obtain ⟨fuel, rfl⟩ := Nat.exists_eq_add_one_of_ne_zero (Nat.ne_zero_of_lt hfuel)
  rcases op.start.call self with ⟨e | frame | output, self'⟩
  · exact ⟨self', link, rfl⟩
  · dsimp only
    rw [drive_write]
    obtain ⟨self'', link', h⟩ := exchange_recorded op (d := link.disconnect)
      (fun writes written => readReply_recorded op (Nat.le_of_lt_succ hfuel) (Nat.zero_add _)
        (Nat.zero_add _) self' writes written) link.writes []
    exact ⟨self'', link', h⟩
  · exact ⟨self', link, rfl⟩

end

end Transport

end TTLock
