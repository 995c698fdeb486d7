import TTLock.Cli.Proofs.Transport
import TTLock.Core.Proofs.SingleUse

set_option autoImplicit false

/-! # A rule for driving an operation

What holds while a driver waits for the reply to a frame, whatever it waits over. `Rule` asks what one
write and one read do to it; from these two follows how a whole run ends (`Rule.runOp`), with every frame
written at most `CRC_RETRIES + 1` times, and that it does end. -/

namespace TTLock

variable {σ T τ ε : Type}

/-- A refused frame does not count. -/
theorem Operation.CountsDown.rank_refused {op : Operation σ T} {rank : σ → Nat} {k : Nat}
    (h : op.CountsDown rank k) {self self' : σ} {now : Int} {raw : List UInt8} {e : TtlockError}
    (hc : (op.handleFrame now raw).call self = (.error e, self')) : rank self' = rank self := by
  rcases h.handleFrame self now raw with ⟨e', hc'⟩ | ⟨_, _, hc', -⟩ | ⟨_, _, hc', -⟩ <;>
    cases hc.symm.trans hc'
  rfl

namespace Transport

/-- `I n frame self link` is to hold while `frame` is sent, with `n` times that it was written so far. `Q`
    is what a result comes with, and `E` an error; a refused frame may be the last one or not. -/
structure Rule (L : Transport ε τ) (op : Operation σ T) (core : TtlockError → ε)
    (I : Nat → List UInt8 → σ → τ → Prop) (Q : T → σ → τ → Prop)
    (E : ε → σ → τ → Prop) : Prop where
  written : ∀ {n frame self link link'}, n ≤ CRC_RETRIES → I n frame self link →
    L.writeFrame frame link = (.ok (), link') → I (n + 1) frame self link'
  not_written : ∀ {n frame self link e link'}, I n frame self link →
    L.writeFrame frame link = (.error e, link') → E e self link'
  not_read : ∀ {n frame self link e link'}, I n frame self link →
    L.nextFrame link = (.error e, link') → E e self link'
  refused : ∀ {n frame self link now raw link' e self'}, I n frame self link →
    L.nextFrame link = (.ok (now, raw), link') → (op.handleFrame now raw).call self = (.error e, self') →
    I n frame self' link' ∧ E (core e) self' link'
  next : ∀ {n frame self link now raw link' frame' self'}, I n frame self link →
    L.nextFrame link = (.ok (now, raw), link') →
    (op.handleFrame now raw).call self = (.ok (.write frame'), self') → I 0 frame' self' link'
  done : ∀ {n frame self link now raw link' output self'}, I n frame self link →
    L.nextFrame link = (.ok (now, raw), link') →
    (op.handleFrame now raw).call self = (.ok (.done output), self') → Q output self' link'

/-- How a run may end. -/
def Ends (Q : T → σ → τ → Prop) (E : ε → σ → τ → Prop) : Except ε T × σ × τ → Prop
  | (.ok output, self, link) => Q output self link
  | (.error e, self, link) => E e self link

/-- How an exchange may end: `rank` counts the replies that are still to come. -/
def StepEnds (I : Nat → List UInt8 → σ → τ → Prop) (Q : T → σ → τ → Prop)
    (E : ε → σ → τ → Prop) (rank : σ → Nat) (before : Nat) : Except ε (Step T) × σ × τ → Prop
  | (.ok (.write frame), self, link) => I 0 frame self link ∧ 1 ≤ rank self ∧ rank self < before
  | (.ok (.done output), self, link) => Q output self link
  | (.error e, self, link) => E e self link

namespace Rule

variable {L : Transport ε τ} {op : Operation σ T} {core : TtlockError → ε}
  {I : Nat → List UInt8 → σ → τ → Prop} {Q : T → σ → τ → Prop} {E : ε → σ → τ → Prop}
  {rank : σ → Nat} {k : Nat}

/-- An accepted frame ends an exchange as it may. -/
theorem accepted (h : L.Rule op core I Q E) (hcount : op.CountsDown rank k) {n : Nat}
    {frame : List UInt8} {self : σ} {link : τ} (hI : I n frame self link) {now : Int} {raw : List UInt8}
    {link' : τ} (hread : L.nextFrame link = (.ok (now, raw), link')) {step : Step T} {self' : σ}
    (hc : (op.handleFrame now raw).call self = (.ok step, self')) :
    StepEnds I Q E rank (rank self) (.ok step, self', link') := by
  cases step with
  | done output => exact h.done hI hread hc
  | write frame' =>
      refine ⟨h.next hI hread hc, ?_⟩
      rcases hcount.handleFrame self now raw with
        ⟨e, hc'⟩ | ⟨_, _, hc', hone, hrank⟩ | ⟨_, _, hc', -⟩ <;>
        cases hc.symm.trans hc'
      omega

end Rule

end Transport

namespace Transport.Rule

variable {L : Transport CliError τ} {op : Operation σ T} {I : Nat → List UInt8 → σ → τ → Prop}
  {Q : T → σ → τ → Prop} {E : CliError → σ → τ → Prop} {rank : σ → Nat} {k : Nat}

/-- What a re-send may come to, once the frame was written `n` times. -/
def Resends (I : Nat → List UInt8 → σ → τ → Prop) (Q : T → σ → τ → Prop)
    (E : CliError → σ → τ → Prop) (rank : σ → Nat) (before n : Nat) (frame : List UInt8)
    (resend : Option (Nat → σ → τ → Except CliError (Step T) × σ × τ)) : Prop :=
  ∀ again, resend = some again → ∀ strayLeft self link, rank self = before → I n frame self link →
    StepEnds I Q E rank before (again strayLeft self link)

/-- What is made of an error that skips no frame. -/
def unskipped (resend : Option (Nat → σ → τ → Except CliError (Step T) × σ × τ)) (e : TtlockError)
    (strayLeft : Nat) (self : σ) (link : τ) : Except CliError (Step T) × σ × τ :=
  match e.isRetryable, resend with
  | true, some resend => resend strayLeft self link
  | _, _ => (.error (.core e), self, link)

/-- It has the last frame sent again, or ends the run. -/
theorem not_skipped (h : L.Rule op .core I Q E) (hcount : op.CountsDown rank k) {n : Nat}
    {frame : List UInt8} {before : Nat}
    {resend : Option (Nat → σ → τ → Except CliError (Step T) × σ × τ)}
    (hresend : Resends I Q E rank before n frame resend) {self : σ} {link : τ}
    (hrank : rank self = before) (hI : I n frame self link) {now : Int} {raw : List UInt8} {link' : τ}
    (hread : L.nextFrame link = (.ok (now, raw), link')) {e : TtlockError} {self' : σ}
    (hc : (op.handleFrame now raw).call self = (.error e, self')) (strayLeft : Nat) :
    StepEnds I Q E rank before (unskipped resend e strayLeft self' link') := by
  obtain ⟨hI', hE⟩ := h.refused hI hread hc
  unfold unskipped
  rcases hres : resend with _ | again
  · cases e.isRetryable <;> exact hE
  · cases e.isRetryable with
    | false => exact hE
    | true => exact hresend again hres strayLeft self' link' ((hcount.rank_refused hc).trans hrank) hI'

/-- The inner loop, given what a re-send comes to. -/
theorem readReply (h : L.Rule op .core I Q E) (hcount : op.CountsDown rank k) {n : Nat}
    {frame : List UInt8} {before : Nat}
    {resend : Option (Nat → σ → τ → Except CliError (Step T) × σ × τ)}
    (hresend : Resends I Q E rank before n frame resend) (strayLeft : Nat) {self : σ} {link : τ}
    (hrank : rank self = before) (hI : I n frame self link) :
    StepEnds I Q E rank before (Transport.readReply L op resend strayLeft self link) := by
  induction strayLeft generalizing self link with
  | zero =>
      rcases hread : L.nextFrame link with ⟨e | ⟨now, raw⟩, link'⟩
      · rw [readReply_error hread]
        exact h.not_read hI hread
      · rcases hc : (op.handleFrame now raw).call self with ⟨e | step, self'⟩
        · rw [readReply_refused hread hc]
          cases e.isStaleFrame <;> exact h.not_skipped hcount hresend hrank hI hread hc 0
        · rw [readReply_ok hread hc]
          exact hrank ▸ h.accepted hcount hI hread hc
  | succ left ih =>
      rcases hread : L.nextFrame link with ⟨e | ⟨now, raw⟩, link'⟩
      · rw [readReply_error hread]
        exact h.not_read hI hread
      · rcases hc : (op.handleFrame now raw).call self with ⟨e | step, self'⟩
        · rw [readReply_refused hread hc]
          cases e.isStaleFrame with
          | false => exact h.not_skipped hcount hresend hrank hI hread hc (left + 1)
          | true => exact ih ((hcount.rank_refused hc).trans hrank) (h.refused hI hread hc).1
        · rw [readReply_ok hread hc]
          exact hrank ▸ h.accepted hcount hI hread hc

/-- The loop around it. The induction is on the re-sends that are left. -/
theorem exchange (h : L.Rule op .core I Q E) (hcount : op.CountsDown rank k) (frame : List UInt8)
    {before : Nat} (crcLeft : Nat) : ∀ {n : Nat}, n + crcLeft = CRC_RETRIES →
      ∀ (strayLeft : Nat) (self : σ) (link : τ), rank self = before → I n frame self link →
        StepEnds I Q E rank before (Transport.exchange L op frame crcLeft strayLeft self link) := by
  induction crcLeft with
  | zero =>
      intro n hn strayLeft self link hrank hI
      rw [Transport.exchange]
      rcases hwrite : L.writeFrame frame link with ⟨e | ⟨⟩, link'⟩
      · exact h.not_written hI hwrite
      · exact h.readReply hcount (fun again hagain => by cases hagain) strayLeft hrank
          (h.written (by omega) hI hwrite)
  | succ left ih =>
      intro n hn strayLeft self link hrank hI
      rw [Transport.exchange]
      rcases hwrite : L.writeFrame frame link with ⟨e | ⟨⟩, link'⟩
      · exact h.not_written hI hwrite
      · refine h.readReply hcount (n := n + 1) ?_ strayLeft hrank (h.written (by omega) hI hwrite)
        rintro again hagain
        cases hagain
        exact ih (by omega)

/-- The outer loop: every reply counts the rank down, so the fuel lasts. -/
theorem drive (h : L.Rule op .core I Q E) (hcount : op.CountsDown rank k) (fuel : Nat) {frame : List UInt8}
    {self : σ} {link : τ} (hone : 1 ≤ rank self) (hfuel : rank self ≤ fuel) (hI : I 0 frame self link) :
    ∃ ended, Transport.drive L op fuel (.write frame) self link = some ended ∧ Ends Q E ended := by
  induction fuel generalizing frame self link with
  | zero => omega
  | succ fuel ih =>
      have hx := h.exchange hcount frame CRC_RETRIES (Nat.zero_add _) MAX_STRAY_FRAMES self
        link rfl hI
      rw [drive_write]
      rcases hex : Transport.exchange L op frame CRC_RETRIES MAX_STRAY_FRAMES self link with
        ⟨e | frame' | output, self', link'⟩ <;> rw [hex] at hx
      · exact ⟨_, rfl, hx⟩
      · obtain ⟨hI', hone', hlt⟩ := hx
        exact ih hone' (by omega) hI'
      · exact ⟨(.ok output, self', link'), by cases fuel <;> rfl, hx⟩

/-- **The rule for `run_op`.** -/
theorem runOp (h : L.Rule op .core I Q E) (hcount : op.CountsDown rank k) (hk : 1 ≤ k) {fuel : Nat}
    (hfuel : k ≤ fuel) {self : σ} {link : τ}
    (hstart : ∀ frame self', op.start.call self = (.ok (.write frame), self') → I 0 frame self' link) :
    ∃ ended, Transport.runOp L op fuel self link = some ended ∧ Ends Q E ended := by
  obtain ⟨frame, self', hc, hrank⟩ := hcount.start self
  rw [Transport.runOp, hc]
  exact h.drive hcount fuel (by omega) (by omega) (hstart frame self' hc)

end Transport.Rule

end TTLock
