import TTLock.Cli.Timed
import TTLock.Cli.Proofs.Transport

set_option autoImplicit false

/-! # Deadlines

Over a link whose reads end within the time they are given, every write of `run_op` is resolved within
one `RESPONSE_TIMEOUT`, and a write step within three of them and two pauses, however many frames
arrive meanwhile. The connection of the program is such a link, and apart from the clock `run_op` does
over it what it does over any other. -/

namespace TTLock

variable {σ T τ : Type}

/-- The clock does not go back, and a read ends within its timeout. -/
structure TimedLink.Punctual (L : TimedLink τ) : Prop where
  writeFrame : ∀ frame now link, now ≤ (L.writeFrame frame now link).2.1
  nextFrame : ∀ timeout now link,
    now ≤ (L.nextFrame timeout now link).2.1 ∧ (L.nextFrame timeout now link).2.1 ≤ now + timeout

/-- The reads behind a write that ended then are each given what is left of one timeout. -/
def ReadsInTime (ended : Nat) (reads : List TimedRead) : Prop :=
  ∀ r ∈ reads, ended ≤ r.askedAt ∧ r.askedAt + r.timeout = ended + RESPONSE_TIMEOUT

/-- One timeout covers everything that comes behind a write. -/
structure Sending.InTime (s : Sending) : Prop where
  written : s.began ≤ s.ended
  reads : ReadsInTime s.ended s.reads
  resolved : s.ended ≤ s.resolved ∧ s.resolved ≤ s.ended + RESPONSE_TIMEOUT

/-- The time that the writes take. -/
def writingTime : List Sending → Nat
  | [] => 0
  | s :: rest => s.ended - s.began + writingTime rest

/-- At most `n` writes since `start`, each in time, with a pause between them. -/
structure Exchanged.InTime (n start : Nat) (x : Exchanged σ T τ) : Prop where
  count : x.sendings.length ≤ n
  sendings : ∀ s ∈ x.sendings, s.InTime
  lasts : x.now + CRC_RETRY_DELAY ≤
    start + n * (RESPONSE_TIMEOUT + CRC_RETRY_DELAY) + writingTime x.sendings

/-- At most three writes, each in time, and no longer than three timeouts, two pauses and the writes
    themselves. -/
structure WriteStep.InTime (step : WriteStep) : Prop where
  count : step.sendings.length ≤ 3
  sendings : ∀ s ∈ step.sendings, s.InTime
  lasts : step.ended ≤
    step.began + 3 * RESPONSE_TIMEOUT + 2 * CRC_RETRY_DELAY + writingTime step.sendings

theorem ReadsInTime.append {ended now : Nat} {reads : List TimedRead} (h : ReadsInTime ended reads)
    (hnow : ended ≤ now) (hleft : now ≤ ended + RESPONSE_TIMEOUT) (returned : Nat) :
    ReadsInTime ended (reads ++ [⟨now, ended + RESPONSE_TIMEOUT - now, returned⟩]) := by
  intro r hr
  rcases List.mem_append.1 hr with hr | hr
  · exact h r hr
  · rw [List.mem_singleton.1 hr]
    exact ⟨hnow, Nat.add_sub_of_le hleft⟩

/-- A write that is not followed by another one. -/
theorem Sending.InTime.last {began ended resolved : Nat} {reads : List TimedRead}
    (h : InTime ⟨began, ended, reads, resolved⟩) (n : Nat) (result : Except CliError (Step T)) (self : σ)
    (link : τ) :
    Exchanged.InTime (n + 1) began ⟨result, self, resolved, link, [⟨began, ended, reads, resolved⟩]⟩ := by
  refine ⟨by simp, by simpa using h, ?_⟩
  have hwritten : began ≤ ended := h.written
  have hresolved : resolved ≤ ended + RESPONSE_TIMEOUT := h.resolved.2
  simp only [writingTime, Nat.succ_mul]
  omega

/-- A write, a pause, and what is sent behind it. -/
theorem Sending.InTime.cons {s : Sending} (h : s.InTime) {n : Nat} {x : Exchanged σ T τ}
    (hx : x.InTime n (s.resolved + CRC_RETRY_DELAY)) :
    Exchanged.InTime (n + 1) s.began { x with sendings := s :: x.sendings } := by
  refine ⟨by simpa using hx.count, ?_, ?_⟩
  · intro s' hs'
    rcases List.mem_cons.1 hs' with rfl | hs'
    · exact h
    · exact hx.sendings s' hs'
  · have hwritten := h.written
    have hresolved := h.resolved.2
    have hlasts := hx.lasts
    simp only [writingTime, Nat.succ_mul] at hlasts ⊢
    omega

namespace TimedLink

/-! ## One pass through the inner loop -/

section

variable {L : TimedLink τ} {op : Operation σ T} {wallClock : Nat → Int}
  {resend : Option (Nat → σ → Nat → τ → Exchanged σ T τ)} {began ended strayLeft now returned : Nat}
  {reads : List TimedRead} {self self' : σ} {link link' : τ} {raw : List UInt8} {e : TtlockError}

theorem readReply_late (h : ended + RESPONSE_TIMEOUT ≤ now) :
    readReply L op wallClock resend began ended strayLeft reads self now link =
      ⟨.error .timeout, self, now, link, [⟨began, ended, reads, now⟩]⟩ := by
  rw [readReply.eq_def]
  exact if_pos (Nat.sub_eq_zero_of_le h)

theorem readReply_error (hnow : now < ended + RESPONSE_TIMEOUT) {e : CliError}
    (h : L.nextFrame (ended + RESPONSE_TIMEOUT - now) now link = (.error e, returned, link')) :
    readReply L op wallClock resend began ended strayLeft reads self now link =
      ⟨.error e, self, returned, link',
        [⟨began, ended, reads ++ [⟨now, ended + RESPONSE_TIMEOUT - now, returned⟩], returned⟩]⟩ := by
  rw [readReply.eq_def]
  simp only [Nat.sub_ne_zero_of_lt hnow, if_false, h]

theorem readReply_ok (hnow : now < ended + RESPONSE_TIMEOUT)
    (h : L.nextFrame (ended + RESPONSE_TIMEOUT - now) now link = (.ok raw, returned, link'))
    {next : Step T} (hc : (op.handleFrame (wallClock returned) raw).call self = (.ok next, self')) :
    readReply L op wallClock resend began ended strayLeft reads self now link =
      ⟨.ok next, self', returned, link',
        [⟨began, ended, reads ++ [⟨now, ended + RESPONSE_TIMEOUT - now, returned⟩], returned⟩]⟩ := by
  rw [readReply.eq_def]
  simp only [Nat.sub_ne_zero_of_lt hnow, if_false, h, hc]

theorem readReply_refused (hnow : now < ended + RESPONSE_TIMEOUT)
    (h : L.nextFrame (ended + RESPONSE_TIMEOUT - now) now link = (.ok raw, returned, link'))
    (hc : (op.handleFrame (wallClock returned) raw).call self = (.error e, self')) :
    readReply L op wallClock resend began ended strayLeft reads self now link =
      let reads := reads ++ [⟨now, ended + RESPONSE_TIMEOUT - now, returned⟩]
      match e.isStaleFrame, strayLeft with
      | true, left + 1 => readReply L op wallClock resend began ended left reads self' returned link'
      | _, _ => match e.isRetryable, resend with
        | true, some resend =>
            let rest := resend strayLeft self' (returned + CRC_RETRY_DELAY) link'
            { rest with sendings := ⟨began, ended, reads, returned⟩ :: rest.sendings }
        | _, _ =>
            ⟨.error (.core e), self', returned, link', [⟨began, ended, reads, returned⟩]⟩ := by
  have hread := readReply.eq_def L op wallClock resend began ended strayLeft reads self now link
  simp only [Nat.sub_ne_zero_of_lt hnow, if_false, h, hc] at hread
  exact hread

end

section

variable (L : TimedLink τ) (op : Operation σ T) (wallClock : Nat → Int) (frame : List UInt8)

/-- The loop that is entered again when a frame is to be sent again. -/
def resendOf : (crcLeft : Nat) → Option (Nat → σ → Nat → τ → Exchanged σ T τ)
  | 0 => none
  | left + 1 => some (exchange L op wallClock frame left)

variable {L frame} {crcLeft strayLeft now ended : Nat} {self : σ} {link link' : τ}

theorem exchange_error {e : CliError} (h : L.writeFrame frame now link = (.error e, ended, link')) :
    exchange L op wallClock frame crcLeft strayLeft self now link =
      ⟨.error e, self, ended, link', [⟨now, ended, [], ended⟩]⟩ := by
  cases crcLeft <;> simp only [exchange, h]

theorem exchange_ok (h : L.writeFrame frame now link = (.ok (), ended, link')) :
    exchange L op wallClock frame crcLeft strayLeft self now link =
      readReply L op wallClock (resendOf L op wallClock frame crcLeft) now ended strayLeft [] self ended
        link' := by
  cases crcLeft <;> simp only [exchange, h, resendOf]

end

/-! ## How long it lasts -/

section

variable {L : TimedLink τ} (hL : L.Punctual) (op : Operation σ T) (wallClock : Nat → Int)

include hL

/-- **The wait behind a write** is over in time. The induction is on the frames that may still be
    discarded: reading on leaves the deadline where it was. -/
theorem readReply_inTime {resend : Option (Nat → σ → Nat → τ → Exchanged σ T τ)} {n : Nat}
    (hresend : ∀ again, resend = some again → ∀ strayLeft self now link,
      (again strayLeft self now link).InTime n now)
    {began ended : Nat} (hwritten : began ≤ ended) {reads : List TimedRead}
    (hreads : ReadsInTime ended reads) {now : Nat} (hnow : ended ≤ now)
    (hleft : now ≤ ended + RESPONSE_TIMEOUT) (strayLeft : Nat) (self : σ) (link : τ) :
    (readReply L op wallClock resend began ended strayLeft reads self now link).InTime (n + 1) began := by
  induction strayLeft using Nat.strongRecOn generalizing reads self now link with
  | ind strayLeft ih =>
      rcases Nat.lt_or_ge now (ended + RESPONSE_TIMEOUT) with hlt | hge
      · rcases hread : L.nextFrame (ended + RESPONSE_TIMEOUT - now) now link with ⟨outcome, returned, link'⟩
        have hpunctual := hL.nextFrame (ended + RESPONSE_TIMEOUT - now) now link
        rw [hread] at hpunctual
        have hreturned : ended ≤ returned := Nat.le_trans hnow hpunctual.1
        have hin : returned ≤ ended + RESPONSE_TIMEOUT := by
          have hle := hpunctual.2
          dsimp only at hle
          omega
        have hreads' := hreads.append hnow hleft returned
        have hsending : Sending.InTime ⟨began, ended, _, returned⟩ :=
          ⟨hwritten, hreads', hreturned, hin⟩
        rcases outcome with e | raw
        · rw [readReply_error hlt hread]
          exact hsending.last n _ _ _
        · rcases hc : (op.handleFrame (wallClock returned) raw).call self with ⟨e | next, self'⟩
          · rw [readReply_refused hlt hread hc]
            dsimp only
            rcases e.kind_cases with ⟨hs, hr⟩ | ⟨hs, hr⟩ | ⟨hs, hr⟩ <;> simp only [hs, hr]
            · rcases strayLeft with _ | left
              · exact hsending.last n _ _ _
              · exact ih left (Nat.lt_succ_self left) hreads' hreturned hin self' link'
            · rcases resend with _ | again
              · exact hsending.last n _ _ _
              · exact hsending.cons (hresend again rfl _ _ _ _)
            · exact hsending.last n _ _ _
          · rw [readReply_ok hlt hread hc]
            exact hsending.last n _ _ _
      · rw [readReply_late hge]
        exact Sending.InTime.last ⟨hwritten, hreads, hnow, hleft⟩ n _ _ _

/-- One write, if what a re-send leads to is in time. -/
theorem exchange_inTime_of {frame : List UInt8} {crcLeft : Nat}
    (hresend : ∀ again, resendOf L op wallClock frame crcLeft = some again →
      ∀ strayLeft self now link, (again strayLeft self now link).InTime crcLeft now)
    (strayLeft : Nat) (self : σ) (now : Nat) (link : τ) :
    (exchange L op wallClock frame crcLeft strayLeft self now link).InTime (crcLeft + 1) now := by
  have hwritten := hL.writeFrame frame now link
  have hnone : ∀ ended, ReadsInTime ended [] := by simp [ReadsInTime]
  rcases hwrite : L.writeFrame frame now link with ⟨e | _, ended, link'⟩ <;> rw [hwrite] at hwritten
  · rw [exchange_error op wallClock hwrite]
    exact Sending.InTime.last ⟨hwritten, hnone ended, Nat.le_refl _, Nat.le_add_right _ _⟩ _ _ _ _
  · rw [exchange_ok op wallClock hwrite]
    exact readReply_inTime hL op wallClock hresend hwritten (hnone ended) (Nat.le_refl _)
      (Nat.le_add_right _ _) strayLeft self link'

/-- **The writes of one step**: one, and one more for every re-send that is left. -/
theorem exchange_inTime (frame : List UInt8) (crcLeft strayLeft : Nat) (self : σ) (now : Nat)
    (link : τ) :
    (exchange L op wallClock frame crcLeft strayLeft self now link).InTime (crcLeft + 1) now := by
  induction crcLeft generalizing strayLeft self now link with
  | zero => exact exchange_inTime_of hL op wallClock (by simp [resendOf]) strayLeft self now link
  | succ left ih =>
      refine exchange_inTime_of hL op wallClock ?_ strayLeft self now link
      intro again hagain
      rw [← Option.some.inj hagain]
      exact ih

theorem drive_inTime (fuel : Nat) (step : Step T) (self : σ) (now : Nat) (link : τ) :
    ∀ s ∈ (drive L op wallClock fuel step self now link).steps, s.InTime := by
  induction fuel generalizing step self now link with
  | zero => cases step <;> simp [drive]
  | succ fuel ih =>
      rcases step with frame | output
      · intro s hs
        have hexchange := exchange_inTime hL op wallClock frame CRC_RETRIES MAX_STRAY_FRAMES self now link
        have hstep : WriteStep.InTime ⟨now,
            (exchange L op wallClock frame CRC_RETRIES MAX_STRAY_FRAMES self now link).sendings,
            (exchange L op wallClock frame CRC_RETRIES MAX_STRAY_FRAMES self now link).now⟩ := by
          refine ⟨hexchange.count, hexchange.sendings, ?_⟩
          have hlasts := hexchange.lasts
          simp only [CRC_RETRIES] at hlasts ⊢
          omega
        rw [drive] at hs
        dsimp only at hs
        split at hs
        · rw [List.mem_singleton.1 hs]
          exact hstep
        · rcases List.mem_cons.1 hs with rfl | hs
          · exact hstep
          · exact ih _ _ _ _ s hs
      · simp [drive]

/-- **Deadlines cannot be stretched**: whatever arrives, every write of a run is resolved within one
    timeout, which its reads share, and every write step within three of them. -/
theorem write_steps_in_time (fuel : Nat) (self : σ) (now : Nat) (link : τ) :
    ∀ step ∈ (runOp L op wallClock fuel self now link).steps, step.InTime := by
  rw [runOp]
  rcases op.start.call self with ⟨e | step, self'⟩
  · simp
  · exact drive_inTime hL op wallClock fuel step self' now link

end

end TimedLink

/-! ## Without the clock -/

namespace TimedLink

/-- With these answers decided beforehand, and whatever comes behind them, the untimed loop comes to the
    same. -/
def Forgets (x : Exchanged σ T τ) (untimed : Recorded → Except CliError (Step T) × σ × Recorded) :
    Prop :=
  ∃ writes reads, ∀ writes' reads' d written, ∃ written',
    untimed ⟨⟨writes ++ writes', reads ++ reads', d⟩, written⟩ =
      (x.result, x.self, ⟨⟨writes', reads', d⟩, written'⟩)

section

variable {x : Exchanged σ T τ} {untimed untimed' : Recorded → Except CliError (Step T) × σ × Recorded}

/-- Nothing more is asked of the link. -/
theorem Forgets.over (x : Exchanged σ T τ) : Forgets x fun link => (x.result, x.self, link) := by
  refine ⟨[], [], ?_⟩
  intro writes' reads' d written
  exact ⟨written, rfl⟩

theorem Forgets.read (h : Forgets x untimed) (outcome : Except CliError (Int × List UInt8))
    (hread : ∀ writes reads d written, untimed' ⟨⟨writes, outcome :: reads, d⟩, written⟩ =
      untimed ⟨⟨writes, reads, d⟩, written⟩) : Forgets x untimed' := by
  obtain ⟨writes, reads, h⟩ := h
  refine ⟨writes, outcome :: reads, ?_⟩
  intro writes' reads' d written
  obtain ⟨written', hx⟩ := h writes' reads' d written
  exact ⟨written', (hread _ _ d written).trans hx⟩

theorem Forgets.write (h : Forgets x untimed) (outcome : Except CliError Unit) (frame : List UInt8)
    (hwrite : ∀ writes reads d written, untimed' ⟨⟨outcome :: writes, reads, d⟩, written⟩ =
      untimed ⟨⟨writes, reads, d⟩, written ++ [frame]⟩) : Forgets x untimed' := by
  obtain ⟨writes, reads, h⟩ := h
  refine ⟨outcome :: writes, reads, ?_⟩
  intro writes' reads' d written
  obtain ⟨written', hx⟩ := h writes' reads' d (written ++ [frame])
  exact ⟨written', (hwrite _ _ d written).trans hx⟩

end

variable (L : TimedLink τ) (op : Operation σ T) (wallClock : Nat → Int)

theorem readReply_forgets {resend : Option (Nat → σ → Nat → τ → Exchanged σ T τ)}
    {resend' : Option (Nat → σ → Recorded → Except CliError (Step T) × σ × Recorded)}
    (hnone : resend = none → resend' = none)
    (hsome : ∀ again, resend = some again → ∃ again', resend' = some again' ∧
      ∀ strayLeft self now link, Forgets (again strayLeft self now link) (again' strayLeft self))
    (began ended strayLeft : Nat) (reads : List TimedRead) (self : σ) (now : Nat) (link : τ) :
    Forgets (readReply L op wallClock resend began ended strayLeft reads self now link)
      (Transport.readReply Recorded.transport op resend' strayLeft self) := by
  induction strayLeft using Nat.strongRecOn generalizing reads self now link with
  | ind strayLeft ih =>
      rcases Nat.lt_or_ge now (ended + RESPONSE_TIMEOUT) with hlt | hge
      · rcases hread : L.nextFrame (ended + RESPONSE_TIMEOUT - now) now link with
          ⟨e | raw, returned, link'⟩
        · rw [readReply_error hlt hread]
          exact (Forgets.over _).read (.error e) fun _ _ _ _ => Transport.readReply_error rfl
        · rcases hc : (op.handleFrame (wallClock returned) raw).call self with ⟨e | next, self'⟩
          · have hgot : ∀ writes reads d written, Recorded.transport.nextFrame
                ⟨⟨writes, .ok (wallClock returned, raw) :: reads, d⟩, written⟩ =
                  (.ok (wallClock returned, raw), ⟨⟨writes, reads, d⟩, written⟩) :=
              fun _ _ _ _ => rfl
            rw [readReply_refused hlt hread hc]
            dsimp only
            rcases e.kind_cases with ⟨hs, hr⟩ | ⟨hs, hr⟩ | ⟨hs, hr⟩ <;> simp only [hs, hr]
            · rcases strayLeft with _ | left
              · refine (Forgets.over _).read (.ok (wallClock returned, raw)) ?_
                intro writes reads d written
                rw [Transport.readReply_refused (hgot writes reads d written) hc]
                simp only [hs, hr]
              · refine (ih left (Nat.lt_succ_self left) _ self' returned link').read
                  (.ok (wallClock returned, raw)) ?_
                intro writes reads d written
                rw [Transport.readReply_refused (hgot writes reads d written) hc]
                simp only [hs]
            · rcases resend with _ | again
              · refine (Forgets.over _).read (.ok (wallClock returned, raw)) ?_
                intro writes reads d written
                rw [Transport.readReply_refused (hgot writes reads d written) hc]
                simp only [hs, hr, hnone]
              · obtain ⟨again', rfl, hagain⟩ := hsome again rfl
                have hrest := hagain strayLeft self' (returned + CRC_RETRY_DELAY) link'
                refine Forgets.read hrest (.ok (wallClock returned, raw)) ?_
                intro writes reads d written
                rw [Transport.readReply_refused (hgot writes reads d written) hc]
                simp only [hs, hr]
            · refine (Forgets.over _).read (.ok (wallClock returned, raw)) ?_
              intro writes reads d written
              rw [Transport.readReply_refused (hgot writes reads d written) hc]
              simp only [hs, hr]
          · rw [readReply_ok hlt hread hc]
            exact (Forgets.over _).read (.ok (wallClock returned, raw)) fun _ _ _ _ =>
              Transport.readReply_ok rfl hc
      · rw [readReply_late hge]
        exact (Forgets.over _).read (.error .timeout) fun _ _ _ _ => Transport.readReply_error rfl

theorem exchange_forgets_of {frame : List UInt8} {crcLeft : Nat}
    (hresend : ∀ again, resendOf L op wallClock frame crcLeft = some again →
      ∃ again', Transport.resendOf op Recorded.transport frame crcLeft = some again' ∧
        ∀ strayLeft self now link, Forgets (again strayLeft self now link) (again' strayLeft self))
    (strayLeft : Nat) (self : σ) (now : Nat) (link : τ) :
    Forgets (exchange L op wallClock frame crcLeft strayLeft self now link)
      (Transport.exchange Recorded.transport op frame crcLeft strayLeft self) := by
  have hnone : resendOf L op wallClock frame crcLeft = none →
      Transport.resendOf op Recorded.transport frame crcLeft = none := by
    cases crcLeft <;> simp [resendOf, Transport.resendOf]
  rcases hwrite : L.writeFrame frame now link with ⟨e | _, ended, link'⟩
  · rw [exchange_error op wallClock hwrite]
    refine (Forgets.over _).write (.error e) frame ?_
    intro writes reads d written
    cases crcLeft <;> rfl
  · rw [exchange_ok op wallClock hwrite]
    refine (readReply_forgets L op wallClock hnone hresend now ended strayLeft [] self ended link').write
      (.ok ()) frame ?_
    intro writes reads d written
    cases crcLeft <;> rfl

theorem exchange_forgets (frame : List UInt8) (crcLeft strayLeft : Nat) (self : σ) (now : Nat)
    (link : τ) :
    Forgets (exchange L op wallClock frame crcLeft strayLeft self now link)
      (Transport.exchange Recorded.transport op frame crcLeft strayLeft self) := by
  induction crcLeft generalizing strayLeft self now link with
  | zero => exact exchange_forgets_of L op wallClock (by simp [resendOf]) strayLeft self now link
  | succ left ih =>
      refine exchange_forgets_of L op wallClock ?_ strayLeft self now link
      intro again hagain
      rw [← Option.some.inj hagain]
      exact ⟨_, rfl, ih⟩

theorem drive_forgets (fuel : Nat) (step : Step T) (self : σ) (now : Nat) (link : τ) :
    ∃ writes reads, ∀ writes' reads' d written, ∃ written',
      Transport.drive Recorded.transport op fuel step self
          ⟨⟨writes ++ writes', reads ++ reads', d⟩, written⟩ =
        (drive L op wallClock fuel step self now link).result.map fun result =>
          (result, (drive L op wallClock fuel step self now link).self,
            ⟨⟨writes', reads', d⟩, written'⟩) := by
  induction fuel generalizing step self now link with
  | zero =>
      refine ⟨[], [], ?_⟩
      intro writes' reads' d written
      refine ⟨written, ?_⟩
      rcases step with frame | output <;> rfl
  | succ fuel ih =>
      rcases step with frame | output
      · obtain ⟨writes, reads, hexchange⟩ :=
          exchange_forgets L op wallClock frame CRC_RETRIES MAX_STRAY_FRAMES self now link
        rw [drive]
        dsimp only
        rcases hresult : (exchange L op wallClock frame CRC_RETRIES MAX_STRAY_FRAMES self now link).result
          with e | next
        · refine ⟨writes, reads, ?_⟩
          intro writes' reads' d written
          obtain ⟨written', hx⟩ := hexchange writes' reads' d written
          refine ⟨written', ?_⟩
          rw [Transport.drive_write, hx, hresult]
          rfl
        · obtain ⟨writes₂, reads₂, hrest⟩ := ih next _ _ _
          refine ⟨writes ++ writes₂, reads ++ reads₂, ?_⟩
          intro writes' reads' d written
          obtain ⟨written₁, hx⟩ := hexchange (writes₂ ++ writes') (reads₂ ++ reads') d written
          obtain ⟨written₂, hrest⟩ := hrest writes' reads' d written₁
          refine ⟨written₂, ?_⟩
          rw [List.append_assoc, List.append_assoc, Transport.drive_write, hx, hresult]
          exact hrest
      · refine ⟨[], [], ?_⟩
        intro writes' reads' d written
        exact ⟨written, rfl⟩

/-- **A run against the clock is a run** over a link with answers that are decided beforehand, so
    whatever is known of those holds of it. -/
theorem runOp_forgets (fuel : Nat) (self : σ) (now : Nat) (link : τ) :
    ∃ untimed left, Transport.runOp Recorded.transport op fuel self ⟨untimed, []⟩ =
      (runOp L op wallClock fuel self now link).result.map fun result =>
        (result, (runOp L op wallClock fuel self now link).self, left) := by
  unfold runOp Transport.runOp
  rcases op.start.call self with ⟨e | step, self'⟩
  · exact ⟨⟨[], [], .ok ()⟩, _, rfl⟩
  · obtain ⟨writes, reads, hdrive⟩ := drive_forgets L op wallClock fuel step self' now link
    obtain ⟨written, hdrive⟩ := hdrive [] [] (.ok ()) []
    exact ⟨⟨writes ++ [], reads ++ [], .ok ()⟩, _, hdrive⟩

end TimedLink

/-! ## The connection -/

namespace BleConnection

theorem awaitEnd_punctual {closesAt : Option Nat} {deadline now : Nat} (h : now ≤ deadline) :
    now ≤ (awaitEnd closesAt deadline now).2 ∧ (awaitEnd closesAt deadline now).2 ≤ deadline := by
  rw [awaitEnd.eq_def]
  split
  · split
    · next hclosed => exact ⟨Nat.le_max_left _ _, Nat.max_le.2 ⟨h, hclosed⟩⟩
    · exact ⟨h, Nat.le_refl _⟩
  · exact ⟨h, Nat.le_refl _⟩

/-- Each notification leaves the deadline where it was. -/
theorem awaitFrame_punctual (closesAt : Option Nat) {deadline now : Nat} (h : now ≤ deadline)
    (notifications : List Notification) (assembler : FrameAssembler) :
    now ≤ (awaitFrame closesAt deadline notifications assembler now).2.1 ∧
      (awaitFrame closesAt deadline notifications assembler now).2.1 ≤ deadline := by
  induction notifications generalizing assembler now with
  | nil =>
      rw [awaitFrame.eq_def]
      dsimp only
      rcases assembler.nextFrame with ⟨_ | frame, assembler'⟩
      · by_cases hlate : now ≥ deadline
        · simp only [if_pos hlate]
          exact ⟨Nat.le_refl _, h⟩
        · simp only [if_neg hlate]
          exact awaitEnd_punctual h
      · exact ⟨Nat.le_refl _, h⟩
  | cons notification rest ih =>
      rw [awaitFrame.eq_def]
      dsimp only
      rcases assembler.nextFrame with ⟨_ | frame, assembler'⟩
      · by_cases hlate : now ≥ deadline
        · simp only [if_pos hlate]
          exact ⟨Nat.le_refl _, h⟩
        · by_cases harrives : notification.arrivesAt ≤ deadline
          · simp only [if_neg hlate, if_pos harrives]
            obtain ⟨hge, hle⟩ := ih (Nat.max_le.2 ⟨h, harrives⟩)
              (if notification.isReply then assembler'.push notification.value else assembler')
            exact ⟨Nat.le_trans (Nat.le_max_left _ _) hge, hle⟩
          · simp only [if_neg hlate, if_neg harrives]
            exact ⟨h, Nat.le_refl _⟩
      · exact ⟨Nat.le_refl _, h⟩

theorem writeChunks_le (chunks : Nat) (chunkWrites : List (Except CliError Unit × Nat)) (now : Nat) :
    now ≤ (writeChunks chunks chunkWrites now).2.1 := by
  induction chunks generalizing chunkWrites now with
  | zero => exact Nat.le_refl _
  | succ chunks ih =>
      rcases chunkWrites with _ | ⟨⟨e | _, taken⟩, chunkWrites⟩
      · exact Nat.le_refl _
      · exact Nat.le_add_right _ _
      · rw [writeChunks]
        have hrest := ih chunkWrites (now + taken + WRITE_CHUNK_DELAY)
        omega

theorem timedLink_punctual : timedLink.Punctual where
  writeFrame _ now link := writeChunks_le _ link.chunkWrites now
  nextFrame timeout now link :=
    awaitFrame_punctual link.closesAt (Nat.le_add_right now timeout) link.notifications link.assembler

end BleConnection

/-! ## A chatty lock -/

/-- A notification with a whole frame, so many seconds after the start. -/
def sampleNotification (seconds : Nat) (raw : List UInt8) : Notification :=
  { arrivesAt := seconds * 1000000000, isReply := true, value := raw ++ CRLF }

/-- It pushes a frame twice, sends a spoilt reply, and after the re-send pushes and replies. -/
def chattyConnection : BleConnection :=
  let push := sampleReply [COMM_UNLOCK, 1, 0, 0]
  let reply := sampleReply [COMM_SEARCH_BICYCLE_STATUS, 1, 99, 0]
  { assembler := .new, closesAt := none, chunkWrites := List.replicate 4 (.ok (), 0)
    notifications := [sampleNotification 3 push, sampleNotification 6 push,
      sampleNotification 9 (reply.modify (reply.length - 1) (· ^^^ 0xff)),
      sampleNotification 12 push, sampleNotification 15 reply] }

def chattyRun : TimedRun StatusOp LockState BleConnection :=
  BleConnection.timedLink.runOp (StatusOp.operation aes128Cbc) (fun _ => 0) 1 (.new sampleKey .default) 0
    chattyConnection

/-- The second read of each write is given what the first left over. -/
example : (chattyRun.steps.flatMap WriteStep.sendings).map (fun s => s.reads.map TimedRead.timeout) =
    [[10000000000, 7040000000, 4040000000], [10000000000, 7240000000]] := by decide +kernel

theorem chatty_run_in_time :
    chattyRun.result = some (.ok .locked) ∧ chattyRun.steps.length = 1 ∧
      ∀ step ∈ chattyRun.steps, step.InTime := by
  have hrun : chattyRun.result = some (.ok .locked) ∧ chattyRun.steps.length = 1 := by
    decide +kernel
  exact ⟨hrun.1, hrun.2, TimedLink.write_steps_in_time BleConnection.timedLink_punctual
    (StatusOp.operation aes128Cbc) (fun _ => 0) 1 (.new sampleKey .default) 0 chattyConnection⟩

end TTLock
