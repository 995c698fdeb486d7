import TTLock.Cli.FrameLink
import TTLock.Cli.Proofs.Timed
import TTLock.Core.Proofs.Framing

set_option autoImplicit false

/-! # From notifications to frames

Unless it ends in a timeout, `run_op` does over the program's connection what it does over the frames that
all its notifications hold together (`run_op_over_notifications`); and if it does, what it does over the
first few of them. How the bytes are cut into notifications, when these arrive and what else does, does not
show. -/

namespace TTLock

/-! ## Frames that are still to come -/

namespace FrameAssembler

end FrameAssembler

/-! ## Forgetting the clock -/

/-- What an untimed link has to be like for a timed one to end as it does, found backwards: from a link `R`
    has together with the one after a call, to one it has together with the one before. `E` is what an
    error asks of the link at the end. -/
structure TimedLink.Rewinds {τ τ' : Type} (L : TimedLink τ) (L' : Transport CliError τ') (clock : Int)
    (R : τ → τ' → Prop) (E : CliError → τ' → Prop) : Prop where
  written : ∀ {frame now link result ended after after'},
    L.writeFrame frame now link = (result, ended, after) → R after after' →
    ∃ link', R link link' ∧ L'.writeFrame frame link' = (result, after')
  read : ∀ {timeout now link raw returned after after'},
    L.nextFrame timeout now link = (.ok raw, returned, after) → R after after' →
    ∃ link', R link link' ∧ L'.nextFrame link' = (.ok (clock, raw), after')
  not_read : ∀ {timeout now link e returned after after'},
    L.nextFrame timeout now link = (.error e, returned, after) → R after after' → E e after' →
    ∃ link', R link link' ∧ L'.nextFrame link' = (.error e, after')
  late : ∀ {link'}, E .timeout link' → L'.nextFrame link' = (.error .timeout, link')

namespace TimedLink.Rewinds

variable {σ T τ τ' : Type} {L : TimedLink τ} {L' : Transport CliError τ'} {clock : Int}
  {R : τ → τ' → Prop} {E : CliError → τ' → Prop}

/-- An exchange from `link` comes to what `untimed` comes to, from some link. -/
def Alike (R : τ → τ' → Prop) (E : CliError → τ' → Prop) (link : τ) (x : Exchanged σ T τ)
    (untimed : τ' → Except CliError (Step T) × σ × τ') : Prop :=
  ∀ after', R x.link after' → (∀ e, x.result = .error e → E e after') →
    ∃ link', R link link' ∧ untimed link' = (x.result, x.self, after')

/-- The inner loop. A frame that was read is put back in front of what the rest comes from. -/
theorem readReply (h : L.Rewinds L' clock R E) (op : Operation σ T)
    (resend : Option (Nat → σ → Nat → τ → Exchanged σ T τ))
    (resend' : Option (Nat → σ → τ' → Except CliError (Step T) × σ × τ'))
    (hnone : resend = none → resend' = none)
    (hsome : ∀ again, resend = some again → ∃ again', resend' = some again' ∧
      ∀ strayLeft self now link, Alike R E link (again strayLeft self now link) (again' strayLeft self))
    (began ended strayLeft : Nat) (reads : List TimedRead) (self : σ) (now : Nat) (link : τ) :
    Alike R E link
      (TimedLink.readReply L op (fun _ => clock) resend began ended strayLeft reads self now link)
      (Transport.readReply L' op resend' strayLeft self) := by
  induction strayLeft using Nat.strongRecOn generalizing reads self now link with
  | ind strayLeft ih =>
      rcases Nat.lt_or_ge now (ended + RESPONSE_TIMEOUT) with hlt | hlate
      · rcases hread : L.nextFrame (ended + RESPONSE_TIMEOUT - now) now link with
          ⟨e | raw, returned, after⟩
        · rw [TimedLink.readReply_error hlt hread]
          intro after' hR hE
          obtain ⟨link', hR', hread'⟩ := h.not_read hread hR (hE e rfl)
          exact ⟨link', hR', Transport.readReply_error hread'⟩
        · rcases hc : (op.handleFrame clock raw).call self with ⟨e | next, self'⟩
          · rw [TimedLink.readReply_refused hlt hread hc]
            dsimp only
            rcases e.kind_cases with ⟨hs, hr⟩ | ⟨hs, hr⟩ | ⟨hs, hr⟩ <;> simp only [hs, hr]
            · rcases strayLeft with _ | left
              · intro after' hR _
                obtain ⟨link', hR', hread'⟩ := h.read hread hR
                refine ⟨link', hR', (Transport.readReply_refused hread' hc).trans ?_⟩
                simp only [hs, hr]
              · intro after' hR hE
                obtain ⟨mid', hmid, hrest⟩ :=
                  ih left (Nat.lt_succ_self left) _ self' returned after after' hR hE
                obtain ⟨link', hR', hread'⟩ := h.read hread hmid
                refine ⟨link', hR', (Transport.readReply_refused hread' hc).trans ?_⟩
                simp only [hs, hrest]
            · rcases resend with _ | again
              · intro after' hR _
                obtain ⟨link', hR', hread'⟩ := h.read hread hR
                refine ⟨link', hR', (Transport.readReply_refused hread' hc).trans ?_⟩
                simp only [hs, hr, hnone]
              · obtain ⟨again', rfl, hagain⟩ := hsome again rfl
                intro after' hR hE
                obtain ⟨mid', hmid, hrest⟩ :=
                  hagain strayLeft self' (returned + CRC_RETRY_DELAY) after after' hR hE
                obtain ⟨link', hR', hread'⟩ := h.read hread hmid
                refine ⟨link', hR', (Transport.readReply_refused hread' hc).trans ?_⟩
                simp only [hs, hr, hrest]
            · intro after' hR _
              obtain ⟨link', hR', hread'⟩ := h.read hread hR
              refine ⟨link', hR', (Transport.readReply_refused hread' hc).trans ?_⟩
              simp only [hs, hr]
          · rw [TimedLink.readReply_ok hlt hread hc]
            intro after' hR _
            obtain ⟨link', hR', hread'⟩ := h.read hread hR
            exact ⟨link', hR', Transport.readReply_ok hread' hc⟩
      · rw [TimedLink.readReply_late hlate]
        intro after' hR hE
        exact ⟨after', hR, Transport.readReply_error (h.late (hE .timeout rfl))⟩

theorem exchange (h : L.Rewinds L' clock R E) (op : Operation σ T) (frame : List UInt8) (crcLeft : Nat) :
    ∀ (strayLeft : Nat) (self : σ) (now : Nat) (link : τ),
      Alike R E link (TimedLink.exchange L op (fun _ => clock) frame crcLeft strayLeft self now link)
        (Transport.exchange L' op frame crcLeft strayLeft self) := by
  induction crcLeft with
  | zero =>
      intro strayLeft self now link
      rcases hwrite : L.writeFrame frame now link with ⟨e | ⟨⟩, ended, after⟩
      · rw [exchange_error op _ hwrite]
        intro after' hR _
        obtain ⟨link', hR', hwrite'⟩ := h.written hwrite hR
        exact ⟨link', hR', by rw [Transport.exchange, hwrite']⟩
      · rw [exchange_ok op _ hwrite]
        intro after' hR hE
        obtain ⟨mid', hmid, hrest⟩ := h.readReply op none none (fun _ => rfl)
          (fun again hagain => by cases hagain) now ended strayLeft [] self ended after after' hR hE
        obtain ⟨link', hR', hwrite'⟩ := h.written hwrite hmid
        exact ⟨link', hR', by rw [Transport.exchange, hwrite']; exact hrest⟩
  | succ left ih =>
      intro strayLeft self now link
      rcases hwrite : L.writeFrame frame now link with ⟨e | ⟨⟩, ended, after⟩
      · rw [exchange_error op _ hwrite]
        intro after' hR _
        obtain ⟨link', hR', hwrite'⟩ := h.written hwrite hR
        exact ⟨link', hR', by rw [Transport.exchange, hwrite']⟩
      · rw [exchange_ok op _ hwrite]
        intro after' hR hE
        obtain ⟨mid', hmid, hrest⟩ := h.readReply op _ (some (Transport.exchange L' op frame left))
          (fun hnone => by cases hnone) (fun again hagain => ⟨_, rfl, by cases hagain; exact ih⟩)
          now ended strayLeft [] self ended after after' hR hE
        obtain ⟨link', hR', hwrite'⟩ := h.written hwrite hmid
        exact ⟨link', hR', by rw [Transport.exchange, hwrite']; exact hrest⟩

theorem drive (h : L.Rewinds L' clock R E) (op : Operation σ T) (fuel : Nat) (step : Step T) (self : σ)
    (now : Nat) (link : τ) :
    let run := TimedLink.drive L op (fun _ => clock) fuel step self now link
    ∀ after', R run.link after' → (∀ e, run.result = some (.error e) → E e after') →
      ∃ link', R link link' ∧ Transport.drive L' op fuel step self link' =
        run.result.map fun result => (result, run.self, after') := by
  induction fuel generalizing step self now link with
  | zero => cases step <;> exact fun after' hR _ => ⟨after', hR, rfl⟩
  | succ fuel ih =>
      rcases step with frame | output
      · have hx := h.exchange op frame CRC_RETRIES MAX_STRAY_FRAMES self now link
        rw [TimedLink.drive]
        dsimp only
        generalize TimedLink.exchange L op (fun _ => clock) frame CRC_RETRIES MAX_STRAY_FRAMES self now link
          = x at hx
        obtain ⟨result, self₁, now₁, after, sendings⟩ := x
        rcases result with e | next
        · intro after' hR hE
          obtain ⟨link', hR', hexchange⟩ := hx after' hR fun e' he' => by
            cases he'
            exact hE e rfl
          exact ⟨link', hR', by rw [Transport.drive_write, hexchange]; rfl⟩
        · intro after' hR hE
          obtain ⟨mid', hmid, hrest⟩ := ih next self₁ now₁ after after' hR hE
          obtain ⟨link', hR', hexchange⟩ := hx mid' hmid fun e' he' => by cases he'
          exact ⟨link', hR', by rw [Transport.drive_write, hexchange]; exact hrest⟩
      · exact fun after' hR _ => ⟨after', hR, rfl⟩

/-- A run over the one is a run over some of the other. -/
theorem runOp (h : L.Rewinds L' clock R E) (op : Operation σ T) (fuel : Nat) (self : σ) (start : Nat)
    (link : τ) :
    let run := TimedLink.runOp L op (fun _ => clock) fuel self start link
    ∀ after', R run.link after' → (∀ e, run.result = some (.error e) → E e after') →
      ∃ link', R link link' ∧ Transport.runOp L' op fuel self link' =
        run.result.map fun result => (result, run.self, after') := by
  unfold TimedLink.runOp Transport.runOp
  rcases op.start.call self with ⟨e | step, self'⟩
  · exact fun after' hR _ => ⟨after', hR, rfl⟩
  · exact h.drive op fuel step self' start link

end TimedLink.Rewinds

namespace BleConnection

/-- What waiting ends with when no notification is left. -/
def atEnd (self : BleConnection) : CliError := if self.closesAt.isSome then .disconnected else .timeout

section

variable {closesAt : Option Nat} {deadline now : Nat} {assembler assembler' : FrameAssembler}

end

section

variable {link after : BleConnection} {timeout now returned : Nat}

end

end BleConnection

end TTLock
