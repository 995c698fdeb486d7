import TTLock.Cli.Proofs.Rule
import TTLock.HomeAssistant.Proofs.Exchange

set_option autoImplicit false

/-! # The rule for Home Assistant's driver

`_async_drive` counts stray frames afresh after every re-send, and it raises other errors. What holds
around one write and one read is all the same, so the rule that `run_op` obeys is enough
(`Rule.asyncDrive`). -/

namespace TTLock

/-- The binding's exception for an error of the core. -/
def HaError.core (e : TtlockError) : HaError := .ttlock (toPyerr e)

theorem toPyerr_error (e : TtlockError) : (toPyerr e).error = e := by
  cases e <;> rfl

theorem HaError.core_injective : Function.Injective HaError.core := by
  intro e e' h
  have herr := congrArg PyErr.error (HaError.ttlock.inj h)
  rwa [toPyerr_error, toPyerr_error] at herr

namespace Transport.Rule

open HomeAssistant

variable {σ T τ : Type} {L : Transport HaError τ} {op : Operation σ T}
  {I : Nat → List UInt8 → σ → τ → Prop} {Q : T → σ → τ → Prop} {E : HaError → σ → τ → Prop}
  {rank : σ → Nat} {k : Nat}

/-- How waiting for a response may end. The frame is sent again only if an attempt is left. -/
def AwaitEnds (I : Nat → List UInt8 → σ → τ → Prop) (Q : T → σ → τ → Prop)
    (E : HaError → σ → τ → Prop) (rank : σ → Nat) (before n : Nat) (frame : List UInt8) (lastAttempt : Bool) :
    Except HaError (Option (Step T)) × σ × τ → Prop
  | (.ok (some step), self, link) => StepEnds I Q E rank before (.ok step, self, link)
  | (.ok none, self, link) => lastAttempt = false ∧ rank self = before ∧ I n frame self link
  | (.error e, self, link) => E e self link

/-- Waiting for a response, given what it comes to once a stray frame is skipped. -/
theorem awaitResponse_of (h : L.Rule op HaError.core I Q E) (hcount : op.CountsDown rank k) {n : Nat}
    {frame : List UInt8} {before : Nat} {lastAttempt : Bool} {strayLeft : Nat} {self : σ} {link : τ}
    (hrank : rank self = before) (hI : I n frame self link)
    (hskipped : ∀ left self link, strayLeft = left + 1 → rank self = before → I n frame self link →
      AwaitEnds I Q E rank before n frame lastAttempt
        (HomeAssistant.awaitResponse L op lastAttempt left self link)) :
    AwaitEnds I Q E rank before n frame lastAttempt
      (HomeAssistant.awaitResponse L op lastAttempt strayLeft self link) := by
  rcases hread : L.nextFrame link with ⟨e | ⟨now, raw⟩, link'⟩
  · rw [awaitResponse_error hread]
    exact h.not_read hI hread
  · rcases hc : (op.handleFrame now raw).call self with ⟨e | step, self'⟩
    · obtain ⟨hI', hE⟩ := h.refused hI hread hc
      have hrank' : rank self' = before := (hcount.rank_refused hc).trans hrank
      rw [awaitResponse_refused hread hc]
      cases (toPyerr e).cls with
      | unexpectedCommand =>
          cases strayLeft with
          | zero => exact hE
          | succ left => exact hskipped left self' link' rfl hrank' hI'
      | ttlockError => exact hE
      | crcMismatch =>
          -- sent again, unless this was the last attempt
          cases lastAttempt with
          | true => exact hE
          | false => exact ⟨rfl, hrank', hI'⟩
    · rw [awaitResponse_ok hread hc]
      exact hrank ▸ h.accepted hcount hI hread hc

theorem awaitResponse (h : L.Rule op HaError.core I Q E) (hcount : op.CountsDown rank k) {n : Nat}
    {frame : List UInt8} {before : Nat} (lastAttempt : Bool) (strayLeft : Nat) {self : σ} {link : τ}
    (hrank : rank self = before) (hI : I n frame self link) :
    AwaitEnds I Q E rank before n frame lastAttempt
      (HomeAssistant.awaitResponse L op lastAttempt strayLeft self link) := by
  induction strayLeft generalizing self link with
  | zero =>
      refine h.awaitResponse_of hcount hrank hI ?_
      intro left _ _ hleft
      cases hleft
  | succ strayLeft ih =>
      refine h.awaitResponse_of hcount hrank hI ?_
      intro left self' link' hleft hrank' hI'
      obtain rfl := Nat.succ.inj hleft
      exact ih hrank' hI'

/-- An attempt, given what the next one comes to. The last is not followed by another. -/
theorem asyncExchange_of (h : L.Rule op HaError.core I Q E) (hcount : op.CountsDown rank k)
    {frame : List UInt8} {before n left : Nat} {self : σ} {link : τ} (hn : n ≤ CRC_RETRIES)
    (hrank : rank self = before) (hI : I n frame self link)
    (hagain : left ≠ 0 → ∀ self link, rank self = before → I (n + 1) frame self link →
      StepEnds I Q E rank before (HomeAssistant.asyncExchange L op frame left self link)) :
    StepEnds I Q E rank before (HomeAssistant.asyncExchange L op frame (left + 1) self link) := by
  rw [HomeAssistant.asyncExchange]
  rcases hwrite : L.writeFrame frame link with ⟨e | ⟨⟩, link'⟩
  · exact h.not_written hI hwrite
  · have hw := h.awaitResponse hcount (decide (left = 0)) MAX_STRAY_FRAMES hrank (h.written hn hI hwrite)
    dsimp only
    rcases haw : HomeAssistant.awaitResponse L op (decide (left = 0)) MAX_STRAY_FRAMES self link' with
      ⟨e | _ | step, self', link''⟩ <;> rw [haw] at hw
    · exact hw
    · obtain ⟨hmore, hrank', hI'⟩ := hw
      exact hagain (of_decide_eq_false hmore) self' link'' hrank' hI'
    · exact hw

/-- One frame's attempts. -/
theorem asyncExchange (h : L.Rule op HaError.core I Q E) (hcount : op.CountsDown rank k)
    (frame : List UInt8) {before : Nat} (left : Nat) : ∀ {n : Nat}, n + left = CRC_RETRIES →
      ∀ {self : σ} {link : τ}, rank self = before → I n frame self link →
        StepEnds I Q E rank before (HomeAssistant.asyncExchange L op frame (left + 1) self link) := by
  induction left with
  | zero =>
      intro n hn self link hrank hI
      exact h.asyncExchange_of hcount (Nat.le_of_eq hn) hrank hI fun hzero => absurd rfl hzero
  | succ left ih =>
      intro n hn self link hrank hI
      refine h.asyncExchange_of hcount (by omega) hrank hI fun _ self' link' hrank' hI' => ?_
      exact ih (by omega) hrank' hI'

theorem asyncSteps (h : L.Rule op HaError.core I Q E) (hcount : op.CountsDown rank k) (fuel : Nat)
    {frame : List UInt8} {self : σ} {link : τ} (hone : 1 ≤ rank self) (hfuel : rank self ≤ fuel)
    (hI : I 0 frame self link) :
    ∃ ended, HomeAssistant.asyncSteps L op fuel (.write frame) self link = some ended ∧
      Ends Q E ended := by
  induction fuel generalizing frame self link with
  | zero => omega
  | succ fuel ih =>
      have hx := h.asyncExchange hcount frame CRC_RETRIES (Nat.zero_add _) rfl hI
      rw [HomeAssistant.asyncSteps]
      rcases hex : HomeAssistant.asyncExchange L op frame (CRC_RETRIES + 1) self link with
        ⟨e | frame' | output, self', link'⟩ <;> rw [hex] at hx
      · exact ⟨_, rfl, hx⟩
      · obtain ⟨hI', hone', hlt⟩ := hx
        exact ih hone' (by omega) hI'
      · exact ⟨(.ok output, self', link'), by cases fuel <;> rfl, hx⟩

/-- **The rule for `_async_drive`**, whose errors wear another face. -/
theorem asyncDrive (h : L.Rule op HaError.core I Q E) (hcount : op.CountsDown rank k) (hk : 1 ≤ k)
    {fuel : Nat} (hfuel : k ≤ fuel) {self : σ} {link : τ}
    (hstart : ∀ frame self', op.start.call self = (.ok (.write frame), self') → I 0 frame self' link) :
    ∃ result self' link', Ends Q E (result, self', link') ∧
      HomeAssistant.asyncDrive L op fuel self link = some (result.mapError raised, self', link') := by
  obtain ⟨frame, self', hc, hrank⟩ := hcount.start self
  obtain ⟨⟨result, self'', link'⟩, hsteps, hends⟩ :=
    h.asyncSteps hcount fuel (by omega) (by omega) (hstart frame self' hc)
  refine ⟨result, self'', link', hends, ?_⟩
  simp only [HomeAssistant.asyncDrive, hc, hsteps, Option.map_some]

end Transport.Rule

end TTLock
