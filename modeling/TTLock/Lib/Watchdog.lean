import TTLock.Lib.Runs

set_option autoImplicit false

/-! # Watchdogs that excuse silence

A watchdog is told when something was heard, is polled now and then, and may be told that it could not
have heard anything for a while. Its ledger keeps when it last heard something and how much of the
time since was excused; what is left of that time is the silence it counts. An excuse may not reach
back before the last hearing, poll or excuse (`mark`), so that no time is excused twice and none that a
poll has already counted. -/

namespace Watchdog

inductive Event where
  | heard
  | polled
  /-- Nothing could be heard for `length`, from `since` on. -/
  | excused (since length : Nat)
  | other
deriving DecidableEq, Repr

structure Ledger where
  now : Nat
  mark : Nat
  heard : Option Nat
  excused : Nat
deriving DecidableEq, Repr

namespace Ledger

/-- Nothing has happened yet. -/
def start : Ledger := { now := 0, mark := 0, heard := none, excused := 0 }

/-- The event can happen at `time`: the clock does not go back, and an excuse covers a span between
    the mark and now. -/
def Admits (self : Ledger) (time : Nat) : Event → Prop
  | .heard | .polled | .other => self.now ≤ time
  | .excused since length => self.now ≤ time ∧ self.mark ≤ since ∧ since + length ≤ time

instance (self : Ledger) (time : Nat) : (event : Event) → Decidable (self.Admits time event)
  | .heard | .polled | .other => inferInstanceAs (Decidable (self.now ≤ time))
  | .excused since length => inferInstanceAs
      (Decidable (self.now ≤ time ∧ self.mark ≤ since ∧ since + length ≤ time))

def after (self : Ledger) (time : Nat) : Event → Ledger
  | .heard => { now := time, mark := time, heard := some time, excused := 0 }
  | .polled => { self with now := time, mark := time }
  | .excused since length =>
      { self with now := time, mark := since + length, excused := self.excused + length }
  | .other => { self with now := time }

/-- Nothing was ever heard, or for `limit` not counting what was excused. -/
def Overdue (self : Ledger) (time limit : Nat) : Prop :=
  self.heard = none ∨ ∃ heard, self.heard = some heard ∧ limit ≤ time - heard - self.excused

/-- What was excused lies between the last hearing and the mark. -/
structure Sound (l : Ledger) : Prop where
  mark_le : l.mark ≤ l.now
  excused_le : ∀ heard, l.heard = some heard → heard + l.excused ≤ l.mark

theorem Sound.start : Sound start := ⟨Nat.le_refl 0, fun _ h => by cases h⟩

theorem Sound.after {l : Ledger} (h : l.Sound) {time : Nat} {event : Event}
    (hadmits : l.Admits time event) : (l.after time event).Sound := by
  cases event with
  | heard =>
      refine ⟨Nat.le_refl _, fun heard hh => ?_⟩
      obtain rfl := Option.some.inj hh
      exact Nat.le_refl _
  | polled =>
      have hnow : l.now ≤ time := hadmits
      refine ⟨Nat.le_refl _, fun heard hh => ?_⟩
      have := h.excused_le heard hh
      have := h.mark_le
      show heard + l.excused ≤ time
      omega
  | excused since length =>
      obtain ⟨-, hsince, htime⟩ := hadmits
      refine ⟨htime, fun heard hh => ?_⟩
      have := h.excused_le heard hh
      show heard + (l.excused + length) ≤ since + length
      omega
  | other =>
      have hnow : l.now ≤ time := hadmits
      exact ⟨Nat.le_trans h.mark_le hnow, h.excused_le⟩

theorem Sound.mark_le_after {l : Ledger} (h : l.Sound) {time : Nat} {event : Event}
    (hadmits : l.Admits time event) : l.mark ≤ (l.after time event).mark := by
  have hmark := h.mark_le
  cases event with
  | heard =>
      have hnow : l.now ≤ time := hadmits
      exact Nat.le_trans hmark hnow
  | polled =>
      have hnow : l.now ≤ time := hadmits
      exact Nat.le_trans hmark hnow
  | excused since length => exact Nat.le_trans hadmits.2.1 (Nat.le_add_right since length)
  | other => exact Nat.le_refl _

/-! ## Once overdue, always overdue -/

/-- The silence up to `moment`, or up to the mark if that is later, is long enough. -/
def OverdueSince (self : Ledger) (moment limit : Nat) : Prop :=
  ∀ heard, self.heard = some heard → heard + self.excused + limit ≤ max moment self.mark

theorem Overdue.since {l : Ledger} {time limit : Nat} (h : l.Overdue time limit) (hsound : l.Sound)
    (htime : l.now ≤ time) : l.OverdueSince time limit := by
  intro heard hheard
  rcases h with hnone | ⟨heard', hheard', hlimit⟩
  · cases hnone.symm.trans hheard
  · obtain rfl := Option.some.inj (hheard'.symm.trans hheard)
    have hexcused := hsound.excused_le heard' hheard'
    have hmark := hsound.mark_le
    omega

theorem OverdueSince.overdue {l : Ledger} {moment limit : Nat} (h : l.OverdueSince moment limit)
    (hsound : l.Sound) {time : Nat} (htime : l.now ≤ time) (hmoment : moment ≤ time) :
    l.Overdue time limit := by
  rcases hheard : l.heard with _ | heard
  · exact .inl hheard
  · have hlimit := h heard hheard
    have hmark := hsound.mark_le
    exact .inr ⟨heard, hheard, by omega⟩

/-- Only hearing something ends it, or an excuse that reaches back before the moment. -/
theorem OverdueSince.after {l : Ledger} {moment limit : Nat} (h : l.OverdueSince moment limit)
    (hsound : l.Sound) {time : Nat} {event : Event} (hadmits : l.Admits time event)
    (hnot : event ≠ .heard) (hexcuse : ∀ since length, event = .excused since length → moment ≤ since) :
    (l.after time event).OverdueSince moment limit := by
  intro heard hheard
  have hmark := hsound.mark_le_after hadmits
  cases event with
  | heard => exact absurd rfl hnot
  | polled =>
      have hlimit := h heard hheard
      show heard + l.excused + limit ≤ _
      omega
  | excused since length =>
      have hlimit := h heard hheard
      have hsince := hexcuse since length rfl
      have hstart := hadmits.2.1
      show heard + (l.excused + length) + limit ≤ max moment (since + length)
      omega
  | other =>
      have hlimit := h heard hheard
      show heard + l.excused + limit ≤ _
      omega

end Ledger

end Watchdog
