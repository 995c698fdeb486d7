import Mathlib.Data.Fintype.Pigeonhole

set_option autoImplicit false

/-! # Following a partial function

Someone follows `next` from a value on and stops where it leads nowhere, or nowhere else. On a finite type
they stop iff they never come back to a value they left (`stops_iff`). -/

namespace Orbit

variable {α : Type*} (next : α → Option α)

/-- Where so many steps lead. -/
def steps : Nat → α → Option α
  | 0, a => some a
  | n + 1, a => (next a).bind (steps n)

/-- A step leads nowhere, or back to where it began. -/
def Stops (a : α) : Prop :=
  ∃ n b, steps next n a = some b ∧ (next b = none ∨ next b = some b)

/-- Whatever comes back was not left. -/
def NeverReturns (a : α) : Prop :=
  ∀ i j b, i < j → steps next i a = some b → steps next j a = some b → next b = some b

variable {next}

theorem steps_add (m n : Nat) (a : α) :
    steps next (m + n) a = (steps next m a).bind (steps next n) := by
  induction m generalizing a with
  | zero => rw [Nat.zero_add]; rfl
  | succ m ih =>
      rw [Nat.add_right_comm, steps, steps, Option.bind_assoc]
      exact Option.bind_congr fun b _ => ih b

theorem stops_of_next {a b : α} (h : next a = some b) (hb : Stops next b) : Stops next a := by
  obtain ⟨n, c, hc, hstop⟩ := hb
  exact ⟨n + 1, c, by rw [steps, h]; exact hc, hstop⟩

/-- After a step that leads nowhere there is nothing, after one that leads nowhere else the same. -/
theorem steps_of_stopped {a b : α} (h : next a = none ∨ next a = some a) {n : Nat}
    (hn : steps next n a = some b) : b = a ∧ (n = 0 ∨ next a = some a) := by
  induction n with
  | zero => exact ⟨(Option.some.inj hn).symm, .inl rfl⟩
  | succ n ih =>
      rcases h with hnone | hself
      · rw [steps, hnone] at hn
        cases hn
      · rw [steps, hself] at hn
        exact ⟨(ih hn).1, .inr hself⟩

/-- What comes back once comes back again and again. -/
theorem steps_return {a b : α} {i k : Nat} (hi : steps next i a = some b)
    (hk : steps next (i + k) a = some b) (m : Nat) : steps next (i + m * k) a = some b := by
  rw [steps_add, hi] at hk
  change steps next k b = some b at hk
  have hm : steps next (m * k) b = some b := by
    induction m with
    | zero => rw [Nat.zero_mul]; rfl
    | succ m ih => rw [Nat.succ_mul, steps_add, ih]; exact hk
  rw [steps_add, hi]
  exact hm

/-- Whoever never stops visits something after every number of steps. -/
theorem exists_steps_of_not_stops {a : α} (h : ¬Stops next a) (n : Nat) :
    ∃ b, steps next n a = some b := by
  induction n generalizing a with
  | zero => exact ⟨a, rfl⟩
  | succ n ih =>
      rcases hnext : next a with _ | b
      · exact absurd ⟨0, a, rfl, .inl hnext⟩ h
      · rw [steps, hnext]
        exact ih fun hb => h (stops_of_next hnext hb)

/-- **On a finite type** one stops iff what was left never comes back. -/
theorem stops_iff [Finite α] (a : α) : Stops next a ↔ NeverReturns next a := by
  constructor
  · rintro ⟨n, b, hn, hstop⟩ i j c hij hi hj
    obtain ⟨k, rfl⟩ := Nat.exists_eq_add_of_lt hij
    -- `c` comes back after `n` as well
    have hlater := steps_return (k := k + 1) hi hj (n + 1)
    obtain ⟨extra, hextra⟩ : ∃ extra, i + (n + 1) * (k + 1) = n + (extra + 1) :=
      ⟨i + n * k + k, by rw [Nat.add_one_mul, Nat.mul_add_one]; omega⟩
    rw [hextra, steps_add, hn] at hlater
    obtain ⟨rfl, hzero | hself⟩ := steps_of_stopped hstop hlater
    · cases hzero
    · exact hself
  · intro hnever
    by_contra hstops
    choose visited hvisited using exists_steps_of_not_stops hstops
    obtain ⟨i, j, hij, heq⟩ := Finite.exists_ne_map_eq_of_infinite visited
    have hreturn : ∀ {i j : Nat}, i < j → visited i = visited j → False := by
      intro i j hij heq
      have hself := hnever i j (visited i) hij (hvisited i) (heq ▸ hvisited j)
      exact hstops ⟨i, visited i, hvisited i, .inr hself⟩
    rcases Nat.lt_or_gt_of_ne hij with hlt | hgt
    · exact hreturn hlt heq
    · exact hreturn hgt heq.symm

end Orbit
