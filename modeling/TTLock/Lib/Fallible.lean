import Mathlib.Data.List.Forall2

set_option autoImplicit false

/-! # Steps that can fail

A step that can fail, taken after another one and once for each element of a list: when the whole
succeeds. -/

namespace Fallible

universe u v

variable {ε ε' : Type u} {α β : Type v}

theorem bind_eq_ok_iff {x : Except ε α} {f : α → Except ε β} {b : β} :
    x >>= f = .ok b ↔ ∃ a, x = .ok a ∧ f a = .ok b := by
  cases x with
  | error e => simp [bind, Except.bind]
  | ok a => simp [bind, Except.bind]

theorem mapError_eq_ok_iff {x : Except ε α} {f : ε → ε'} {a : α} :
    x.mapError f = .ok a ↔ x = .ok a := by
  cases x with
  | error e => simp [Except.mapError]
  | ok a' => simp [Except.mapError]

/-- A step that is taken only if there is something to take it with. -/
theorem optionMapM_eq_ok_iff {f : α → Except ε β} {a : Option α} {b : Option β} :
    a.mapM f = .ok b ↔ (a = none ∧ b = none) ∨ ∃ a' b', a = some a' ∧ b = some b' ∧ f a' = .ok b' := by
  cases a with
  | none =>
      rw [Option.mapM_none]
      constructor
      · intro h
        exact .inl ⟨rfl, (Except.ok.inj h).symm⟩
      · rintro (⟨-, rfl⟩ | ⟨a', b', ha, -, -⟩)
        · rfl
        · simp at ha
  | some a =>
      rw [Option.mapM_some]
      cases hf : f a with
      | error e => simp [hf, Functor.map, Except.map]
      | ok b' => simp [hf, Functor.map, Except.map, eq_comm]

/-- A list is gone through iff every step succeeds. -/
theorem mapM_eq_ok_iff {f : α → Except ε β} {as : List α} {bs : List β} :
    as.mapM f = .ok bs ↔ List.Forall₂ (fun a b => f a = .ok b) as bs := by
  induction as generalizing bs with
  | nil =>
      rw [List.mapM_nil, List.forall₂_nil_left_iff]
      constructor
      · intro h
        exact (Except.ok.inj h).symm
      · rintro rfl
        rfl
  | cons a as ih =>
      rw [List.mapM_cons, bind_eq_ok_iff, List.forall₂_cons_left_iff]
      refine exists_congr fun b => ?_
      rw [bind_eq_ok_iff]
      constructor
      · rintro ⟨hb, bs', hbs', hpure⟩
        exact ⟨bs', hb, ih.1 hbs', (Except.ok.inj hpure).symm⟩
      · rintro ⟨bs', hb, hbs', rfl⟩
        exact ⟨hb, bs', ih.2 hbs', rfl⟩

/-- One step that fails is enough for the whole to fail. -/
theorem exists_ok_of_mapM_eq_ok {f : α → Except ε β} {as : List α} {bs : List β}
    (h : as.mapM f = .ok bs) {a : α} (ha : a ∈ as) : ∃ b, f a = .ok b := by
  rw [mapM_eq_ok_iff] at h
  induction h with
  | nil => exact absurd ha List.not_mem_nil
  | @cons _ b _ _ hab _ ih =>
      rcases List.mem_cons.1 ha with rfl | ha
      · exact ⟨b, hab⟩
      · exact ih ha

/-- If every step succeeds, there are the results of all. -/
theorem exists_forall₂ {f : α → Except ε β} {as : List α} (h : ∀ a ∈ as, ∃ b, f a = .ok b) :
    ∃ bs, List.Forall₂ (fun a b => f a = .ok b) as bs := by
  induction as with
  | nil => exact ⟨[], .nil⟩
  | cons a as ih =>
      obtain ⟨⟨b, hb⟩, has⟩ := List.forall_mem_cons.1 h
      obtain ⟨bs, hbs⟩ := ih has
      exact ⟨b :: bs, .cons hb hbs⟩

/-- Every result is one of a step. -/
theorem exists_of_forall₂ {R : α → β → Prop} {as : List α} {bs : List β} (h : List.Forall₂ R as bs)
    {b : β} (hb : b ∈ bs) : ∃ a, R a b := by
  induction h with
  | nil => cases hb
  | @cons a b' as bs hab _ ih =>
      rcases List.mem_cons.1 hb with rfl | hb
      · exact ⟨a, hab⟩
      · exact ih hb

/-- Where the results of steps are told apart as what they are results of, the first that is looked for is
    the result of the first. -/
theorem find?_forall₂ {R : α → β → Prop} {p : α → Bool} {q : β → Bool} {as : List α} {bs : List β}
    (h : List.Forall₂ R as bs) (hpq : ∀ a b, R a b → p a = q b) :
    (as.find? p = none ∧ bs.find? q = none) ∨
      ∃ a b, as.find? p = some a ∧ bs.find? q = some b ∧ R a b := by
  induction h with
  | nil => exact .inl ⟨rfl, rfl⟩
  | @cons a b as bs hab _ ih =>
      have hsame := hpq a b hab
      cases hp : p a with
      | true =>
          rw [hp] at hsame
          exact .inr ⟨a, b, List.find?_cons_of_pos hp, List.find?_cons_of_pos hsame.symm, hab⟩
      | false =>
          rw [hp] at hsame
          rw [List.find?_cons_of_neg (by simp [hp]), List.find?_cons_of_neg (by simp [← hsame])]
          exact ih

end Fallible
