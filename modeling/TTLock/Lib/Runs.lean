import Mathlib.Data.List.Basic

set_option autoImplicit false

/-! # Runs of a partial step function

`step s a = some s'` says that action `a` is enabled in state `s` and leads to `s'`; `none` that it
is not enabled. `exec` runs a whole list of actions. The rules below turn a fact about one step into
one about every run, either unconditionally (`exec_invariant`) or along the runs whose steps all meet
a condition on the state they start from (`exec_guarded`). -/

namespace Runs

variable {σ α : Type*}

/-- The state after a list of actions, if each is enabled when its turn comes. -/
def exec (step : σ → α → Option σ) : σ → List α → Option σ
  | s, [] => some s
  | s, a :: as => (step s a).bind fun s' => exec step s' as

/-- Every step of the run meets the condition `G` on the state it starts from. -/
def Guarded (step : σ → α → Option σ) (G : σ → α → Prop) : σ → List α → Prop
  | _, [] => True
  | s, a :: as => G s a ∧ ∀ s', step s a = some s' → Guarded step G s' as

variable {step : σ → α → Option σ}

theorem exec_cons (s : σ) (a : α) (as : List α) :
    exec step s (a :: as) = (step s a).bind fun s' => exec step s' as := rfl

theorem exec_cons_eq_some {s t : σ} {a : α} {as : List α} :
    exec step s (a :: as) = some t ↔ ∃ s', step s a = some s' ∧ exec step s' as = some t := by
  simp only [exec_cons, Option.bind_eq_some_iff]

theorem exec_singleton (s : σ) (a : α) : exec step s [a] = step s a := Option.bind_fun_some _

theorem exec_append (s : σ) (as bs : List α) :
    exec step s (as ++ bs) = (exec step s as).bind fun t => exec step t bs := by
  induction as generalizing s with
  | nil => rfl
  | cons a as ih =>
      rw [List.cons_append, exec_cons, exec_cons, Option.bind_assoc]
      exact congrArg (Option.bind _) (funext fun s' => ih s')

/-- What holds at the start and is kept by every step holds at the end of every run. -/
theorem exec_invariant {I : σ → Prop} (hstep : ∀ s a s', I s → step s a = some s' → I s') :
    ∀ {as : List α} {s t : σ}, exec step s as = some t → I s → I t := by
  intro as
  induction as with
  | nil => intro s t h hs; exact Option.some.inj h ▸ hs
  | cons a as ih =>
      intro s t h hs
      obtain ⟨s', hs', ht⟩ := exec_cons_eq_some.1 h
      exact ih ht (hstep s a s' hs hs')

/-- An invariant of the steps that meet `G` holds at the end of every run of such steps. -/
theorem exec_guarded {G : σ → α → Prop} {I : σ → Prop}
    (hstep : ∀ s a s', I s → G s a → step s a = some s' → I s') :
    ∀ {as : List α} {s t : σ}, Guarded step G s as → exec step s as = some t → I s → I t := by
  intro as
  induction as with
  | nil => intro s t _ h hs; exact Option.some.inj h ▸ hs
  | cons a as ih =>
      intro s t hg h hs
      obtain ⟨s', hs', ht⟩ := exec_cons_eq_some.1 h
      exact ih (hg.2 s' hs') ht (hstep s a s' hs hg.1 hs')

/-- A condition on the actions alone. -/
theorem guarded_of_forall {G : α → Prop} {as : List α} (h : ∀ a ∈ as, G a) (s : σ) :
    Guarded step (fun _ a => G a) s as := by
  induction as generalizing s with
  | nil => trivial
  | cons a as ih =>
      exact ⟨h a List.mem_cons_self, fun s' _ => ih (fun b hb => h b (List.mem_cons_of_mem a hb)) s'⟩

/-- If a step ends in `P` iff it starts in `P` and meets `G`, so does a run. -/
theorem exec_iff_guarded {P : σ → Prop} {G : σ → α → Prop}
    (hstep : ∀ s a s', step s a = some s' → (P s' ↔ P s ∧ G s a)) :
    ∀ {as : List α} {s t : σ}, exec step s as = some t → (P t ↔ P s ∧ Guarded step G s as) := by
  intro as
  induction as with
  | nil => intro s t h; simp [Option.some.inj h, Guarded]
  | cons a as ih =>
      intro s t h
      obtain ⟨s', hs', ht⟩ := exec_cons_eq_some.1 h
      have honly : (∀ s'', step s a = some s'' → Guarded step G s'' as) ↔ Guarded step G s' as := by
        refine ⟨fun h => h s' hs', fun h s'' hs'' => ?_⟩
        exact Option.some.inj (hs'.symm.trans hs'') ▸ h
      rw [ih ht, hstep s a s' hs', and_assoc, Guarded, honly]

/-- The actions of another machine that the actions of a run stand for. -/
def projected {β : Type*} (step : σ → α → Option σ) (g : σ → α → List β) : σ → List α → List β
  | _, [] => []
  | s, a :: as => g s a ++ match step s a with
      | some s' => projected step g s' as
      | none => []

/-- If every step is a run of the other machine, so is every run. -/
theorem exec_projected {τ β : Type*} {step' : τ → β → Option τ} {f : σ → τ} {g : σ → α → List β}
    (hstep : ∀ s a s', step s a = some s' → exec step' (f s) (g s a) = some (f s')) :
    ∀ {as : List α} {s t : σ}, exec step s as = some t →
      exec step' (f s) (projected step g s as) = some (f t) := by
  intro as
  induction as with
  | nil => intro s t h; rw [← Option.some.inj h]; rfl
  | cons a as ih =>
      intro s t h
      obtain ⟨s', hs', ht⟩ := exec_cons_eq_some.1 h
      rw [projected, hs', exec_append, hstep s a s' hs', Option.bind_some]
      exact ih ht

/-- What every step keeps, of the state and of the actions that those before it stand for, holds at the
    end of every run. -/
theorem exec_traced {β : Type*} {g : σ → α → List β} {I : σ → List β → Prop}
    (hstep : ∀ s a s' bs, I s bs → step s a = some s' → I s' (bs ++ g s a)) :
    ∀ {as : List α} {s t : σ} {bs : List β}, exec step s as = some t → I s bs →
      I t (bs ++ projected step g s as) := by
  intro as
  induction as with
  | nil =>
      intro s t bs h hs
      rw [projected, List.append_nil]
      exact Option.some.inj h ▸ hs
  | cons a as ih =>
      intro s t bs h hs
      obtain ⟨s', hs', ht⟩ := exec_cons_eq_some.1 h
      rw [projected, hs', ← List.append_assoc]
      exact ih ht (hstep s a s' bs hs hs')

/-- `P` holds in every state of the run, first and last included. -/
def Always (step : σ → α → Option σ) (P : σ → Prop) : σ → List α → Prop
  | s, [] => P s
  | s, a :: as => P s ∧ ∀ s', step s a = some s' → Always step P s' as

/-- `Always` speaks about the states the prefixes of a run end in. -/
theorem always_iff_prefix {P : σ → Prop} {s : σ} {as : List α} :
    Always step P s as ↔ ∀ bs cs t, as = bs ++ cs → exec step s bs = some t → P t := by
  induction as generalizing s with
  | nil =>
      refine ⟨fun h bs cs t has hbs => ?_, fun h => h [] [] s rfl rfl⟩
      obtain ⟨rfl, -⟩ := List.append_eq_nil_iff.1 has.symm
      exact Option.some.inj hbs ▸ h
  | cons a as ih =>
      constructor
      · rintro ⟨hs, hrest⟩ bs cs t has hbs
        cases bs with
        | nil => exact Option.some.inj hbs ▸ hs
        | cons b bs =>
            obtain ⟨rfl, rfl⟩ := List.cons.inj has
            obtain ⟨s', hs', ht⟩ := exec_cons_eq_some.1 hbs
            exact ih.1 (hrest s' hs') bs cs t rfl ht
      · intro h
        refine ⟨h [] (a :: as) s rfl rfl, fun s' hs' => ih.2 fun bs cs t has hbs => ?_⟩
        exact h (a :: bs) cs t (by rw [has]; rfl) (exec_cons_eq_some.2 ⟨s', hs', hbs⟩)

/-- If the steps that keep `P` are exactly those that meet `G`, the runs that keep `P` are exactly
    those whose steps all meet `G`. -/
theorem always_iff_guarded {P : σ → Prop} {G : σ → α → Prop}
    (hstep : ∀ s a s', P s → step s a = some s' → (P s' ↔ G s a)) :
    ∀ {as : List α} {s t : σ}, exec step s as = some t → P s →
      (Always step P s as ↔ Guarded step G s as) := by
  intro as
  induction as with
  | nil => exact fun _ hs => iff_of_true hs trivial
  | cons a as ih =>
      intro s t h hs
      obtain ⟨s', hs', ht⟩ := exec_cons_eq_some.1 h
      have hiff := hstep s a s' hs hs'
      constructor
      · rintro ⟨-, hrest⟩
        have hP : P s' := by
          have hkept := always_iff_prefix.1 (hrest s' hs') [] as s' rfl rfl
          exact hkept
        refine ⟨hiff.1 hP, fun s'' hs'' => ?_⟩
        obtain rfl := Option.some.inj (hs'.symm.trans hs'')
        exact (ih ht hP).1 (hrest s' hs')
      · rintro ⟨hG, hrest⟩
        refine ⟨hs, fun s'' hs'' => ?_⟩
        obtain rfl := Option.some.inj (hs'.symm.trans hs'')
        exact (ih ht (hiff.2 hG)).2 (hrest s' hs')

end Runs
