import Mathlib.Data.List.Basic

set_option autoImplicit false

/-! # Mealy machines

A machine reads one input at a time, answers each and moves to its next state; `step` is any
function `σ → ι → ο × σ`. This file runs such a machine over a list of inputs and collects the rules
the proofs about concrete machines use: how a run splits over `++`, how an invariant of the steps
becomes one of the whole run, what a single answer of a run is, and when inputs can be deleted from
a run without anybody noticing. -/

namespace Mealy

variable {σ ι ο : Type*}

/-! ## Running a machine -/

/-- Every input with the answer it got, in order. -/
def trace (step : σ → ι → ο × σ) : σ → List ι → List (ι × ο)
  | _, [] => []
  | s, i :: is => (i, (step s i).1) :: trace step (step s i).2 is

/-- The answers of a run, in order. -/
def outputs (step : σ → ι → ο × σ) (s : σ) (is : List ι) : List ο :=
  (trace step s is).map Prod.snd

/-- The state a run ends in. -/
def final (step : σ → ι → ο × σ) : σ → List ι → σ
  | s, [] => s
  | s, i :: is => final step (step s i).2 is

variable (step : σ → ι → ο × σ)

@[simp] theorem trace_nil (s : σ) : trace step s [] = [] := rfl

@[simp] theorem trace_cons (s : σ) (i : ι) (is : List ι) :
    trace step s (i :: is) = (i, (step s i).1) :: trace step (step s i).2 is := rfl

@[simp] theorem outputs_nil (s : σ) : outputs step s [] = [] := rfl

@[simp] theorem outputs_cons (s : σ) (i : ι) (is : List ι) :
    outputs step s (i :: is) = (step s i).1 :: outputs step (step s i).2 is := rfl

@[simp] theorem final_nil (s : σ) : final step s [] = s := rfl

@[simp] theorem final_cons (s : σ) (i : ι) (is : List ι) :
    final step s (i :: is) = final step (step s i).2 is := rfl

theorem trace_append (s : σ) (is js : List ι) :
    trace step s (is ++ js) = trace step s is ++ trace step (final step s is) js := by
  induction is generalizing s with
  | nil => rfl
  | cons i is ih => simp only [List.cons_append, trace_cons, final_cons, ih]

theorem outputs_append (s : σ) (is js : List ι) :
    outputs step s (is ++ js) = outputs step s is ++ outputs step (final step s is) js := by
  simp only [outputs, trace_append, List.map_append]

/-- The answer at position `n` is the one the state after the first `n` inputs gives. -/
theorem outputs_getElem? (s : σ) (is : List ι) (n : Nat) :
    (outputs step s is)[n]? = (is[n]?).map fun i => (step (final step s (is.take n)) i).1 := by
  induction is generalizing s n with
  | nil => simp
  | cons i is ih =>
      cases n with
      | zero => simp
      | succ n => simp only [outputs_cons, List.getElem?_cons_succ, ih, List.take_succ_cons, final_cons]

/-! ## Invariants -/

/-- What holds at the start and is kept by every step holds at the end of every run. -/
theorem final_invariant {I : σ → Prop} (hstep : ∀ s i, I s → I (step s i).2) {s : σ} (hs : I s)
    (is : List ι) : I (final step s is) := by
  induction is generalizing s with
  | nil => exact hs
  | cons i is ih => exact ih (hstep s i hs)

/-- If an invariant state answers every input with a `Q`, so does the whole run. -/
theorem outputs_forall {I : σ → Prop} {Q : ο → Prop} (hstep : ∀ s i, I s → I (step s i).2)
    (hout : ∀ s i, I s → Q (step s i).1) {s : σ} (hs : I s) (is : List ι) :
    ∀ o ∈ outputs step s is, Q o := by
  induction is generalizing s with
  | nil => simp
  | cons i is ih =>
      rw [outputs_cons]
      exact List.forall_mem_cons.2 ⟨hout s i hs, ih (hstep s i hs)⟩

/-! ## Deleting inputs that leave no mark -/

section Prune

variable (drop : ι → ο → Bool)

/-- The input-answer pairs of a run that `drop` does not name. -/
def kept (s : σ) (is : List ι) : List (ι × ο) :=
  (trace step s is).filter fun p => !drop p.1 p.2

theorem kept_cons_of_dropped {s : σ} {i : ι} (h : drop i (step s i).1 = true) (is : List ι) :
    kept step drop s (i :: is) = kept step drop (step s i).2 is := by
  rw [kept, trace_cons, List.filter_cons_of_neg (by simp [h]), kept]

theorem kept_cons_of_kept {s : σ} {i : ι} (h : ¬drop i (step s i).1 = true) (is : List ι) :
    kept step drop s (i :: is) = (i, (step s i).1) :: kept step drop (step s i).2 is := by
  rw [kept, trace_cons, List.filter_cons_of_pos (by simp [h]), kept]

/-- If every dropped input leaves the state alone, running the kept inputs alone gives exactly the
    kept answers. -/
theorem trace_kept (hdrop : ∀ s i, drop i (step s i).1 = true → (step s i).2 = s) (s : σ)
    (is : List ι) : trace step s ((kept step drop s is).map Prod.fst) = kept step drop s is := by
  induction is generalizing s with
  | nil => rfl
  | cons i is ih =>
      by_cases h : drop i (step s i).1 = true
      · rw [kept_cons_of_dropped step drop h, hdrop s i h]
        exact ih s
      · rw [kept_cons_of_kept step drop h, List.map_cons, trace_cons, ih]

/-- The kept inputs also lead to the same state. -/
theorem final_kept (hdrop : ∀ s i, drop i (step s i).1 = true → (step s i).2 = s) (s : σ)
    (is : List ι) : final step s ((kept step drop s is).map Prod.fst) = final step s is := by
  induction is generalizing s with
  | nil => rfl
  | cons i is ih =>
      by_cases h : drop i (step s i).1 = true
      · rw [kept_cons_of_dropped step drop h, final_cons, hdrop s i h]
        exact ih s
      · rw [kept_cons_of_kept step drop h, List.map_cons, final_cons, final_cons, ih]

end Prune

end Mealy
