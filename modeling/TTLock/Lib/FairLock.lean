import Mathlib.Data.List.Basic

set_option autoImplicit false

/-! # A lock that is first come, first served

Whoever asks for the lock while it is held, or while others wait for it, waits behind them. A release
leaves it free until the first that waits gets its turn, and nobody gets in between. To those who ask it
is a `queue`: one is added at the end, and the first one leaves. -/

structure FairLock (ι : Type*) where
  holder : Option ι
  waiters : List ι
deriving DecidableEq, Repr

namespace FairLock

variable {ι : Type*}

def free : FairLock ι := { holder := none, waiters := [] }

/-- Ask for the lock. It is had at once only if nobody holds it or waits for it. -/
def acquire (i : ι) (lock : FairLock ι) : FairLock ι :=
  match lock.holder, lock.waiters with
  | none, [] => { holder := some i, waiters := [] }
  | holder, waiters => { holder, waiters := waiters ++ [i] }

/-- The first that waits gets its turn. -/
def grant (lock : FairLock ι) : Option (ι × FairLock ι) :=
  match lock.holder, lock.waiters with
  | none, i :: waiters => some (i, { holder := some i, waiters })
  | _, _ => none

def release (lock : FairLock ι) : FairLock ι := { lock with holder := none }

def queue (lock : FairLock ι) : List ι := lock.holder.toList ++ lock.waiters

variable {lock lock' : FairLock ι} {i : ι}

@[simp] theorem queue_free : (free : FairLock ι).queue = [] := rfl

@[simp] theorem queue_acquire : (lock.acquire i).queue = lock.queue ++ [i] := by
  rcases lock with ⟨_ | holder, _ | ⟨waiter, waiters⟩⟩ <;> simp [acquire, queue]

/-- Whoever has the lock after somebody asked for it had it before, or asked when it was all free. -/
theorem holder_acquire :
    (lock.acquire i).holder = if lock.queue = [] then some i else lock.holder := by
  rcases lock with ⟨_ | holder, _ | ⟨waiter, waiters⟩⟩ <;> simp [acquire, queue]

theorem free_of_acquire (h : (lock.acquire i).holder = none) : lock.holder = none := by
  rw [holder_acquire] at h
  split at h
  · cases h
  · exact h

theorem grant_eq_some (h : lock.grant = some (i, lock')) :
    lock.holder = none ∧ lock'.holder = some i ∧ lock'.queue = lock.queue := by
  rcases lock with ⟨_ | holder, _ | ⟨waiter, waiters⟩⟩ <;> simp only [grant, Option.some.injEq,
    Prod.mk.injEq, reduceCtorEq] at h
  obtain ⟨rfl, rfl⟩ := h
  exact ⟨rfl, rfl, rfl⟩

theorem queue_of_holder (h : lock.holder = some i) : lock.queue = i :: lock.release.queue := by
  simp [queue, release, h]

@[simp] theorem holder_release : lock.release.holder = none := rfl

end FairLock
