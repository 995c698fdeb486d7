import Mathlib.Data.List.Basic

set_option autoImplicit false

/-! # Exchanges with retries

A machine sends requests and is handed whatever arrives. What it rejects leaves it where it was and is
of one of two kinds: *stray* input is no reply at all, and the driver goes on waiting; *corrupt* input
may have been the reply, and the driver sends the request again. For each request a driver puts up with
so many of either; some start counting stray input afresh whenever they send again (`restart`).

`exchanges` cuts a script of arriving input into one exchange a request, as if nothing were bounded.
`attend` drives the machine over the script within bounds, and comes to the same as `performed`: the
exchanges up to the first that overruns a bound, which is cut short (`attend_eq`). -/

namespace Retry

variable {σ ι F T E : Type}

/-! ## Machines and drivers -/

inductive Kind where
  | stray
  | corrupt
deriving DecidableEq, Repr

/-- What a machine makes of an input. -/
inductive Verdict (F T E : Type) where
  | send (request : F)
  | done (output : T)
  | rejected (kind : Kind) (error : E)
  | fatal (error : E)

inductive Event (F ι : Type) where
  | sent (request : F)
  | got (input : ι)
deriving DecidableEq, Repr

inductive Ending (T E : Type) where
  | done (output : T)
  | failed (error : E)
  /-- Nothing arrived any more. -/
  | ranOut
deriving DecidableEq, Repr

structure Outcome (ι F T E : Type) where
  ending : Ending T E
  events : List (Event F ι)
deriving DecidableEq

def Outcome.after (self : Outcome ι F T E) (events : List (Event F ι)) : Outcome ι F T E :=
  { self with events := events ++ self.events }

structure Bounds where
  stray : Nat
  corrupt : Nat
  restart : Bool
deriving DecidableEq, Repr

/-- Drive a machine that waits for the reply to `request`, with so much stray and corrupt input still
    allowed. -/
def attend (B : Bounds) (handle : σ → ι → Verdict F T E × σ) (request : F)
    (strayLeft corruptLeft : Nat) (s : σ) : List ι → Outcome ι F T E
  | [] => ⟨.ranOut, []⟩
  | i :: is => match handle s i with
    | (.send next, s') =>
        (attend B handle next B.stray B.corrupt s' is).after [.got i, .sent next]
    | (.done output, _) => ⟨.done output, [.got i]⟩
    | (.fatal e, _) => ⟨.failed e, [.got i]⟩
    | (.rejected .stray e, s') => match strayLeft with
      | 0 => ⟨.failed e, [.got i]⟩
      | left + 1 => (attend B handle request left corruptLeft s' is).after [.got i]
    | (.rejected .corrupt e, s') => match corruptLeft with
      | 0 => ⟨.failed e, [.got i]⟩
      | left + 1 =>
          (attend B handle request (if B.restart then B.stray else strayLeft) left s' is).after
            [.got i, .sent request]

/-! ## Exchanges -/

structure Rejection (ι E : Type) where
  input : ι
  kind : Kind
  error : E
deriving DecidableEq

/-- How an exchange ends. -/
inductive Close (ι T E : Type) where
  /-- The machine went on to its next request. -/
  | answered (input : ι)
  | finished (input : ι) (output : T)
  | fatal (input : ι) (error : E)
  | gaveUp (rejection : Rejection ι E)
  | ranOut
deriving DecidableEq

structure Exchange (ι F T E : Type) where
  request : F
  rejected : List (Rejection ι E)
  close : Close ι T E
deriving DecidableEq

/-- One more rejection at the beginning. -/
def withRejection (r : Rejection ι E) : List (Exchange ι F T E) → List (Exchange ι F T E)
  | [] => []
  | x :: xs => { x with rejected := r :: x.rejected } :: xs

/-- The exchanges of a script, one a request, if nothing is bounded. -/
def exchanges (handle : σ → ι → Verdict F T E × σ) (request : F) (s : σ) :
    List ι → List (Exchange ι F T E)
  | [] => [⟨request, [], .ranOut⟩]
  | i :: is => match handle s i with
    | (.send next, s') => ⟨request, [], .answered i⟩ :: exchanges handle next s' is
    | (.done output, _) => [⟨request, [], .finished i output⟩]
    | (.fatal e, _) => [⟨request, [], .fatal i e⟩]
    | (.rejected kind e, s') => withRejection ⟨i, kind, e⟩ (exchanges handle request s' is)

/-- The script without what is rejected. -/
def clean (handle : σ → ι → Verdict F T E × σ) (s : σ) : List ι → List ι
  | [] => []
  | i :: is => match handle s i with
    | (.send _, s') => i :: clean handle s' is
    | (.done _, _) | (.fatal _, _) => i :: is
    | (.rejected _ _, s') => clean handle s' is

/-- What a rejection looks like from outside. -/
def Rejection.events (request : F) (self : Rejection ι E) : List (Event F ι) :=
  match self.kind with
  | .stray => [.got self.input]
  | .corrupt => [.got self.input, .sent request]

def Close.events : Close ι T E → List (Event F ι)
  | .answered i | .finished i _ | .fatal i _ => [.got i]
  | .gaveUp r => [.got r.input]
  | .ranOut => []

def Close.ending : Close ι T E → Ending T E
  | .finished _ output => .done output
  | .fatal _ e => .failed e
  | .gaveUp r => .failed r.error
  | .answered _ | .ranOut => .ranOut

/-- What an exchange looks like, once its request was sent. -/
def Exchange.events (self : Exchange ι F T E) : List (Event F ι) :=
  self.rejected.flatMap (Rejection.events self.request) ++ self.close.events

/-- What an exchange looks like. -/
def Exchange.log (self : Exchange ι F T E) : List (Event F ι) := .sent self.request :: self.events

/-- What exchanges come to, once the first request was sent. -/
def replay : List (Exchange ι F T E) → Outcome ι F T E
  | [] => ⟨.ranOut, []⟩
  | [x] => ⟨x.close.ending, x.events⟩
  | x :: y :: ys => (replay (y :: ys)).after (x.events ++ [.sent y.request])

/-- The rejections a driver puts up with, and the one at which it gives up. -/
def cut (B : Bounds) (strayLeft corruptLeft : Nat) :
    List (Rejection ι E) → List (Rejection ι E) × Option (Rejection ι E)
  | [] => ([], none)
  | r :: rs => match r.kind with
    | .stray => match strayLeft with
      | 0 => ([], some r)
      | left + 1 => (cut B left corruptLeft rs).map (r :: ·) id
    | .corrupt => match corruptLeft with
      | 0 => ([], some r)
      | left + 1 => (cut B (if B.restart then B.stray else strayLeft) left rs).map (r :: ·) id

/-- The exchanges up to the first that overruns a bound, with so much input still allowed in the first
    of them. -/
def performedFrom (B : Bounds) (strayLeft corruptLeft : Nat) :
    List (Exchange ι F T E) → List (Exchange ι F T E)
  | [] => []
  | x :: xs => match cut B strayLeft corruptLeft x.rejected with
    | (before, some r) => [{ x with rejected := before, close := .gaveUp r }]
    | (_, none) => x :: performedFrom B B.stray B.corrupt xs

def performed (B : Bounds) : List (Exchange ι F T E) → List (Exchange ι F T E) :=
  performedFrom B B.stray B.corrupt

/-! ## Driving is replaying what was performed -/

section

variable (B : Bounds) (handle : σ → ι → Verdict F T E × σ)

@[simp] theorem Outcome.after_after (o : Outcome ι F T E) (es es' : List (Event F ι)) :
    (o.after es).after es' = o.after (es' ++ es) := by
  simp [Outcome.after]

@[simp] theorem Outcome.after_ending (o : Outcome ι F T E) (es : List (Event F ι)) :
    (o.after es).ending = o.ending := rfl

@[simp] theorem Outcome.after_events (o : Outcome ι F T E) (es : List (Event F ι)) :
    (o.after es).events = es ++ o.events := rfl

theorem exchanges_eq_cons (request : F) (s : σ) (is : List ι) :
    ∃ x xs, exchanges handle request s is = x :: xs ∧ x.request = request := by
  induction is generalizing s with
  | nil => exact ⟨_, [], rfl, rfl⟩
  | cons i is ih =>
      rw [exchanges]
      rcases handle s i with ⟨next | output | ⟨kind, e⟩ | e, s'⟩
      · exact ⟨_, _, rfl, rfl⟩
      · exact ⟨_, _, rfl, rfl⟩
      · obtain ⟨x, xs, hxs, hx⟩ := ih s'
        dsimp only
        rw [hxs]
        exact ⟨_, xs, rfl, hx⟩
      · exact ⟨_, _, rfl, rfl⟩

theorem performedFrom_eq_cons (strayLeft corruptLeft : Nat) (x : Exchange ι F T E)
    (xs : List (Exchange ι F T E)) :
    ∃ y ys, performedFrom B strayLeft corruptLeft (x :: xs) = y :: ys ∧ y.request = x.request := by
  rw [performedFrom]
  rcases cut B strayLeft corruptLeft x.rejected with ⟨before, _ | r⟩
  · exact ⟨x, _, rfl, rfl⟩
  · exact ⟨_, [], rfl, rfl⟩

theorem performedFrom_unrejected (strayLeft corruptLeft : Nat) (request : F) (close : Close ι T E)
    (xs : List (Exchange ι F T E)) :
    performedFrom B strayLeft corruptLeft (⟨request, [], close⟩ :: xs) =
      ⟨request, [], close⟩ :: performedFrom B B.stray B.corrupt xs := rfl

/-- A rejection that is put up with leaves the rest of the exchange with one less. -/
theorem performedFrom_withRejection {strayLeft corruptLeft strayLeft' corruptLeft' : Nat}
    {r : Rejection ι E} (hcut : ∀ rs : List (Rejection ι E), cut B strayLeft corruptLeft (r :: rs) =
      (cut B strayLeft' corruptLeft' rs).map (r :: ·) id) (x : Exchange ι F T E)
    (xs : List (Exchange ι F T E)) :
    performedFrom B strayLeft corruptLeft (withRejection r (x :: xs)) =
      withRejection r (performedFrom B strayLeft' corruptLeft' (x :: xs)) := by
  simp only [withRejection, performedFrom, hcut]
  rcases cut B strayLeft' corruptLeft' x.rejected with ⟨before, _ | r'⟩ <;> rfl

/-- One that is not ends it. -/
theorem performedFrom_giveUp {strayLeft corruptLeft : Nat} {r : Rejection ι E}
    (hcut : ∀ rs : List (Rejection ι E), cut B strayLeft corruptLeft (r :: rs) = ([], some r))
    (x : Exchange ι F T E) (xs : List (Exchange ι F T E)) :
    performedFrom B strayLeft corruptLeft (withRejection r (x :: xs)) =
      [{ request := x.request, rejected := [], close := .gaveUp r }] := by
  simp only [withRejection, performedFrom, hcut]

theorem replay_withRejection (r : Rejection ι E) (x : Exchange ι F T E)
    (xs : List (Exchange ι F T E)) :
    replay (withRejection r (x :: xs)) = (replay (x :: xs)).after (r.events x.request) := by
  cases xs with
  | nil => simp [withRejection, replay, Exchange.events, Outcome.after]
  | cons y ys => simp [withRejection, replay, Exchange.events, Outcome.after]

/-- **Driving a machine** comes to the exchanges that were performed. -/
theorem attend_eq (request : F) (strayLeft corruptLeft : Nat) (s : σ) (is : List ι) :
    attend B handle request strayLeft corruptLeft s is =
      replay (performedFrom B strayLeft corruptLeft (exchanges handle request s is)) := by
  induction is generalizing request strayLeft corruptLeft s with
  | nil => rfl
  | cons i is ih =>
      rw [attend, exchanges]
      rcases handle s i with ⟨next | output | ⟨kind, e⟩ | e, s'⟩
      · dsimp only
        obtain ⟨x, xs, hxs, hx⟩ := exchanges_eq_cons handle next s' is
        obtain ⟨y, ys, hys, hy⟩ := performedFrom_eq_cons B B.stray B.corrupt x xs
        rw [ih, hxs, performedFrom_unrejected, hys, replay, hy, hx]
        rfl
      · rfl
      · dsimp only
        obtain ⟨x, xs, hxs, hx⟩ := exchanges_eq_cons handle request s' is
        rw [hxs]
        cases kind with
        | stray =>
            cases strayLeft with
            | zero =>
                rw [performedFrom_giveUp B (fun rs => rfl)]
                rfl
            | succ left =>
                dsimp only
                obtain ⟨y, ys, hys, hy⟩ := performedFrom_eq_cons B left corruptLeft x xs
                rw [performedFrom_withRejection B (fun rs => rfl), ih, hxs, hys, replay_withRejection]
                rfl
        | corrupt =>
            cases corruptLeft with
            | zero =>
                rw [performedFrom_giveUp B (fun rs => rfl)]
                rfl
            | succ left =>
                dsimp only
                obtain ⟨y, ys, hys, hy⟩ := performedFrom_eq_cons B
                  (if B.restart then B.stray else strayLeft) left x xs
                rw [performedFrom_withRejection B (fun rs => rfl), ih, hxs, hys, replay_withRejection,
                  Rejection.events, hy, hx]
      · rfl

/-- What exchanges look like from the outside, the first request included. -/
theorem replay_log (x : Exchange ι F T E) (xs : List (Exchange ι F T E)) :
    .sent x.request :: (replay (x :: xs)).events = (x :: xs).flatMap Exchange.log := by
  induction xs generalizing x with
  | nil => simp [replay, Exchange.log]
  | cons y ys ih =>
      rw [List.flatMap_cons, ← ih y]
      simp [replay, Exchange.log]

theorem replay_ending (xs : List (Exchange ι F T E)) (x : Exchange ι F T E) :
    (replay (xs ++ [x])).ending = x.close.ending := by
  induction xs with
  | nil => rfl
  | cons y ys ih =>
      cases ys with
      | nil => rfl
      | cons z zs => exact ih

end

/-! ## What a driver puts up with -/

/-- How many of a kind there are. -/
def count (kind : Kind) (rs : List (Rejection ι E)) : Nat := rs.countP fun r => r.kind = kind

@[simp] theorem count_nil (kind : Kind) : count kind ([] : List (Rejection ι E)) = 0 := rfl

theorem count_cons (kind : Kind) (r : Rejection ι E) (rs : List (Rejection ι E)) :
    count kind (r :: rs) = count kind rs + if r.kind = kind then 1 else 0 := by
  simp [count, List.countP_cons]

/-- The exchange is within the bounds as a whole. -/
def Exchange.Within (B : Bounds) (self : Exchange ι F T E) : Prop :=
  count .stray self.rejected ≤ B.stray ∧ count .corrupt self.rejected ≤ B.corrupt

instance (B : Bounds) (x : Exchange ι F T E) : Decidable (x.Within B) :=
  inferInstanceAs (Decidable (_ ∧ _))

/-- `r` comes after as much stray and corrupt input as is allowed, and is one too many. -/
def Overruns (strayLeft corruptLeft : Nat) (before : List (Rejection ι E)) (r : Rejection ι E) :
    Prop :=
  (r.kind = .stray ∧ count .stray before = strayLeft ∧ count .corrupt before ≤ corruptLeft) ∨
    (r.kind = .corrupt ∧ count .corrupt before = corruptLeft ∧ count .stray before ≤ strayLeft)

section

variable {B : Bounds}

theorem cut_stray_zero {r : Rejection ι E} (hk : r.kind = .stray) (rs : List (Rejection ι E))
    (corruptLeft : Nat) : cut B 0 corruptLeft (r :: rs) = ([], some r) := by
  simp only [cut, hk]

theorem cut_stray_succ {r : Rejection ι E} (hk : r.kind = .stray) (rs : List (Rejection ι E))
    (left corruptLeft : Nat) :
    cut B (left + 1) corruptLeft (r :: rs) = (cut B left corruptLeft rs).map (r :: ·) id := by
  simp only [cut, hk]

theorem cut_corrupt_zero {r : Rejection ι E} (hk : r.kind = .corrupt) (rs : List (Rejection ι E))
    (strayLeft : Nat) : cut B strayLeft 0 (r :: rs) = ([], some r) := by
  simp only [cut, hk]

theorem cut_corrupt_succ {r : Rejection ι E} (hk : r.kind = .corrupt) (rs : List (Rejection ι E))
    (strayLeft left : Nat) :
    cut B strayLeft (left + 1) (r :: rs) =
      (cut B (if B.restart then B.stray else strayLeft) left rs).map (r :: ·) id := by
  simp only [cut, hk]

/-- What the head of a cut that goes on is made of. -/
theorem map_cons_eq {r : Rejection ι E} {c : List (Rejection ι E) × Option (Rejection ι E)}
    {before : List (Rejection ι E)} {end? : Option (Rejection ι E)}
    (h : c.map (r :: ·) id = (before, end?)) : ∃ rest, before = r :: rest ∧ c = (rest, end?) := by
  obtain ⟨rest, e⟩ := c
  obtain ⟨rfl, rfl⟩ := Prod.mk.inj h
  exact ⟨rest, rfl, rfl⟩

/-- A rejection is given up at or put up with. -/
theorem cut_cons (r : Rejection ι E) (rs : List (Rejection ι E)) (strayLeft corruptLeft : Nat) :
    cut B strayLeft corruptLeft (r :: rs) = ([], some r) ∨
      ∃ sl cl, cut B strayLeft corruptLeft (r :: rs) = (cut B sl cl rs).map (r :: ·) id := by
  cases hk : r.kind with
  | stray => cases strayLeft with
    | zero => exact .inl (cut_stray_zero hk rs corruptLeft)
    | succ left => exact .inr ⟨left, corruptLeft, cut_stray_succ hk rs left corruptLeft⟩
  | corrupt => cases corruptLeft with
    | zero => exact .inl (cut_corrupt_zero hk rs strayLeft)
    | succ left => exact .inr ⟨_, left, cut_corrupt_succ hk rs strayLeft left⟩

/-- Giving up cuts the rejections in two. -/
theorem cut_some {rs before : List (Rejection ι E)} {r : Rejection ι E} {strayLeft corruptLeft : Nat}
    (h : cut B strayLeft corruptLeft rs = (before, some r)) : ∃ after, rs = before ++ r :: after := by
  induction rs generalizing before strayLeft corruptLeft with
  | nil => cases h
  | cons r' rs ih =>
      rcases cut_cons r' rs strayLeft corruptLeft with hcut | ⟨sl, cl, hcut⟩
      · obtain ⟨rfl, hr⟩ := Prod.mk.inj (hcut.symm.trans h)
        exact ⟨rs, by rw [Option.some.inj hr]; rfl⟩
      · obtain ⟨before', rfl, hc⟩ := map_cons_eq (hcut.symm.trans h)
        obtain ⟨after, rfl⟩ := ih hc
        exact ⟨after, rfl⟩

theorem cut_none {rs before : List (Rejection ι E)} {strayLeft corruptLeft : Nat}
    (h : cut B strayLeft corruptLeft rs = (before, none)) : before = rs := by
  induction rs generalizing before strayLeft corruptLeft with
  | nil => exact (Prod.mk.inj h).1.symm
  | cons r' rs ih =>
      rcases cut_cons r' rs strayLeft corruptLeft with hcut | ⟨sl, cl, hcut⟩
      · cases hcut.symm.trans h
      · obtain ⟨before', rfl, hc⟩ := map_cons_eq (hcut.symm.trans h)
        rw [ih hc]

/-- A driver that does not restart its count gives up exactly at the first rejection too many. -/
theorem cut_spec (hkeep : B.restart = false) (rs : List (Rejection ι E)) (strayLeft corruptLeft : Nat) :
    match cut B strayLeft corruptLeft rs with
    | (_, none) => count .stray rs ≤ strayLeft ∧ count .corrupt rs ≤ corruptLeft
    | (before, some r) => Overruns strayLeft corruptLeft before r := by
  induction rs generalizing strayLeft corruptLeft with
  | nil => exact ⟨Nat.zero_le _, Nat.zero_le _⟩
  | cons r rs ih =>
      cases hk : r.kind with
      | stray =>
          cases strayLeft with
          | zero =>
              simp only [cut, hk]
              exact .inl ⟨hk, rfl, Nat.zero_le _⟩
          | succ left =>
              have hrest := ih left corruptLeft
              simp only [cut, hk]
              rcases hc : cut B left corruptLeft rs with ⟨before, _ | r'⟩
              · rw [hc] at hrest
                simpa [count_cons, hk] using hrest
              · rw [hc] at hrest
                simpa [Overruns, count_cons, hk] using hrest
      | corrupt =>
          cases corruptLeft with
          | zero =>
              simp only [cut, hk]
              exact .inr ⟨hk, rfl, Nat.zero_le _⟩
          | succ left =>
              have hrest := ih strayLeft left
              simp only [cut, hk, hkeep, Bool.false_eq_true, if_false]
              rcases hc : cut B strayLeft left rs with ⟨before, _ | r'⟩
              · rw [hc] at hrest
                simpa [count_cons, hk] using hrest
              · rw [hc] at hrest
                simpa [Overruns, count_cons, hk] using hrest

theorem cut_of_within (hkeep : B.restart = false) {x : Exchange ι F T E} (h : x.Within B) :
    cut B B.stray B.corrupt x.rejected = (x.rejected, none) := by
  have hspec := cut_spec hkeep x.rejected B.stray B.corrupt
  rcases hc : cut B B.stray B.corrupt x.rejected with ⟨before, _ | r⟩
  · rw [cut_none hc]
  · rw [hc] at hspec
    -- the rejection too many is one of the exchange's
    obtain ⟨after, hafter⟩ := cut_some hc
    have hcount : ∀ kind, count kind x.rejected =
        count kind before + (count kind after + if r.kind = kind then 1 else 0) := by
      intro kind
      rw [hafter, count, List.countP_append, ← count, ← count, count_cons]
    obtain ⟨hstray, hcorrupt⟩ := h
    rw [hcount] at hstray hcorrupt
    rcases hspec with ⟨hk, heq, -⟩ | ⟨hk, heq, -⟩
    · rw [if_pos hk] at hstray
      omega
    · rw [if_pos hk] at hcorrupt
      omega

theorem cut_of_not_within (hkeep : B.restart = false) {x : Exchange ι F T E} (h : ¬x.Within B) :
    ∃ before r after, x.rejected = before ++ r :: after ∧ Overruns B.stray B.corrupt before r ∧
      cut B B.stray B.corrupt x.rejected = (before, some r) := by
  have hspec := cut_spec hkeep x.rejected B.stray B.corrupt
  rcases hc : cut B B.stray B.corrupt x.rejected with ⟨before, _ | r⟩
  · rw [hc] at hspec
    exact absurd hspec h
  · rw [hc] at hspec
    obtain ⟨after, hafter⟩ := cut_some hc
    exact ⟨before, r, after, hafter, hspec, rfl⟩

/-- Exchanges that are not cut short are performed before the rest. -/
theorem performed_append {pre : List (Exchange ι F T E)}
    (h : ∀ x ∈ pre, cut B B.stray B.corrupt x.rejected = (x.rejected, none))
    (xs : List (Exchange ι F T E)) : performed B (pre ++ xs) = pre ++ performed B xs := by
  induction pre with
  | nil => rfl
  | cons x pre ih =>
      obtain ⟨hx, hpre⟩ := List.forall_mem_cons.1 h
      rw [List.cons_append, performed, performedFrom, hx]
      exact congrArg (x :: ·) (ih hpre)

/-- Within the bounds everything is performed. -/
theorem performed_of_within (hkeep : B.restart = false) {xs : List (Exchange ι F T E)}
    (h : ∀ x ∈ xs, x.Within B) : performed B xs = xs := by
  have happend := performed_append (fun x hx => cut_of_within hkeep (h x hx)) []
  rwa [List.append_nil, show performed B ([] : List (Exchange ι F T E)) = [] from rfl,
    List.append_nil] at happend

theorem exists_first_overrun {xs : List (Exchange ι F T E)} (h : ¬∀ x ∈ xs, x.Within B) :
    ∃ pre x post, xs = pre ++ x :: post ∧ (∀ y ∈ pre, y.Within B) ∧ ¬x.Within B := by
  induction xs with
  | nil => exact absurd (fun x hx => absurd hx List.not_mem_nil) h
  | cons x xs ih =>
      by_cases hx : x.Within B
      · obtain ⟨pre, y, post, rfl, hpre, hy⟩ := ih fun hxs => h (List.forall_mem_cons.2 ⟨hx, hxs⟩)
        exact ⟨x :: pre, y, post, rfl, List.forall_mem_cons.2 ⟨hx, hpre⟩, hy⟩
      · exact ⟨[], x, xs, rfl, fun y hy => absurd hy List.not_mem_nil, hx⟩

/-- The first exchange that is not within the bounds is the last that is performed. -/
theorem performed_of_overrun (hkeep : B.restart = false) {pre : List (Exchange ι F T E)}
    {x : Exchange ι F T E} (hpre : ∀ y ∈ pre, y.Within B) (hx : ¬x.Within B)
    (post : List (Exchange ι F T E)) :
    ∃ before r after, x.rejected = before ++ r :: after ∧ Overruns B.stray B.corrupt before r ∧
      performed B (pre ++ x :: post) =
        pre ++ [{ x with rejected := before, close := .gaveUp r }] := by
  obtain ⟨before, r, after, hafter, hover, hcut⟩ := cut_of_not_within hkeep hx
  refine ⟨before, r, after, hafter, hover, ?_⟩
  rw [performed_append fun y hy => cut_of_within hkeep (hpre y hy), performed, performedFrom, hcut]

/-- Whatever is performed puts up with no more than is allowed. -/
theorem performed_bounded (hkeep : B.restart = false) (xs : List (Exchange ι F T E)) :
    ∀ x ∈ performed B xs, x.Within B := by
  induction xs with
  | nil => exact fun x h => absurd h List.not_mem_nil
  | cons x xs ih =>
      by_cases hx : x.Within B
      · rw [performed, performedFrom, cut_of_within hkeep hx]
        exact List.forall_mem_cons.2 ⟨hx, ih⟩
      · obtain ⟨before, r, after, -, hover, hcut⟩ := cut_of_not_within hkeep hx
        rw [performed, performedFrom, hcut, List.forall_mem_singleton]
        rcases hover with ⟨-, heq, hle⟩ | ⟨-, heq, hle⟩
        · exact ⟨Nat.le_of_eq heq, hle⟩
        · exact ⟨hle, Nat.le_of_eq heq⟩

end

/-! ## Scripts without noise -/

/-- An exchange without what it rejected. -/
def Exchange.cleaned (self : Exchange ι F T E) : Exchange ι F T E := { self with rejected := [] }

/-- If rejections leave the machine where it was, deleting them from the script deletes them from its
    exchanges and nothing else. -/
theorem exchanges_clean {handle : σ → ι → Verdict F T E × σ}
    (hstay : ∀ s i kind e s', handle s i = (.rejected kind e, s') → s' = s) (request : F) (s : σ)
    (is : List ι) :
    exchanges handle request s (clean handle s is) =
      (exchanges handle request s is).map Exchange.cleaned := by
  induction is generalizing request s with
  | nil => rfl
  | cons i is ih =>
      rw [clean, exchanges]
      rcases hc : handle s i with ⟨next | output | ⟨kind, e⟩ | e, s'⟩
      · simp only [exchanges, hc, ih, List.map_cons]
        rfl
      · simp only [exchanges, hc]
        rfl
      · obtain rfl := hstay s i kind e s' hc
        dsimp only
        rw [ih]
        obtain ⟨x, xs, hxs, -⟩ := exchanges_eq_cons handle request s' is
        rw [hxs]
        rfl
      · simp only [exchanges, hc]
        rfl

theorem replay_cleaned_ending (xs : List (Exchange ι F T E)) :
    (replay (xs.map Exchange.cleaned)).ending = (replay xs).ending := by
  rcases List.eq_nil_or_concat xs with rfl | ⟨pre, x, rfl⟩
  · rfl
  · simp only [List.concat_eq_append, List.map_append, List.map_cons, List.map_nil]
    rw [replay_ending, replay_ending]
    rfl

theorem length_clean_le (handle : σ → ι → Verdict F T E × σ) (s : σ) (is : List ι) :
    (clean handle s is).length ≤ is.length := by
  induction is generalizing s with
  | nil => exact Nat.le_refl 0
  | cons i is ih =>
      rw [clean]
      rcases handle s i with ⟨next | output | ⟨kind, e⟩ | e, s'⟩
      · exact Nat.succ_le_succ (ih s')
      · exact Nat.le_refl _
      · exact Nat.le_succ_of_le (ih s')
      · exact Nat.le_refl _

theorem Exchange.cleaned_within (B : Bounds) (x : Exchange ι F T E) : x.cleaned.Within B :=
  ⟨Nat.zero_le _, Nat.zero_le _⟩

/-! ## What exchanges send and read -/

def sentOf (events : List (Event F ι)) : List F :=
  events.filterMap fun
    | .sent request => some request
    | .got _ => none

def gotOf (events : List (Event F ι)) : List ι :=
  events.filterMap fun
    | .sent _ => none
    | .got input => some input

theorem sentOf_append (es es' : List (Event F ι)) : sentOf (es ++ es') = sentOf es ++ sentOf es' :=
  List.filterMap_append

theorem gotOf_append (es es' : List (Event F ι)) : gotOf (es ++ es') = gotOf es ++ gotOf es' :=
  List.filterMap_append

theorem sentOf_flatMap {α : Type} (f : α → List (Event F ι)) (as : List α) :
    sentOf (as.flatMap f) = as.flatMap fun a => sentOf (f a) := by
  induction as with
  | nil => rfl
  | cons a as ih => rw [List.flatMap_cons, sentOf_append, ih, List.flatMap_cons]

theorem sentOf_rejections (request : F) (rs : List (Rejection ι E)) :
    sentOf (rs.flatMap (Rejection.events request)) = List.replicate (count .corrupt rs) request := by
  induction rs with
  | nil => rfl
  | cons r rs ih =>
      rw [List.flatMap_cons, sentOf_append, ih, count_cons]
      cases hk : r.kind with
      | stray => simp [Rejection.events, hk, sentOf]
      | corrupt =>
          simp only [Rejection.events, hk, if_true, List.replicate_succ]
          rfl

theorem length_gotOf_rejections (request : F) (rs : List (Rejection ι E)) :
    (gotOf (rs.flatMap (Rejection.events request))).length =
      count .stray rs + count .corrupt rs := by
  induction rs with
  | nil => rfl
  | cons r rs ih =>
      rw [List.flatMap_cons, gotOf_append, List.length_append, ih, count_cons, count_cons]
      cases hk : r.kind with
      | stray => simp [Rejection.events, hk, gotOf]; omega
      | corrupt => simp [Rejection.events, hk, gotOf]; omega

/-- An exchange sends its request once, and once more for every corrupt input. -/
theorem Exchange.sentOf_log (x : Exchange ι F T E) :
    sentOf x.log = List.replicate (1 + count .corrupt x.rejected) x.request := by
  have hclose : sentOf (x.close.events : List (Event F ι)) = [] := by
    cases x.close <;> rfl
  show x.request :: sentOf x.events = _
  rw [events, sentOf_append, hclose, List.append_nil, sentOf_rejections, Nat.add_comm,
    List.replicate_succ]

/-- It reads what it rejects, and at most one input more. -/
theorem Exchange.length_gotOf_log (x : Exchange ι F T E) :
    (gotOf x.log).length ≤ count .stray x.rejected + count .corrupt x.rejected + 1 := by
  have hclose : (gotOf (x.close.events : List (Event F ι))).length ≤ 1 := by
    cases x.close <;> simp [Close.events, gotOf]
  show (gotOf x.events).length ≤ _
  rw [events, gotOf_append, List.length_append, length_gotOf_rejections]
  omega

/-- Only the last exchange of a script is not answered. -/
theorem exchanges_answered (handle : σ → ι → Verdict F T E × σ) (request : F) (s : σ) (is : List ι) :
    ∀ x ∈ (exchanges handle request s is).dropLast, ∃ i, x.close = .answered i := by
  induction is generalizing request s with
  | nil => exact fun x h => absurd h List.not_mem_nil
  | cons i is ih =>
      rw [exchanges]
      rcases handle s i with ⟨next | output | ⟨kind, e⟩ | e, s'⟩
      · obtain ⟨y, ys, hys, -⟩ := exchanges_eq_cons handle next s' is
        have hrest := ih next s'
        dsimp only
        rw [hys] at hrest ⊢
        rw [List.dropLast_cons_cons]
        exact List.forall_mem_cons.2 ⟨⟨i, rfl⟩, hrest⟩
      · exact fun x h => absurd h List.not_mem_nil
      · obtain ⟨y, ys, hys, -⟩ := exchanges_eq_cons handle request s' is
        have hrest := ih request s'
        dsimp only
        rw [hys] at hrest ⊢
        cases ys with
        | nil => exact fun x h => absurd h List.not_mem_nil
        | cons z zs =>
            rw [List.dropLast_cons_cons] at hrest
            rw [withRejection, List.dropLast_cons_cons]
            obtain ⟨⟨j, hj⟩, hzs⟩ := List.forall_mem_cons.1 hrest
            exact List.forall_mem_cons.2 ⟨⟨j, hj⟩, hzs⟩
      · exact fun x h => absurd h List.not_mem_nil

/-- Nor is only the last that is performed. -/
theorem performed_answered {B : Bounds} {xs : List (Exchange ι F T E)}
    (h : ∀ x ∈ xs.dropLast, ∃ i, x.close = .answered i) :
    ∀ x ∈ (performed B xs).dropLast, ∃ i, x.close = .answered i := by
  induction xs with
  | nil => exact fun x h => absurd h List.not_mem_nil
  | cons x xs ih =>
      rw [performed, performedFrom]
      rcases cut B B.stray B.corrupt x.rejected with ⟨before, _ | r⟩
      · cases xs with
        | nil => exact fun x h => absurd h List.not_mem_nil
        | cons y ys =>
            rw [List.dropLast_cons_cons] at h
            obtain ⟨hx, hys⟩ := List.forall_mem_cons.1 h
            obtain ⟨z, zs, hzs, -⟩ := performedFrom_eq_cons B B.stray B.corrupt y ys
            have hrest := ih hys
            rw [performed, hzs] at hrest
            dsimp only
            rw [hzs, List.dropLast_cons_cons]
            exact List.forall_mem_cons.2 ⟨hx, hrest⟩
      · exact fun x h => absurd h List.not_mem_nil

end Retry
