import TTLock.Lib.Retry

set_option autoImplicit false

/-! # Drivers that restart their count

Of two drivers with the same bounds one counts stray input over the whole exchange, the other afresh
after every re-send. They do the same until the first gives up at stray input, and go on doing the same
unless stray input had come before a re-send by then (`attend_restarting_eq`,
`attend_restarting_reads_on`). -/

namespace Retry

variable {σ ι F T E : Type}

/-- The same bounds, counting stray input over the whole exchange. -/
def Bounds.keeping (self : Bounds) : Bounds := { self with restart := false }

/-- The same bounds, counting stray input afresh after every re-send. -/
def Bounds.restarting (self : Bounds) : Bounds := { self with restart := true }

/-- No stray input comes before corrupt input. -/
def StraysLast (rs : List (Rejection ι E)) : Prop :=
  rs.Pairwise fun r r' => ¬(r.kind = .stray ∧ r'.kind = .corrupt)

section

variable {B : Bounds}

/-- A driver that gives up at stray input has had a re-send left for the corrupt input before it. -/
theorem cut_keeping_corrupt {r r' : Rejection ι E} {rs before : List (Rejection ι E)}
    {strayLeft corruptLeft : Nat} (hk : r'.kind = .corrupt) (hr : r.kind = .stray)
    (h : cut B.keeping strayLeft corruptLeft (r' :: rs) = (before, some r)) :
    ∃ left rest, corruptLeft = left + 1 ∧ before = r' :: rest ∧
      cut B.keeping strayLeft left rs = (rest, some r) := by
  cases corruptLeft with
  | zero =>
      rw [cut_corrupt_zero hk] at h
      obtain rfl := Option.some.inj (Prod.mk.inj h).2
      cases hk.symm.trans hr
  | succ left =>
      rw [cut_corrupt_succ hk] at h
      obtain ⟨rest, rfl, hrest⟩ := map_cons_eq h
      exact ⟨left, rest, rfl, rfl, hrest⟩

/-- Behind corrupt input a driver that restarts has all its stray input to put up with again. -/
theorem cut_restarting_corrupt {r : Rejection ι E} (hk : r.kind = .corrupt)
    (rs : List (Rejection ι E)) (strayLeft left : Nat) :
    cut B.restarting strayLeft (left + 1) (r :: rs) =
      (cut B.restarting B.stray left rs).map (r :: ·) id :=
  cut_corrupt_succ hk rs strayLeft left

/-- A cut that goes on past an input does so behind one input more. -/
theorem goes_on_cons {c : List (Rejection ι E) × Option (Rejection ι E)}
    {before : List (Rejection ι E)} {r : Rejection ι E} (r' : Rejection ι E)
    (h : ∃ more end?, c = (before ++ r :: more, end?)) :
    ∃ more end?, c.map (r' :: ·) id = (r' :: before ++ r :: more, end?) := by
  obtain ⟨more, end?, rfl⟩ := h
  exact ⟨more, end?, rfl⟩

/-- With more stray input allowed, a driver that restarts puts up with all that one that keeps its
    count puts up with, and gives up at the same corrupt input. -/
theorem cut_restarting_of_not_stray {rs before : List (Rejection ι E)}
    {end? : Option (Rejection ι E)} {strayLeft strayLeft' corruptLeft : Nat}
    (h : cut B.keeping strayLeft corruptLeft rs = (before, end?))
    (hend : ∀ r, end? = some r → r.kind = .corrupt) (hle : strayLeft ≤ strayLeft')
    (hB : strayLeft ≤ B.stray) : cut B.restarting strayLeft' corruptLeft rs = (before, end?) := by
  induction rs generalizing before strayLeft strayLeft' corruptLeft with
  | nil => exact h
  | cons r rs ih =>
      cases hk : r.kind with
      | stray =>
          cases strayLeft with
          | zero =>
              rw [cut_stray_zero hk] at h
              obtain ⟨-, rfl⟩ := Prod.mk.inj h
              cases hk.symm.trans (hend r rfl)
          | succ left =>
              obtain ⟨left', rfl⟩ : ∃ left', strayLeft' = left' + 1 := ⟨strayLeft' - 1, by omega⟩
              rw [cut_stray_succ hk] at h ⊢
              obtain ⟨rest, rfl, hrest⟩ := map_cons_eq h
              rw [ih hrest (by omega) (by omega)]
              rfl
      | corrupt =>
          cases corruptLeft with
          | zero =>
              rw [cut_corrupt_zero hk] at h ⊢
              exact h
          | succ left =>
              rw [cut_corrupt_succ hk] at h
              obtain ⟨rest, rfl, hrest⟩ := map_cons_eq h
              have hrestart : cut B.restarting B.stray left rs = (rest, end?) := ih hrest hB hB
              rw [cut_restarting_corrupt hk, hrestart]
              rfl

/-- With more stray input allowed, it goes on after the stray input the other gives up at. -/
theorem cut_restarting_of_more {rs before : List (Rejection ι E)} {r : Rejection ι E}
    {strayLeft strayLeft' corruptLeft : Nat}
    (h : cut B.keeping strayLeft corruptLeft rs = (before, some r)) (hr : r.kind = .stray)
    (hlt : strayLeft < strayLeft') (hB : strayLeft < B.stray) :
    ∃ more end?, cut B.restarting strayLeft' corruptLeft rs = (before ++ r :: more, end?) := by
  induction rs generalizing before strayLeft strayLeft' corruptLeft with
  | nil => cases h
  | cons r' rs ih =>
      cases hk : r'.kind with
      | stray =>
          obtain ⟨left', rfl⟩ : ∃ left', strayLeft' = left' + 1 := ⟨strayLeft' - 1, by omega⟩
          rw [cut_stray_succ hk]
          cases strayLeft with
          | zero =>
              rw [cut_stray_zero hk] at h
              obtain ⟨rfl, hr'⟩ := Prod.mk.inj h
              obtain rfl := Option.some.inj hr'
              exact ⟨_, _, rfl⟩
          | succ left =>
              rw [cut_stray_succ hk] at h
              obtain ⟨rest, rfl, hrest⟩ := map_cons_eq h
              have hless : left < left' := by omega
              exact goes_on_cons r' (ih hrest hless (by omega))
      | corrupt =>
          obtain ⟨left, rest, rfl, rfl, hrest⟩ := cut_keeping_corrupt hk hr h
          rw [cut_restarting_corrupt hk]
          exact goes_on_cons r' (ih hrest hB hB)

/-- Once stray input has come, the two do the same iff no corrupt input comes before the stray input
    that is one too many. -/
theorem cut_restarting_of_less {rs before : List (Rejection ι E)} {r : Rejection ι E}
    {strayLeft corruptLeft : Nat} (h : cut B.keeping strayLeft corruptLeft rs = (before, some r))
    (hr : r.kind = .stray) (hB : strayLeft < B.stray) :
    (count .corrupt before = 0 → cut B.restarting strayLeft corruptLeft rs = (before, some r)) ∧
      (count .corrupt before ≠ 0 →
        ∃ more end?, cut B.restarting strayLeft corruptLeft rs = (before ++ r :: more, end?)) := by
  induction rs generalizing before strayLeft corruptLeft with
  | nil => cases h
  | cons r' rs ih =>
      cases hk : r'.kind with
      | stray =>
          cases strayLeft with
          | zero =>
              rw [cut_stray_zero hk] at h ⊢
              obtain ⟨rfl, hr'⟩ := Prod.mk.inj h
              exact ⟨fun _ => by rw [hr'], fun hne => absurd rfl hne⟩
          | succ left =>
              rw [cut_stray_succ hk] at h ⊢
              obtain ⟨rest, rfl, hrest⟩ := map_cons_eq h
              have hcount : count .corrupt (r' :: rest) = count .corrupt rest := by
                simp [count_cons, hk]
              obtain ⟨hsame, hmore⟩ := ih hrest (by omega)
              rw [hcount]
              exact ⟨fun hzero => by rw [hsame hzero]; rfl, fun hne => goes_on_cons r' (hmore hne)⟩
      | corrupt =>
          obtain ⟨left, rest, rfl, rfl, hrest⟩ := cut_keeping_corrupt hk hr h
          rw [cut_restarting_corrupt hk]
          have hne : count .corrupt (r' :: rest) ≠ 0 := by simp [count_cons, hk]
          refine ⟨fun hzero => absurd hzero hne, fun _ => ?_⟩
          -- the count starts afresh with at least one more left
          exact goes_on_cons r' (cut_restarting_of_more hrest hr hB hB)

theorem straysLast_cons_of_stray {r : Rejection ι E} (hk : r.kind = .stray)
    {rs : List (Rejection ι E)} : StraysLast (r :: rs) ↔ count .corrupt rs = 0 := by
  rw [StraysLast, List.pairwise_cons, count, List.countP_eq_zero]
  simp only [hk, true_and, decide_eq_true_eq]
  constructor
  · exact fun h => h.1
  · intro h
    refine ⟨h, List.Pairwise.imp_of_mem (R := fun _ _ => True) ?_ (List.pairwise_of_forall ?_)⟩
    · exact fun _ hr' _ hboth => h _ hr' hboth.2
    · exact fun _ _ => trivial

/-- From the beginning, the two do the same iff no stray input comes before corrupt input until then. -/
theorem cut_restarting {rs before : List (Rejection ι E)} {r : Rejection ι E} {corruptLeft : Nat}
    (h : cut B.keeping B.stray corruptLeft rs = (before, some r)) (hr : r.kind = .stray) :
    (StraysLast before → cut B.restarting B.stray corruptLeft rs = (before, some r)) ∧
      (¬StraysLast before →
        ∃ more end?, cut B.restarting B.stray corruptLeft rs = (before ++ r :: more, end?)) := by
  induction rs generalizing before corruptLeft with
  | nil => cases h
  | cons r' rs ih =>
      cases hk : r'.kind with
      | stray =>
          rcases hB : B.stray with _ | left
          · rw [hB, cut_stray_zero hk] at h
            rw [cut_stray_zero hk]
            obtain ⟨rfl, hr'⟩ := Prod.mk.inj h
            exact ⟨fun _ => by rw [hr'], fun hne => absurd List.Pairwise.nil hne⟩
          · rw [hB, cut_stray_succ hk] at h
            rw [cut_stray_succ hk]
            obtain ⟨rest, rfl, hrest⟩ := map_cons_eq h
            obtain ⟨hsame, hmore⟩ := cut_restarting_of_less hrest hr (by omega)
            rw [straysLast_cons_of_stray hk]
            exact ⟨fun hzero => by rw [hsame hzero]; rfl, fun hne => goes_on_cons r' (hmore hne)⟩
      | corrupt =>
          obtain ⟨left, rest, rfl, rfl, hrest⟩ := cut_keeping_corrupt hk hr h
          rw [cut_restarting_corrupt hk]
          obtain ⟨hsame, hmore⟩ := ih hrest
          have hlast : StraysLast (r' :: rest) ↔ StraysLast rest := by
            rw [StraysLast, List.pairwise_cons]
            refine and_iff_right fun r'' _ hboth => ?_
            cases hk.symm.trans hboth.1
          rw [hlast]
          exact ⟨fun hl => by rw [hsame hl]; rfl, fun hl => goes_on_cons r' (hmore hl)⟩

/-- The rejection at which a driver gives up is the only one that is one too many. -/
theorem cut_of_overruns (hkeep : B.restart = false) {before : List (Rejection ι E)}
    {r : Rejection ι E} {strayLeft corruptLeft : Nat} (h : Overruns strayLeft corruptLeft before r)
    (after : List (Rejection ι E)) :
    cut B strayLeft corruptLeft (before ++ r :: after) = (before, some r) := by
  induction before generalizing strayLeft corruptLeft with
  | nil =>
      rcases h with ⟨hk, rfl, -⟩ | ⟨hk, rfl, -⟩
      · exact cut_stray_zero hk after _
      · exact cut_corrupt_zero hk after _
  | cons r' before ih =>
      simp only [Overruns, count_cons] at h
      rw [List.cons_append]
      cases hk : r'.kind with
      | stray =>
          obtain ⟨left, rfl⟩ : ∃ left, strayLeft = left + 1 := ⟨strayLeft - 1, by
            simp only [hk, if_true] at h; omega⟩
          have hless : Overruns left corruptLeft before r := by
            simpa [Overruns, hk] using h
          rw [cut_stray_succ hk, ih hless]
          rfl
      | corrupt =>
          obtain ⟨left, rfl⟩ : ∃ left, corruptLeft = left + 1 := ⟨corruptLeft - 1, by
            simp only [hk, if_true] at h; omega⟩
          have hless : Overruns strayLeft left before r := by
            simpa [Overruns, hk] using h
          rw [cut_corrupt_succ hk, hkeep, if_neg Bool.false_ne_true, ih hless]
          rfl

/-- Wherever a driver gives up at stray input, no stray input came before corrupt input. -/
def NoSecondWave (B : Bounds) (xs : List (Exchange ι F T E)) : Prop :=
  ∀ pre x post before r after, xs = pre ++ x :: post → (∀ y ∈ pre, y.Within B) →
    x.rejected = before ++ r :: after → Overruns B.stray B.corrupt before r → r.kind = .stray →
    StraysLast before

theorem noSecondWave_iff {pre post : List (Exchange ι F T E)} {x : Exchange ι F T E}
    (hpre : ∀ y ∈ pre, y.Within B) (hx : ¬x.Within B) {before : List (Rejection ι E)}
    {r : Rejection ι E} (hcut : cut B.keeping B.stray B.corrupt x.rejected = (before, some r))
    (hover : Overruns B.stray B.corrupt before r) :
    NoSecondWave B (pre ++ x :: post) ↔ (r.kind = .stray → StraysLast before) := by
  constructor
  · intro h hr
    obtain ⟨after, hafter⟩ := cut_some hcut
    exact h pre x post before r after rfl hpre hafter hover hr
  · intro h pre' x' post' before' r' after' heq hpre' hafter' hover' hr'
    have hcut' : cut B.keeping B.stray B.corrupt x'.rejected = (before', some r') := by
      rw [hafter']
      exact cut_of_overruns rfl hover' after'
    have hx' : ¬x'.Within B := fun hw => by
      have hnone := cut_of_within (B := B.keeping) rfl hw
      cases (Prod.mk.inj (hnone.symm.trans hcut')).2
    -- both are the first exchange that is not within the bounds
    obtain rfl : x = x' := by
      have hfirst : ∀ {p q : List (Exchange ι F T E)} {a : Exchange ι F T E},
          (∀ y ∈ p, y.Within B) → ¬a.Within B →
          (p ++ a :: q).find? (fun y => !decide (y.Within B)) = some a := by
        intro p q a hp ha
        rw [List.find?_append, List.find?_eq_none.2 (by simpa using hp)]
        simp [ha]
      exact Option.some.inj ((hfirst hpre hx).symm.trans (heq ▸ hfirst hpre' hx'))
    obtain ⟨rfl, hr⟩ := Prod.mk.inj (hcut.symm.trans hcut')
    obtain rfl := Option.some.inj hr
    exact h hr'

/-- Exchanges of which the last looks longer show more. -/
theorem replay_events_append {pre ys : List (Exchange ι F T E)} {y z : Exchange ι F T E}
    (hreq : y.request = z.request) {extra : List (Event F ι)}
    (h : (y :: ys).flatMap Exchange.log = z.log ++ extra) :
    (replay (pre ++ y :: ys)).events = (replay (pre ++ [z])).events ++ extra := by
  have hlogs : (pre ++ y :: ys).flatMap Exchange.log =
      (pre ++ [z]).flatMap Exchange.log ++ extra := by
    rw [List.flatMap_append, h, List.flatMap_append, List.flatMap_singleton, List.append_assoc]
  cases pre with
  | nil =>
      simp only [List.nil_append] at hlogs ⊢
      rw [← replay_log, ← replay_log, hreq, List.cons_append] at hlogs
      exact (List.cons.inj hlogs).2
  | cons x pre =>
      simp only [List.cons_append] at hlogs ⊢
      rw [← replay_log, ← replay_log, List.cons_append] at hlogs
      exact (List.cons.inj hlogs).2

/-- Reading on after `r` shows from outside, or the script has run out. -/
theorem replay_reads_on {pre rest : List (Exchange ι F T E)} {request : F}
    {before more : List (Rejection ι E)} {r : Rejection ι E} (hr : r.kind = .stray)
    {close : Close ι T E} :
    ∃ extra, (replay (pre ++ ⟨request, before ++ r :: more, close⟩ :: rest)).events =
        (replay (pre ++ [⟨request, before, .gaveUp r⟩])).events ++ extra ∧
      (extra = [] →
        (replay (pre ++ ⟨request, before ++ r :: more, close⟩ :: rest)).ending = .ranOut) := by
  have hevents : r.events request = [.got r.input] := by simp only [Rejection.events, hr]
  refine ⟨more.flatMap (Rejection.events request) ++ close.events ++ rest.flatMap Exchange.log,
    replay_events_append (by rfl) ?_, fun hextra => ?_⟩
  · simp [Exchange.log, Exchange.events, Close.events, hevents]
  · simp only [List.append_eq_nil_iff] at hextra
    obtain ⟨⟨-, hclose⟩, hrest⟩ := hextra
    obtain rfl : rest = [] := by
      cases rest with
      | nil => rfl
      | cons y ys => cases hrest
    rw [replay_ending]
    cases close with
    | ranOut => rfl
    | answered i | finished i output | fatal i e | gaveUp r' => cases hclose

/-- A driver that restarts its count puts up with all that is within the bounds. -/
theorem performed_restarting_append {pre : List (Exchange ι F T E)} (hpre : ∀ y ∈ pre, y.Within B)
    (xs : List (Exchange ι F T E)) :
    performed B.restarting (pre ++ xs) = pre ++ performed B.restarting xs := by
  refine performed_append (B := B.restarting) (fun y hy => ?_) xs
  have hkeeps : cut B.keeping B.stray B.corrupt y.rejected = (y.rejected, none) :=
    cut_of_within (B := B.keeping) rfl (hpre y hy)
  exact cut_restarting_of_not_stray hkeeps (fun r hr => by cases hr) (Nat.le_refl _) (Nat.le_refl _)

/-- The exchanges of a script are within the bounds, or a driver that keeps its count gives up in the
    first that is not. -/
theorem within_or_first_overrun (xs : List (Exchange ι F T E)) :
    (∀ x ∈ xs, x.Within B) ∨
      ∃ pre x post before r, xs = pre ++ x :: post ∧ (∀ y ∈ pre, y.Within B) ∧ ¬x.Within B ∧
        Overruns B.stray B.corrupt before r ∧
        cut B.keeping B.stray B.corrupt x.rejected = (before, some r) ∧
        performed B.keeping xs = pre ++ [⟨x.request, before, .gaveUp r⟩] := by
  by_cases hall : ∀ x ∈ xs, x.Within B
  · exact .inl hall
  · obtain ⟨pre, x, post, rfl, hpre, hx⟩ := exists_first_overrun hall
    obtain ⟨before, r, after, hafter, hover, hcut⟩ :=
      cut_of_not_within (B := B.keeping) rfl (x := x) hx
    refine .inr ⟨pre, x, post, before, r, rfl, hpre, hx, hover, hcut, ?_⟩
    rw [performed_append fun y hy => cut_of_within (B := B.keeping) rfl (hpre y hy), performed,
      performedFrom, show cut B.keeping B.keeping.stray B.keeping.corrupt x.rejected = _ from hcut]

/-- **A driver that restarts its count** does what one that keeps it does, unless the latter gives up
    at stray input after a re-send that stray input came before. -/
theorem attend_restarting_eq (handle : σ → ι → Verdict F T E × σ) (request : F) (s : σ) (is : List ι)
    (h : NoSecondWave B (exchanges handle request s is)) :
    attend B.restarting handle request B.stray B.corrupt s is =
      attend B.keeping handle request B.stray B.corrupt s is := by
  rw [attend_eq, attend_eq]
  generalize exchanges handle request s is = xs at h
  show replay (performed B.restarting xs) = replay (performed B.keeping xs)
  rcases within_or_first_overrun (B := B) xs with
    hall | ⟨pre, x, post, before, r, rfl, hpre, hx, hover, hcut, hkeeping⟩
  · have hrestarting := performed_restarting_append hall []
    rw [List.append_nil] at hrestarting
    rw [hrestarting, performed_of_within (B := B.keeping) rfl hall]
    exact congrArg replay (List.append_nil xs)
  · have hlast := (noSecondWave_iff hpre hx hcut hover).1 h
    have hcut' : cut B.restarting B.stray B.corrupt x.rejected = (before, some r) := by
      by_cases hr : r.kind = .stray
      · exact (cut_restarting hcut hr).1 (hlast hr)
      · refine cut_restarting_of_not_stray hcut (fun r' hr' => ?_) (Nat.le_refl _) (Nat.le_refl _)
        obtain rfl := Option.some.inj hr'
        cases hk : r.kind with
        | stray => exact absurd hk hr
        | corrupt => rfl
    rw [hkeeping, performed_restarting_append hpre, performed, performedFrom,
      show cut B.restarting B.restarting.stray B.restarting.corrupt x.rejected = _ from hcut']

/-- In that case it reads on where the latter fails, or has nothing more to read. -/
theorem attend_restarting_reads_on (handle : σ → ι → Verdict F T E × σ) (request : F) (s : σ)
    (is : List ι) (h : ¬NoSecondWave B (exchanges handle request s is)) :
    (∃ e, (attend B.keeping handle request B.stray B.corrupt s is).ending = .failed e) ∧
      ∃ extra, (attend B.restarting handle request B.stray B.corrupt s is).events =
          (attend B.keeping handle request B.stray B.corrupt s is).events ++ extra ∧
        (extra = [] →
          (attend B.restarting handle request B.stray B.corrupt s is).ending = .ranOut) := by
  rw [attend_eq, attend_eq]
  generalize exchanges handle request s is = xs at h
  show (∃ e, (replay (performed B.keeping xs)).ending = .failed e) ∧
    ∃ extra, (replay (performed B.restarting xs)).events =
        (replay (performed B.keeping xs)).events ++ extra ∧
      (extra = [] → (replay (performed B.restarting xs)).ending = .ranOut)
  rcases within_or_first_overrun (B := B) xs with
    hall | ⟨pre, x, post, before, r, rfl, hpre, hx, hover, hcut, hkeeping⟩
  · refine absurd (fun pre x post before r after heq _ hafter hover _ => ?_) h
    -- no exchange overruns anything
    have hx : x.Within B := hall x (heq ▸ List.mem_append_right _ List.mem_cons_self)
    have hover' := cut_of_overruns (B := B.keeping) rfl hover after
    rw [← hafter, show cut B.keeping B.stray B.corrupt x.rejected = (x.rejected, none) from
      cut_of_within (B := B.keeping) rfl hx] at hover'
    cases (Prod.mk.inj hover').2
  · rw [noSecondWave_iff hpre hx hcut hover] at h
    have hr : r.kind = .stray := by
      by_contra hr
      exact h fun hstray => absurd hstray hr
    obtain ⟨more, end?, hcut'⟩ := (cut_restarting hcut hr).2 fun hlast => h fun _ => hlast
    refine ⟨⟨r.error, by rw [hkeeping, replay_ending]; rfl⟩, ?_⟩
    rw [hkeeping, performed_restarting_append hpre, performed, performedFrom,
      show cut B.restarting B.restarting.stray B.restarting.corrupt x.rejected = _ from hcut']
    cases end? with
    | some r' => exact replay_reads_on hr
    | none =>
        have hx' : x = ⟨x.request, before ++ r :: more, x.close⟩ := by rw [cut_none hcut']
        dsimp only
        rw [hx']
        exact replay_reads_on hr

/-- What is seen of events is all there is of them. -/
theorem eq_nil_of_sentOf_gotOf {events extra : List (Event F ι)}
    (hsent : sentOf (events ++ extra) = sentOf events)
    (hgot : gotOf (events ++ extra) = gotOf events) : extra = [] := by
  rw [sentOf_append, List.append_right_eq_self] at hsent
  rw [gotOf_append, List.append_right_eq_self] at hgot
  cases extra with
  | nil => rfl
  | cons event extra =>
      cases event with
      | sent request => cases hsent
      | got input => cases hgot

end

end Retry
