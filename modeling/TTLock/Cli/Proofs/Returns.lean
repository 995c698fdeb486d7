import TTLock.Cli.Proofs.Walk
import TTLock.Lib.Orbit

set_option autoImplicit false

/-! # Whether a walk returns

A lock that answers every cursor by a fixed reply sends a walk from one page sequence to the next. The walk
compares a sequence with the one before it only, so it returns iff no sequence that it left comes back
(`walk_returns_iff`). -/

namespace TTLock

/-- There are no more sequences than sixteen-bit words. -/
instance : Finite Sequence :=
  Finite.of_injective (fun s : Sequence => (⟨s.get.toNat, s.get.toNat_lt⟩ : Fin (2 ^ 16))) fun s t h => by
    obtain ⟨s, hs⟩ := s
    obtain ⟨t, ht⟩ := t
    obtain rfl := UInt16.toNat_inj.1 (congrArg Fin.val h)
    rfl

namespace Oplog

open LogLink

variable {C : Cipher} {chrono : Chrono} {aesKey : AesKey} {reply : UInt16 → List UInt8}

/-- A lock that answers every cursor by a fixed reply. -/
def fixed (reply : UInt16 → List UInt8) (cursors : List UInt16) : List UInt8 := reply (cursors.headD 0)

/-- The sequence such a lock sends a walk to. There is none if it refuses the cursor or answers it by the
    empty page. -/
def nextSequence (C : Cipher) (chrono : Chrono) (aesKey : AesKey) (reply : UInt16 → List UInt8)
    (cursor : UInt16) : Option Sequence :=
  match pageOf C chrono aesKey (reply cursor) with
  | .ok page => page.next
  | .error _ => none

/-- One round of the walk: it ends, or goes on at another sequence. -/
theorem walkPages_fixed (hC : C.Lawful) (hreply : ∀ cursor, Replies C chrono aesKey (reply cursor))
    (version : LockVersion) (cursor : LogCursor) (last : Option Sequence) (records : Nat)
    {link : LogLink} (hquiet : link.Quiet) (seen : List LogRecord) :
    let next := nextSequence C chrono aesKey reply cursor.value
    let walk := walkPages collect none (quietFetch C chrono aesKey version (fixed reply))
    ((next = none ∨ last = next) ∧
      ∃ result, ∀ fuel, walk (fuel + 1) cursor last records link seen = some result) ∨
    ∃ s records' link' seen', next = some s ∧ last ≠ some s ∧ link'.Quiet ∧
      ∀ fuel, walk (fuel + 1) cursor last records link seen =
        walk fuel (.after s) (some s) records' link' seen' := by
  intro next walk
  have hlock : Serves C chrono aesKey (fixed reply) := fun cursor _ => hreply cursor
  rcases hreply cursor.value with ⟨page, hpage⟩ | hrefusal
  · have hfetch := fetchPage_page hC hlock version cursor hquiet hpage
    have hnext : next = page.next := by
      show nextSequence C chrono aesKey reply cursor.value = _
      rw [nextSequence, hpage]
    simp only [walk, walkPages, hfetch, deliver_collect_none]
    rcases hs : page.next with _ | s
    · exact .inl ⟨.inl (hnext.trans hs), _, fun _ => rfl⟩
    · by_cases hlast : last = some s
      · exact .inl ⟨.inr (hlast.trans (hnext.trans hs).symm), _, fun _ => if_pos hlast⟩
      · exact .inr ⟨s, _, _, _, hnext.trans hs, hlast, hquiet.asked _, fun _ => if_neg hlast⟩
  · have hfetch := fetchPage_refused hC hlock version cursor hquiet hrefusal hrefusal
    obtain ⟨response, hpage⟩ := hrefusal.pageOf_eq chrono
    have hnext : next = none := by
      show nextSequence C chrono aesKey reply cursor.value = _
      rw [nextSequence, hpage]
    simp only [walk, walkPages, hfetch]
    exact .inl ⟨.inl hnext, _, fun _ => rfl⟩

/-- The sequence after a sequence. -/
def follow (C : Cipher) (chrono : Chrono) (aesKey : AesKey) (reply : UInt16 → List UInt8)
    (s : Sequence) : Option Sequence := nextSequence C chrono aesKey reply s.get

/-- From a page on, a walk returns iff following the sequences stops. -/
theorem walkPages_returns_iff (hC : C.Lawful) (hreply : ∀ cursor, Replies C chrono aesKey (reply cursor))
    (version : LockVersion) (s : Sequence) (records : Nat) {link : LogLink} (hquiet : link.Quiet)
    (seen : List LogRecord) :
    (∃ fuel result, walkPages collect none (quietFetch C chrono aesKey version (fixed reply)) fuel
      (.after s) (some s) records link seen = some result) ↔
      Orbit.Stops (follow C chrono aesKey reply) s := by
  constructor
  · rintro ⟨fuel, result, hwalk⟩
    induction fuel generalizing s records link seen with
    | zero => cases hwalk
    | succ fuel ih =>
        rcases walkPages_fixed hC hreply version (.after s) (some s) records hquiet seen with
          ⟨hstop, -⟩ | ⟨t, records', link', seen', hnext, -, hquiet', hgo⟩
        · exact ⟨0, s, rfl, hstop.imp id Eq.symm⟩
        · exact Orbit.stops_of_next hnext (ih t records' hquiet' seen' ((hgo fuel).symm.trans hwalk))
  · rintro ⟨n, t, hsteps, hstop⟩
    induction n generalizing s records link seen with
    | zero =>
        obtain rfl := Option.some.inj hsteps
        rcases walkPages_fixed hC hreply version (.after s) (some s) records hquiet seen with
          ⟨-, result, hwalk⟩ | ⟨t, -, -, -, hnext, hne, -, -⟩
        · exact ⟨1, result, hwalk 0⟩
        · rcases hstop with hnone | hself
          · cases hnext.symm.trans hnone
          · exact absurd (hself.symm.trans hnext) hne
    | succ n ih =>
        rcases walkPages_fixed hC hreply version (.after s) (some s) records hquiet seen with
          ⟨-, result, hwalk⟩ | ⟨u, records', link', seen', hnext, -, hquiet', hgo⟩
        · exact ⟨1, result, hwalk 0⟩
        · rw [Orbit.steps, show follow C chrono aesKey reply s = some u from hnext] at hsteps
          obtain ⟨fuel, result, hwalk⟩ := ih u records' hquiet' seen' hsteps
          exact ⟨fuel + 1, result, (hgo fuel).trans hwalk⟩

/-- A walk returns iff following the sequences from its first page stops. -/
theorem walkLog_returns_iff (hC : C.Lawful) (hreply : ∀ cursor, Replies C chrono aesKey (reply cursor))
    (version : LockVersion) (start : LogCursor) :
    (∃ fuel result, walkLog C chrono aesKey version (fixed reply) (fun _ => []) start none fuel =
      some result) ↔
      ∀ first, nextSequence C chrono aesKey reply start.value = some first →
        Orbit.Stops (follow C chrono aesKey reply) first := by
  show (∃ fuel result, walkPages collect none (quietFetch C chrono aesKey version (fixed reply)) fuel
    start none 0 (.new fun _ => []) [] = some result) ↔ _
  rcases walkPages_fixed hC hreply version start none 0 new_quiet [] with
    ⟨hstop, result, hwalk⟩ | ⟨s, records', link', seen', hnext, -, hquiet', hgo⟩
  · refine iff_of_true ⟨1, result, hwalk 0⟩ fun first hfirst => ?_
    rcases hstop with hnone | hnone
    · cases hfirst.symm.trans hnone
    · cases hfirst.symm.trans hnone.symm
  · rw [hnext]
    constructor
    · rintro ⟨fuel, result, hwalk⟩ first hfirst
      obtain rfl := Option.some.inj hfirst
      cases fuel with
      | zero => cases hwalk
      | succ fuel =>
          rw [hgo] at hwalk
          exact (walkPages_returns_iff hC hreply version s records' hquiet' seen').1 ⟨fuel, result, hwalk⟩
    · intro hstops
      obtain ⟨fuel, result, hwalk⟩ :=
        (walkPages_returns_iff hC hreply version s records' hquiet' seen').2 (hstops s rfl)
      exact ⟨fuel + 1, result, (hgo fuel).trans hwalk⟩

/-- **A walk returns** iff no sequence that it left for another one comes back. -/
theorem walk_returns_iff (hC : C.Lawful) (hreply : ∀ cursor, Replies C chrono aesKey (reply cursor))
    (version : LockVersion) (start : LogCursor) :
    (∃ fuel result, walkLog C chrono aesKey version (fixed reply) (fun _ => []) start none fuel =
      some result) ↔
      ∀ first, nextSequence C chrono aesKey reply start.value = some first →
        Orbit.NeverReturns (follow C chrono aesKey reply) first := by
  rw [walkLog_returns_iff hC hreply]
  simp only [Orbit.stops_iff]

/-! ## Two locks that do not advance -/

/-- It answers everything by the same page. -/
def stuckReply (_ : UInt16) : List UInt8 := samplePage 10 [47]

theorem stuckReply_next (cursor : UInt16) :
    nextSequence aes128Cbc sampleChrono sampleKey stuckReply cursor = some ⟨10, by decide⟩ := by
  rw [nextSequence, stuckReply, pageOf_samplePage]
  rfl

theorem walk_returns_from_stuck_lock :
    ∃ fuel result, walkLog aes128Cbc sampleChrono sampleKey .default (fixed stuckReply) (fun _ => [])
      .beginning none fuel = some result := by
  have hreply : ∀ cursor, Replies aes128Cbc sampleChrono sampleKey (stuckReply cursor) :=
    fun _ => .inl ⟨_, pageOf_samplePage⟩
  refine (walk_returns_iff aes128Cbc_lawful hreply .default .beginning).2 fun first _ i j s hij _ hj => ?_
  have hnext : ∀ t, follow aes128Cbc sampleChrono sampleKey stuckReply t = some ⟨10, by decide⟩ :=
    fun t => stuckReply_next t.get
  -- every step leads to the stuck page
  obtain ⟨j, rfl⟩ : ∃ k, j = k + 1 := ⟨j - 1, by omega⟩
  rw [Orbit.steps_add] at hj
  obtain ⟨t, -, ht⟩ := Option.bind_eq_some_iff.1 hj
  rw [Orbit.steps, hnext t] at ht
  obtain rfl := Option.some.inj ht
  exact hnext _

/-- It answers 10 by the page 11 and everything else by the page 10. -/
def alternatingReply (cursor : UInt16) : List UInt8 :=
  if cursor = 10 then samplePage 11 [20] else samplePage 10 [47]

/-- Two pages that point at each other are walked for ever. -/
theorem walk_never_returns :
    (∀ cursor, Replies aes128Cbc sampleChrono sampleKey (alternatingReply cursor)) ∧
      ∀ fuel, walkLog aes128Cbc sampleChrono sampleKey .default (fixed alternatingReply) (fun _ => [])
        .beginning none fuel = none := by
  have hreply : ∀ cursor, Replies aes128Cbc sampleChrono sampleKey (alternatingReply cursor) := by
    intro cursor
    unfold alternatingReply
    split
    · exact .inl ⟨{ records := [sampleRecord ⟨11, by decide⟩ 20], next := some ⟨11, by decide⟩ },
        by decide +kernel⟩
    · exact .inl ⟨_, pageOf_samplePage⟩
  refine ⟨hreply, fun fuel => ?_⟩
  by_contra hsome
  obtain ⟨result, hresult⟩ := Option.ne_none_iff_exists'.1 hsome
  have hstops := (walkLog_returns_iff aes128Cbc_lawful hreply .default .beginning).1
    ⟨fuel, result, hresult⟩ ⟨10, by decide⟩ (by decide +kernel)
  have hreturns := (Orbit.stops_iff _).1 hstops 0 2 ⟨10, by decide⟩ (by decide) rfl (by decide +kernel)
  have hleft : follow aes128Cbc sampleChrono sampleKey alternatingReply ⟨10, by decide⟩ =
      some ⟨11, by decide⟩ := by decide +kernel
  cases hleft.symm.trans hreturns

end Oplog

end TTLock
