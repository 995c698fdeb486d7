import TTLock.Cli.Proofs.Walk
import TTLock.Core.Proofs.LogPage

set_option autoImplicit false

/-! # How far a limited walk goes

Whatever the link does, a fetch comes to an end, and every page that does not end the log brings a
record. A walk with a limit therefore returns, and it hands over no more records than the limit says,
except that it looks at the limit only behind a record: at a limit of zero the first record is handed
over all the same. -/

namespace TTLock

/-! ## What an exchange leads to -/

namespace Transport

variable {σ T τ : Type} {L : Transport CliError τ} {op : Operation σ T}

/-- The operation makes this step of some frame. -/
def Answered (op : Operation σ T) (step : Step T) : Prop :=
  ∃ now raw self self', (op.handleFrame now raw).call self = (.ok step, self')

/-- A step comes of the first frame, or of reading on, or of sending again. -/
theorem readReply_ok_cases {resend : Option (Nat → σ → τ → Except CliError (Step T) × σ × τ)}
    {strayLeft : Nat} {self self' : σ} {link link' : τ} {step : Step T}
    (h : readReply L op resend strayLeft self link = (.ok step, self', link')) :
    Answered op step ∨
    (∃ left self₁ link₁, strayLeft = left + 1 ∧
      readReply L op resend left self₁ link₁ = (.ok step, self', link')) ∨
    ∃ again self₁ link₁, resend = some again ∧
      again strayLeft self₁ link₁ = (.ok step, self', link') := by
  rcases hread : L.nextFrame link with ⟨e | ⟨now, raw⟩, link₁⟩
  · rw [readReply_error hread] at h
    cases h
  · rcases hc : (op.handleFrame now raw).call self with ⟨e | next, self₁⟩
    · rw [readReply_refused hread hc] at h
      rcases e.kind_cases with ⟨hs, hr⟩ | ⟨hs, hr⟩ | ⟨hs, hr⟩ <;> simp only [hs, hr] at h
      · cases strayLeft with
        | zero => cases h
        | succ left => exact .inr (.inl ⟨left, self₁, link₁, rfl, h⟩)
      · cases resend with
        | none => cases h
        | some again => exact .inr (.inr ⟨again, self₁, link₁, rfl, h⟩)
      · cases h
    · rw [readReply_ok hread hc] at h
      obtain rfl := Except.ok.inj (Prod.mk.inj h).1
      exact .inl ⟨now, raw, self, self₁, hc⟩

/-- What waiting for a reply leads to is what the operation makes of a frame, if it is so after a
    re-send. -/
theorem readReply_answered {resend : Option (Nat → σ → τ → Except CliError (Step T) × σ × τ)}
    {self' : σ} {link' : τ} {step : Step T}
    (hresend : ∀ again, resend = some again → ∀ strayLeft self link,
      again strayLeft self link = (.ok step, self', link') → Answered op step)
    {strayLeft : Nat} {self : σ} {link : τ}
    (h : readReply L op resend strayLeft self link = (.ok step, self', link')) : Answered op step := by
  induction strayLeft generalizing self link with
  | zero =>
      rcases readReply_ok_cases h with hanswered | ⟨left, self₁, link₁, hleft, -⟩ |
        ⟨again, self₁, link₁, hagain, h⟩
      · exact hanswered
      · cases hleft
      · exact hresend again hagain _ _ _ h
  | succ left ih =>
      rcases readReply_ok_cases h with hanswered | ⟨left', self₁, link₁, hleft, h⟩ |
        ⟨again, self₁, link₁, hagain, h⟩
      · exact hanswered
      · obtain rfl := Nat.succ.inj hleft
        exact ih h
      · exact hresend again hagain _ _ _ h

theorem exchange_answered {frame : List UInt8} {crcLeft strayLeft : Nat} {self self' : σ}
    {link link' : τ} {step : Step T}
    (h : exchange L op frame crcLeft strayLeft self link = (.ok step, self', link')) :
    Answered op step := by
  induction crcLeft generalizing strayLeft self link with
  | zero =>
      rw [exchange] at h
      rcases hwrite : L.writeFrame frame link with ⟨e | _, link₁⟩
      · rw [hwrite] at h
        cases h
      · rw [hwrite] at h
        exact readReply_answered (fun again hnone => by cases hnone) h
  | succ left ih =>
      rw [exchange] at h
      rcases hwrite : L.writeFrame frame link with ⟨e | _, link₁⟩
      · rw [hwrite] at h
        cases h
      · rw [hwrite] at h
        refine readReply_answered (fun again hagain strayLeft self link h => ?_) h
        obtain rfl := Option.some.inj hagain
        exact ih h

end Transport

namespace Oplog

variable {C : Cipher} {chrono : Chrono}

/-- A log page operation writes nothing after its first frame. -/
theorem answered_done {step : Step LogPage}
    (h : Transport.Answered (LogPageOp.operation C chrono) step) :
    ∃ page : LogPage, step = .done page ∧ page.WellFormed := by
  obtain ⟨now, raw, self, self', hc⟩ := h
  change (LogPageOp.handleFrame C chrono raw).call self = _ at hc
  rw [LogPageOp.call_handleFrame] at hc
  split at hc
  · rcases hd : decryptResponse C raw self.aesKey with e | plain
    · rw [hd] at hc
      cases hc
    · rw [hd] at hc
      dsimp only at hc
      rcases hp : parseSuccessResponse plain COMM_GET_OPERATE_LOG with e | _
      · rw [hp] at hc
        cases hc
      · rw [hp] at hc
        dsimp only at hc
        rcases hpage : parsePage chrono plain.data with e | page
        · rw [hpage] at hc
          cases hc
        · rw [hpage] at hc
          obtain rfl := Except.ok.inj (Prod.mk.inj hc).1
          exact ⟨page, rfl, parsePage_wellFormed hpage⟩
  · cases hc

section

variable {τ : Type} (C) (chrono) (L : Transport CliError τ) (aesKey : AesKey) (version : LockVersion)

/-- Reading a page comes to an end, whatever the link does. -/
theorem readPage_returns (cursor : LogCursor) (link : τ) :
    ∃ result link', readPage C chrono L aesKey version cursor link = some (result, link') ∧
      ∀ page, result = .ok page → page.WellFormed := by
  rw [readPage, Transport.runOp, show (LogPageOp.operation C chrono).start = LogPageOp.start C from rfl,
    LogPageOp.call_start]
  rcases (LogPageOp.new aesKey version cursor).request.build C with e | frame
  · exact ⟨.error (.core e), link, rfl, by simp⟩
  · dsimp only
    rw [Transport.drive_write]
    rcases hex : Transport.exchange L (LogPageOp.operation C chrono) frame CRC_RETRIES MAX_STRAY_FRAMES
      { LogPageOp.new aesKey version cursor with awaitingResponse := true } link with ⟨e | step, self, link'⟩
    · exact ⟨.error e, link', rfl, by simp⟩
    · obtain ⟨page, rfl, hpage⟩ := answered_done (Transport.exchange_answered hex)
      refine ⟨.ok page, link', rfl, fun page' h => ?_⟩
      obtain rfl := Except.ok.inj h
      exact hpage

/-- So does fetching one. -/
theorem fetchPage_returns (cursor : LogCursor) (link : τ) :
    ∃ result link', fetchPage C chrono L aesKey version cursor link = some (result, link') ∧
      ∀ page, result = .ok (some page) → page.WellFormed := by
  have hreturns := fun link => readPage_returns C chrono L aesKey version cursor link
  -- a page that is read is a page that was parsed
  have hread : ∀ {link page link'}, readPage C chrono L aesKey version cursor link =
      some (.ok page, link') → page.WellFormed := by
    intro link page link' h
    obtain ⟨result, link'', hresult, hpage⟩ := hreturns link
    exact hpage page (Prod.mk.inj (Option.some.inj (hresult.symm.trans h))).1
  have hnone : ∀ {link}, readPage C chrono L aesKey version cursor link ≠ none := by
    intro link h
    obtain ⟨result, link', hresult, -⟩ := hreturns link
    cases h.symm.trans hresult
  rw [fetchPage.eq_def]
  split
  · next h => exact absurd h hnone
  · next page link₁ h =>
      refine ⟨_, _, rfl, fun page' hpage => ?_⟩
      obtain rfl := Option.some.inj (Except.ok.inj hpage)
      exact hread h
  · next link₁ h =>
      split
      · next h => exact absurd h hnone
      · next page link₂ h =>
          refine ⟨_, _, rfl, fun page' hpage => ?_⟩
          obtain rfl := Option.some.inj (Except.ok.inj hpage)
          exact hread h
      · exact ⟨_, _, rfl, fun page hpage => by cases hpage⟩
      · exact ⟨_, _, rfl, fun page hpage => by cases hpage⟩
  · exact ⟨_, _, rfl, fun page hpage => by cases hpage⟩

end

/-! ## Callbacks -/

section

variable {κ κ' τ : Type}

/-- The callback, and how often it was called. -/
def counting (onRecord : LogRecord → κ → Except CliError Unit × κ) (record : LogRecord)
    (seen : κ × Nat) : Except CliError Unit × κ × Nat :=
  ((onRecord record seen.1).1, (onRecord record seen.1).2, seen.2 + 1)

/-- The second callback does what the first does, on states that are related. -/
def Simulates (related : κ → κ' → Prop) (onRecord : LogRecord → κ → Except CliError Unit × κ)
    (onRecord' : LogRecord → κ' → Except CliError Unit × κ') : Prop :=
  ∀ record seen seen', related seen seen' →
    (onRecord' record seen').1 = (onRecord record seen).1 ∧
      related (onRecord record seen).2 (onRecord' record seen').2

variable {related : κ → κ' → Prop} {onRecord : LogRecord → κ → Except CliError Unit × κ}
  {onRecord' : LogRecord → κ' → Except CliError Unit × κ'}

theorem deliver_simulates (h : Simulates related onRecord onRecord') (limit : Option Nat)
    (records : Nat) (rs : List LogRecord) {seen : κ} {seen' : κ'} (hseen : related seen seen') :
    (deliver onRecord' limit records rs seen').1 = (deliver onRecord limit records rs seen).1 ∧
      related (deliver onRecord limit records rs seen).2 (deliver onRecord' limit records rs seen').2 := by
  induction rs generalizing records seen seen' with
  | nil => exact ⟨rfl, hseen⟩
  | cons r rs ih =>
      obtain ⟨hresult, hnext⟩ := h r seen seen' hseen
      rw [deliver, deliver]
      rcases hcall : onRecord r seen with ⟨e | _, next⟩ <;>
        rcases hcall' : onRecord' r seen' with ⟨e' | _, next'⟩ <;> rw [hcall, hcall'] at hresult hnext
      · exact ⟨congrArg _ (Except.error.inj hresult), hnext⟩
      · cases hresult
      · cases hresult
      · dsimp only
        split
        · exact ⟨rfl, hnext⟩
        · exact ih (records + 1) hnext

/-- A walk does not look at what its callback keeps. -/
theorem walkPages_simulates (h : Simulates related onRecord onRecord') (limit : Option Nat)
    (fetch : LogCursor → τ → Option (Except CliError (Option LogPage) × τ)) (fuel : Nat)
    (cursor : LogCursor) (last : Option Sequence) (records : Nat) (link : τ) {seen : κ} {seen' : κ'}
    (hseen : related seen seen') :
    (walkPages onRecord limit fetch fuel cursor last records link seen = none ∧
      walkPages onRecord' limit fetch fuel cursor last records link seen' = none) ∨
    ∃ result link' final final', related final final' ∧
      walkPages onRecord limit fetch fuel cursor last records link seen = some (result, link', final) ∧
      walkPages onRecord' limit fetch fuel cursor last records link seen' = some (result, link', final') := by
  induction fuel generalizing cursor last records link seen seen' with
  | zero => exact .inl ⟨rfl, rfl⟩
  | succ fuel ih =>
      rw [walkPages, walkPages]
      rcases fetch cursor link with _ | ⟨e | _ | page, link₁⟩
      · exact .inl ⟨rfl, rfl⟩
      · exact .inr ⟨_, _, seen, seen', hseen, rfl, rfl⟩
      · exact .inr ⟨_, _, seen, seen', hseen, rfl, rfl⟩
      · obtain ⟨hresult, hnext⟩ := deliver_simulates h limit records page.records hseen
        rcases hd : deliver onRecord limit records page.records seen with ⟨e | ⟨count, _ | _⟩, next⟩ <;>
          rcases hd' : deliver onRecord' limit records page.records seen' with
            ⟨e' | ⟨count', _ | _⟩, next'⟩ <;>
          rw [hd, hd'] at hresult hnext <;> cases hresult <;> dsimp only <;> rw [hd, hd']
        · exact .inr ⟨_, _, next, next', hnext, rfl, rfl⟩
        · dsimp only
          rcases page.next with _ | s
          · exact .inr ⟨_, _, next, next', hnext, rfl, rfl⟩
          · by_cases hlast : last = some s
            · simp only [if_pos hlast]
              exact .inr ⟨_, _, next, next', hnext, rfl, rfl⟩
            · simp only [if_neg hlast]
              exact ih _ _ _ _ hnext
        · exact .inr ⟨_, _, next, next', hnext, rfl, rfl⟩

end

/-! ## Under a limit -/

section

variable {κ τ : Type} (onRecord : LogRecord → κ → Except CliError Unit × κ) {limit : Nat}

/-- **The records of a page**, while the limit is not reached: the calls are counted, and the limit is
    not passed. -/
theorem deliver_counting {records : Nat} (hlt : records < limit) (rs : List LogRecord) (seen : κ) :
    ∃ result seen' calls,
      deliver (counting onRecord) (some limit) records rs (seen, records) = (result, seen', calls) ∧
      calls ≤ limit ∧ (∀ count, result = .ok (count, true) → count = calls) ∧
      ∀ count, result = .ok (count, false) →
        count = calls ∧ count = records + rs.length ∧ count < limit := by
  induction rs generalizing records seen with
  | nil =>
      refine ⟨_, _, _, rfl, Nat.le_of_lt hlt, (by simp), fun count h => ?_⟩
      cases h
      exact ⟨rfl, rfl, hlt⟩
  | cons r rs ih =>
      rw [deliver, counting]
      rcases hcall : onRecord r seen with ⟨e | _, next⟩
      · exact ⟨_, _, _, rfl, hlt, (by simp), by simp⟩
      · dsimp only
        have hany : (some limit).any (fun max => decide (records + 1 ≥ max)) = true ↔ records + 1 ≥ limit :=
          decide_eq_true_iff
        by_cases hreached : records + 1 ≥ limit
        · rw [if_pos (hany.2 hreached)]
          refine ⟨_, _, _, rfl, hlt, fun count h => ?_, by simp⟩
          cases h
          rfl
        · rw [if_neg (mt hany.1 hreached)]
          obtain ⟨result, seen', calls, hdeliver, hle, htrue, hfalse⟩ := ih (Nat.lt_of_not_ge hreached) next
          refine ⟨result, seen', calls, hdeliver, hle, htrue, fun count h => ?_⟩
          obtain ⟨hcalls, hcount, hbelow⟩ := hfalse count h
          refine ⟨hcalls, ?_, hbelow⟩
          rw [hcount, List.length_cons]
          omega

/-- A walk has returned, within the limit, and reports what it handed over. -/
def KeepsLimit (limit : Nat) (walked : Option (Except CliError Walk × τ × κ × Nat)) : Prop :=
  ∃ result link seen calls, walked = some (result, link, seen, calls) ∧ calls ≤ limit ∧
    ∀ walk, result = .ok walk → walk.records = calls

variable {fetch : LogCursor → τ → Option (Except CliError (Option LogPage) × τ)}
  (hfetch : ∀ cursor link, ∃ result link', fetch cursor link = some (result, link') ∧
    ∀ page, result = .ok (some page) → page.WellFormed)

include hfetch

/-- **Below its limit a walk keeps it.** Every page that leads to another one brings a record nearer to
    the limit. -/
theorem walkPages_keepsLimit {fuel records : Nat} (hlt : records < limit)
    (hfuel : limit ≤ fuel + records) (cursor : LogCursor) (last : Option Sequence) (link : τ) (seen : κ) :
    KeepsLimit limit
      (walkPages (counting onRecord) (some limit) fetch fuel cursor last records link (seen, records)) := by
  induction fuel generalizing records cursor last link seen with
  | zero => omega
  | succ fuel ih =>
      obtain ⟨result, link₁, hresult, hpage⟩ := hfetch cursor link
      rw [walkPages, hresult]
      rcases result with e | _ | page
      · exact ⟨_, _, _, _, rfl, Nat.le_of_lt hlt, by simp⟩
      · refine ⟨_, _, _, _, rfl, Nat.le_of_lt hlt, fun walk h => ?_⟩
        cases h
        rfl
      · obtain ⟨delivered, next, calls, hdeliver, hle, htrue, hfalse⟩ :=
          deliver_counting onRecord hlt page.records seen
        dsimp only
        rw [hdeliver]
        rcases delivered with e | ⟨count, _ | _⟩
        · exact ⟨_, _, _, _, rfl, hle, by simp⟩
        · obtain ⟨rfl, hcount, hbelow⟩ := hfalse count rfl
          dsimp only
          rcases hnext : page.next with _ | s
          · refine ⟨_, _, _, _, rfl, hle, fun walk h => ?_⟩
            cases h
            rfl
          · dsimp only
            by_cases hlast : last = some s
            · rw [if_pos hlast]
              refine ⟨_, _, _, _, rfl, hle, fun walk h => ?_⟩
              cases h
              rfl
            · rw [if_neg hlast]
              have hrecords : page.records ≠ [] := by
                intro hnil
                cases hnext.symm.trans ((hpage page rfl).1 hnil)
              have hpos := List.length_pos_iff.2 hrecords
              exact ih hbelow (by omega) _ _ _ _
        · refine ⟨_, _, _, _, rfl, hle, fun walk h => ?_⟩
          cases h
          exact htrue count rfl

/-- At a limit of zero it is kept as long as there is nothing to hand over. -/
theorem walkPages_keepsLimit_zero (fuel : Nat) (cursor : LogCursor) (link : τ) (seen : κ) :
    KeepsLimit 0
        (walkPages (counting onRecord) (some 0) fetch (fuel + 1) cursor none 0 link (seen, 0)) ↔
      ∀ page link', fetch cursor link = some (.ok (some page), link') → page.records = [] := by
  obtain ⟨result, link₁, hresult, hpage⟩ := hfetch cursor link
  rw [walkPages, hresult]
  rcases result with e | _ | page
  · exact iff_of_true ⟨_, _, _, _, rfl, Nat.le_refl 0, by simp⟩ (by simp)
  · refine iff_of_true ⟨_, _, _, _, rfl, Nat.le_refl 0, fun walk h => ?_⟩ (by simp)
    cases h
    rfl
  · dsimp only
    rcases hrecords : page.records with _ | ⟨r, rs⟩
    · rw [deliver, (hpage page rfl).1 hrecords]
      refine iff_of_true ⟨_, _, _, _, rfl, Nat.le_refl 0, fun walk h => ?_⟩ fun page' link' h => ?_
      · cases h
        rfl
      · cases h
        exact hrecords
    · refine iff_of_false ?_ fun h => by cases hrecords.symm.trans (h page link₁ rfl)
      rintro ⟨result, link', seen', calls, hwalk, hcalls, -⟩
      rw [deliver, counting] at hwalk
      rcases hcall : onRecord r seen with ⟨e | _, next⟩ <;> rw [hcall] at hwalk <;> cases hwalk <;>
        exact Nat.not_succ_le_zero 0 hcalls

end

/-- **A limit is an upper bound** unless it is zero and there is a record. -/
theorem walk_keepsLimit_iff {τ κ : Type} (C : Cipher) (chrono : Chrono) (L : Transport CliError τ)
    (aesKey : AesKey) (version : LockVersion) (start : LogCursor)
    (onRecord : LogRecord → κ → Except CliError Unit × κ) (link : τ) (seen : κ) {limit fuel : Nat}
    (hfuel : limit < fuel) :
    KeepsLimit limit (walk C chrono L aesKey version start (some limit) (counting onRecord) fuel link
        (seen, 0)) ↔
      limit ≠ 0 ∨ ∀ page link', fetchPage C chrono L aesKey version start link =
        some (.ok (some page), link') → page.records = [] := by
  have hfetch := fetchPage_returns C chrono L aesKey version
  rcases Nat.eq_zero_or_pos limit with rfl | hpos
  · obtain ⟨fuel, rfl⟩ := Nat.exists_eq_add_one_of_ne_zero (show fuel ≠ 0 by omega)
    rw [walk, walkPages_keepsLimit_zero onRecord hfetch, or_iff_right (not_not_intro rfl)]
  · refine iff_of_true ?_ (.inl (Nat.ne_of_gt hpos))
    exact walkPages_keepsLimit onRecord hfetch hpos (by omega) start none link seen

/-- A walk over a link that delivers one page of one record. -/
def sampleLimited (limit fuel : Nat) :
    Option (Except CliError Walk × ScriptedLink × List LogRecord × Nat) :=
  walk aes128Cbc sampleChrono (ScriptedLink.transport .timeout 0) sampleKey .default .beginning
    (some limit) (counting collect) fuel ⟨[samplePage 10 [47]], []⟩ ([], 0)

theorem limit_one_kept : KeepsLimit 1 (sampleLimited 1 2) :=
  (walk_keepsLimit_iff aes128Cbc sampleChrono (ScriptedLink.transport .timeout 0) sampleKey .default
    .beginning collect ⟨[samplePage 10 [47]], []⟩ [] (by decide)).2 (.inl (by decide))

/-- At a limit of zero the record is handed over. -/
theorem limit_zero_passed :
    (sampleLimited 0 1).map (fun walked => (walked.1, walked.2.2)) =
        some (.ok ⟨1, .limitReached, none⟩, [sampleRecord ⟨10, by decide⟩ 47], 1) ∧
      ¬KeepsLimit 0 (sampleLimited 0 1) := by
  have hwalk : (sampleLimited 0 1).map (fun walked => (walked.1, walked.2.2)) =
      some (.ok ⟨1, .limitReached, none⟩, [sampleRecord ⟨10, by decide⟩ 47], 1) := by
    decide +kernel
  refine ⟨hwalk, ?_⟩
  rintro ⟨result, link, seen, calls, hsome, hcalls, -⟩
  rw [hsome] at hwalk
  cases hwalk
  exact Nat.not_succ_le_zero 0 hcalls

end Oplog

end TTLock
