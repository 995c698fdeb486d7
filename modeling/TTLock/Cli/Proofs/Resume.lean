import TTLock.Cli.Proofs.Walk

set_option autoImplicit false

/-! # Going on after a limited walk

A walk that reaches its limit resumes from the page before the one it stopped in. Resuming it again and
again reaches the end of the log iff every page has fewer records than the limit
(`resumed_walks_complete_iff`): a page that fills the limit by itself is where every call stops, and where
the next one starts. -/

namespace TTLock

namespace Oplog

open LogLink

variable {C : Cipher} {chrono : Chrono} {aesKey : AesKey} {log : StoredLog}
  {lock : List UInt16 → List UInt8} {limit fuel : Nat}

/-! ## One limited walk -/

/-- The records of a page under a limit: some of them, at least one, and all of them if the limit is not
    reached. -/
theorem deliver_collect (limit : Option Nat) {rs : List LogRecord} (hrs : rs ≠ []) (records : Nat)
    (seen : List LogRecord) :
    ∃ n, 0 < n ∧ n ≤ rs.length ∧
      deliver collect limit records rs seen =
        (.ok (records + n, limit.any (· ≤ records + rs.length)), seen ++ rs.take n) ∧
      (limit.any (· ≤ records + rs.length) = false → n = rs.length) := by
  induction rs generalizing records seen with
  | nil => exact absurd rfl hrs
  | cons r rs ih =>
      have hmono : limit.any (fun max => records + 1 ≥ max) = true →
          limit.any (· ≤ records + (r :: rs).length) = true := by
        cases limit with
        | none => exact id
        | some max =>
            simp only [Option.any_some, decide_eq_true_eq, List.length_cons]
            omega
      simp only [deliver, collect]
      by_cases hreached : limit.any (fun max => records + 1 ≥ max) = true
      · refine ⟨1, Nat.one_pos, by simp, ?_, fun h => ?_⟩
        · rw [if_pos hreached, hmono hreached]
          rfl
        · rw [hmono hreached] at h
          cases h
      · rw [if_neg hreached]
        rcases rs with _ | ⟨r', rs⟩
        · have hfalse : limit.any (· ≤ records + [r].length) = false := eq_false_of_ne_true hreached
          refine ⟨1, Nat.one_pos, Nat.le_refl 1, ?_, fun _ => rfl⟩
          rw [deliver, hfalse]
          rfl
        · obtain ⟨n, hpos, hle, hdeliver, hall⟩ := ih (by simp) (records + 1) (seen ++ [r])
          have hlength : records + 1 + (r' :: rs).length = records + (r :: r' :: rs).length := by
            simp only [List.length_cons]
            omega
          rw [hlength] at hdeliver hall
          refine ⟨n + 1, Nat.succ_pos n, Nat.succ_le_succ hle, ?_, fun h => congrArg Nat.succ (hall h)⟩
          rw [hdeliver, List.append_assoc, Nat.add_right_comm, Nat.add_assoc]
          rfl

/-- How many of these pages a walk gets through before its limit, when it has handed over `records`. -/
def through (limit : Option Nat) : (records : Nat) → List StoredPage → Nat
  | _, [] => 0
  | records, p :: rest =>
      if limit.any (· ≤ records + p.records.length) then 0
      else through limit (records + p.records.length) rest + 1

theorem through_le (limit : Option Nat) (records : Nat) (pages : List StoredPage) :
    through limit records pages ≤ pages.length := by
  induction pages generalizing records with
  | nil => exact Nat.le_refl 0
  | cons p rest ih =>
      rw [through]
      split
      · exact Nat.zero_le _
      · exact Nat.succ_le_succ (ih _)

/-- **A walk from a cursor with a limit**, by induction on the pages after it. -/
theorem walkPages_limited (hC : C.Lawful) (hlock : Honest C chrono aesKey log lock)
    (version : LockVersion) (limit : Option Nat) (cursor : LogCursor) {rest : List StoredPage}
    (hrest : log.after cursor.value = rest) (hfuel : rest.length < fuel)
    (last : Option Sequence) (hlast : ∀ s, last = some s → s.get ≤ cursor.value) (records : Nat)
    {link : LogLink} (hquiet : link.Quiet) (seen : List LogRecord) :
    let k := through limit records rest
    ∃ walk link' more,
      walkPages collect limit (quietFetch C chrono aesKey version lock) fuel cursor last records
        link seen = some (.ok walk, link', seen ++ recordsOf (rest.take k) ++ more) ∧
      (k = rest.length → walk.ending = .exhausted) ∧
      (k < rest.length → walk.ending = .limitReached ∧
        walk.resumeFrom = resumeAfter last (rest.take k)) := by
  induction rest generalizing cursor fuel last records link seen with
  | nil =>
      obtain ⟨fuel, rfl⟩ := Nat.exists_eq_add_one_of_ne_zero (show fuel ≠ 0 by omega)
      have hpage := hlock cursor.value link.cursors
      rw [StoredLog.answer_of_nil hrest] at hpage
      refine ⟨⟨records, .exhausted, none⟩, link.asked lock cursor.value, [], ?_, fun _ => rfl,
        fun h => absurd h (Nat.lt_irrefl 0)⟩
      rw [walkPages_end (fetchPage_page hC hlock.orRefusing.serves version cursor hquiet hpage)]
      simp [recordsOf]
  | cons p rest ih =>
      obtain ⟨fuel, rfl⟩ := Nat.exists_eq_add_one_of_ne_zero (show fuel ≠ 0 by omega)
      have hpage := hlock cursor.value link.cursors
      rw [StoredLog.answer_of_cons hrest] at hpage
      have hfetch := fetchPage_page hC hlock.orRefusing.serves version cursor hquiet hpage
      obtain ⟨n, -, -, hdeliver, hall⟩ := deliver_collect limit p.nonempty records seen
      intro k
      by_cases hreached : limit.any (· ≤ records + p.records.length) = true
      · have hk : k = 0 := if_pos hreached
        rw [hreached] at hdeliver
        refine ⟨⟨records + n, .limitReached, last⟩, link.asked lock cursor.value,
          p.records.take n, ?_, ?_, ?_⟩
        · rw [walkPages_reached hfetch hdeliver, hk]
          simp [recordsOf]
        · intro h
          rw [hk] at h
          cases h
        · intro _
          rw [hk]
          exact ⟨rfl, rfl⟩
      · have hk : k = through limit (records + p.records.length) rest + 1 := if_neg hreached
        rw [Bool.not_eq_true] at hreached
        obtain rfl := hall hreached
        rw [hreached, List.take_length] at hdeliver
        have hquiet' : (link.asked lock cursor.value).Quiet := hquiet.asked cursor.value
        obtain ⟨walk, link', more, hwalk, hend, hlimit⟩ := ih (.after p.sequence)
          (StoredLog.after_sequence hrest) (Nat.lt_of_succ_lt_succ hfuel) (some p.sequence)
          (StoredLog.last_after p) (records + p.records.length) hquiet' (seen ++ p.records)
        refine ⟨walk, link', more, ?_, ?_, ?_⟩
        · rw [walkPages_on hfetch hdeliver (StoredLog.ne_last_of_after hrest hlast), hwalk, hk]
          simp only [List.take_succ_cons, recordsOf, List.flatMap_cons, List.append_assoc]
        · intro h
          exact hend (by rw [hk] at h; exact Nat.succ.inj h)
        · intro h
          rw [hk, List.take_succ_cons, resumeAfter_cons]
          exact hlimit (by rw [hk] at h; exact Nat.lt_of_succ_lt_succ h)

/-- A walk gets through no page that fills the limit by itself. -/
theorem mem_drop_through {p : StoredPage} (hp : limit ≤ p.records.length) (records : Nat)
    {pages : List StoredPage} (hmem : p ∈ pages) :
    p ∈ pages.drop (through (some limit) records pages) := by
  induction pages generalizing records with
  | nil => exact hmem
  | cons q rest ih =>
      rw [through]
      split
      · exact hmem
      · rename_i hlt
        rw [Option.any_some, decide_eq_true_eq] at hlt
        rcases List.mem_cons.1 hmem with rfl | hmem
        · omega
        · exact ih _ hmem

/-- It gets through the first page, if that does not fill the limit. -/
theorem through_pos {p : StoredPage} (hp : p.records.length < limit) (rest : List StoredPage) :
    0 < through (some limit) 0 (p :: rest) := by
  rw [through, Option.any_some, if_neg (by rw [decide_eq_true_eq]; omega)]
  exact Nat.succ_pos _

/-! ## Calling it again and again -/

/-- One call, over a connection of its own. -/
def call (C : Cipher) (chrono : Chrono) (aesKey : AesKey) (version : LockVersion)
    (lock : List UInt16 → List UInt8) (limit fuel : Nat) (start : LogCursor) :
    Option (Walk × List LogRecord) :=
  match walkLog C chrono aesKey version lock (fun _ => []) start (some limit) fuel with
  | some (.ok walk, _, records) => some (walk, records)
  | _ => none

/-- The first `count` calls, each from where the one before it left off. The one that is exhausted is the
    last one. -/
def calls (C : Cipher) (chrono : Chrono) (aesKey : AesKey) (version : LockVersion)
    (lock : List UInt16 → List UInt8) (limit fuel : Nat) :
    (count : Nat) → (start : LogCursor) → List (Walk × List LogRecord)
  | 0, _ => []
  | count + 1, start => match call C chrono aesKey version lock limit fuel start with
    | none => []
    | some (walk, records) => (walk, records) ::
        if walk.ending = .exhausted then []
        else calls C chrono aesKey version lock limit fuel count (resumeCursor start walk.resumeFrom)

/-- One of these calls is exhausted. -/
def ReachesEnd (calls : List (Walk × List LogRecord)) : Prop :=
  ∃ call ∈ calls, call.1.ending = .exhausted

/-- Each of these records is handed over by one of these calls. -/
def Delivers (calls : List (Walk × List LogRecord)) (records : List LogRecord) : Prop :=
  ∀ record ∈ records, ∃ call ∈ calls, record ∈ call.2

/-- A call gets through pages from its start on, and the next one starts at the page after them. -/
theorem call_limited (hC : C.Lawful) (hlock : Honest C chrono aesKey log lock) (version : LockVersion)
    (hfuel : log.pages.length < fuel) (start : LogCursor) :
    let rest := log.after start.value
    let k := through (some limit) 0 rest
    ∃ walk records, call C chrono aesKey version lock limit fuel start = some (walk, records) ∧
      (∀ record ∈ recordsOf (rest.take k), record ∈ records) ∧
      (k = rest.length → walk.ending = .exhausted) ∧
      (k < rest.length → walk.ending ≠ .exhausted ∧
        log.after (resumeCursor start walk.resumeFrom).value = rest.drop k) := by
  intro rest k
  obtain ⟨walk, link, more, hwalk, hend, hreached⟩ := walkPages_limited hC hlock version (some limit)
    start rfl (Nat.lt_of_le_of_lt StoredLog.length_after_le hfuel) none (fun s hs => by cases hs) 0
    new_quiet []
  have hlog : walkLog C chrono aesKey version lock (fun _ => []) start (some limit) fuel = _ := hwalk
  refine ⟨walk, [] ++ recordsOf (rest.take k) ++ more, ?_, ?_, hend, ?_⟩
  · rw [call, hlog]
  · intro record hrecord
    exact List.mem_append_left _ hrecord
  · intro hlt
    obtain ⟨hending, hresume⟩ := hreached hlt
    refine ⟨by rw [hending]; exact Ending.noConfusion, ?_⟩
    rw [hresume]
    exact after_resumeCursor start rfl (through_le _ _ _)

/-- Where no page fills the limit, the calls hand over everything and reach the end. -/
theorem calls_complete (hC : C.Lawful) (hlock : Honest C chrono aesKey log lock) (version : LockVersion)
    (hfuel : log.pages.length < fuel) {rest : List StoredPage}
    (hsmall : ∀ p ∈ rest, p.records.length < limit) (start : LogCursor)
    (hrest : log.after start.value = rest) :
    ∃ count, ReachesEnd (calls C chrono aesKey version lock limit fuel count start) ∧
      Delivers (calls C chrono aesKey version lock limit fuel count start) (recordsOf rest) := by
  induction hn : rest.length using Nat.strong_induction_on generalizing rest start with
  | _ n ih =>
      obtain ⟨walk, records, hcall, hrecords, hend, hgo⟩ :=
        call_limited hC hlock version hfuel start
      rw [hrest] at hrecords hend hgo
      rcases Nat.eq_or_lt_of_le (through_le (some limit) 0 rest) with hall | hlt
      · refine ⟨1, ?_, ?_⟩
        · rw [calls, hcall]
          exact ⟨_, List.mem_cons_self, hend hall⟩
        · rw [hall, List.take_length] at hrecords
          rw [calls, hcall]
          exact fun record hrecord => ⟨_, List.mem_cons_self, hrecords record hrecord⟩
      · obtain ⟨hending, hnext⟩ := hgo hlt
        -- the first page does not fill the limit, so the next call starts behind it
        have hpos : 0 < through (some limit) 0 rest := by
          cases rest with
          | nil => exact absurd hlt (Nat.not_lt_zero _)
          | cons p rest => exact through_pos (hsmall p List.mem_cons_self) rest
        obtain ⟨count, hreaches, hdelivers⟩ := ih (rest.drop (through (some limit) 0 rest)).length
          (by rw [List.length_drop]; omega) (fun p hp => hsmall p (List.mem_of_mem_drop hp)) _ hnext rfl
        have hcalls : calls C chrono aesKey version lock limit fuel (count + 1) start = (walk, records) ::
            calls C chrono aesKey version lock limit fuel count (resumeCursor start walk.resumeFrom) := by
          rw [calls, hcall]
          simp only [if_neg hending]
        refine ⟨count + 1, ?_, ?_⟩
        · rw [hcalls]
          obtain ⟨c, hc, hcend⟩ := hreaches
          exact ⟨c, List.mem_cons_of_mem _ hc, hcend⟩
        · rw [hcalls]
          intro record hrecord
          have hsplit : record ∈ recordsOf (rest.take (through (some limit) 0 rest)) ++
              recordsOf (rest.drop (through (some limit) 0 rest)) := by
            rw [recordsOf, recordsOf, ← List.flatMap_append, List.take_append_drop]
            exact hrecord
          rcases List.mem_append.1 hsplit with hnow | hlater
          · exact ⟨_, List.mem_cons_self, hrecords record hnow⟩
          · obtain ⟨c, hc, hmem⟩ := hdelivers record hlater
            exact ⟨c, List.mem_cons_of_mem _ hc, hmem⟩

/-- A page that fills the limit is never passed. -/
theorem calls_stuck (hC : C.Lawful) (hlock : Honest C chrono aesKey log lock) (version : LockVersion)
    (hfuel : log.pages.length < fuel) {p : StoredPage}
    (hp : limit ≤ p.records.length) (count : Nat) (start : LogCursor)
    (hmem : p ∈ log.after start.value) :
    ¬ReachesEnd (calls C chrono aesKey version lock limit fuel count start) := by
  induction count generalizing start with
  | zero =>
      rintro ⟨c, hc, -⟩
      cases hc
  | succ count ih =>
      obtain ⟨walk, records, hcall, -, -, hgo⟩ := call_limited hC hlock version hfuel start
      have hdrop := mem_drop_through hp 0 hmem
      have hlt : through (some limit) 0 (log.after start.value) < (log.after start.value).length := by
        have hpos := List.length_pos_of_mem hdrop
        rw [List.length_drop] at hpos
        omega
      obtain ⟨hending, hnext⟩ := hgo hlt
      rw [calls, hcall]
      simp only [if_neg hending]
      rintro ⟨c, hc, hcend⟩
      rcases List.mem_cons.1 hc with rfl | hc
      · exact hending hcend
      · exact ih _ (hnext ▸ hdrop) ⟨c, hc, hcend⟩

/-- **Resuming a limited walk again and again** reaches the end of the log, with every record handed over,
    iff no page has as many records as the limit. -/
theorem resumed_walks_complete_iff (hC : C.Lawful) (hlock : Honest C chrono aesKey log lock)
    (version : LockVersion) (hfuel : log.pages.length < fuel) :
    (∃ count, ReachesEnd (calls C chrono aesKey version lock limit fuel count .beginning) ∧
      Delivers (calls C chrono aesKey version lock limit fuel count .beginning) (recordsOf log.pages)) ↔
      ∀ p ∈ log.pages, p.records.length < limit := by
  have hall : log.after LogCursor.beginning.value = log.pages := StoredLog.after_zero log
  constructor
  · rintro ⟨count, hreaches, -⟩ p hp
    by_contra hle
    exact calls_stuck hC hlock version hfuel (Nat.le_of_not_lt hle) count .beginning (hall ▸ hp)
      hreaches
  · intro hsmall
    exact calls_complete hC hlock version hfuel hsmall .beginning hall

/-! ## A log of one page again -/

/-- A lock that holds `sampleLog` and never refuses. -/
def willingLock (cursors : List UInt16) : List UInt8 :=
  if cursors.headD 0 < 10 then samplePage 10 [47] else sampleEnd

theorem willingLock_honest : Honest aes128Cbc sampleChrono sampleKey sampleLog willingLock := by
  intro cursor cursors
  rw [sampleLog_answer]
  show pageOf _ _ _ (if cursor < 10 then samplePage 10 [47] else sampleEnd) = _
  split
  · exact pageOf_samplePage
  · exact pageOf_sampleEnd

theorem resumed_walks_complete_in_room :
    ∃ count, ReachesEnd (calls aes128Cbc sampleChrono sampleKey .default willingLock 2 2 count .beginning) ∧
      Delivers (calls aes128Cbc sampleChrono sampleKey .default willingLock 2 2 count .beginning)
        (recordsOf sampleLog.pages) :=
  (resumed_walks_complete_iff aes128Cbc_lawful willingLock_honest .default (by decide)).2
    (by decide)

/-- With a limit of one record, every call stops in the first page and resumes before it. -/
theorem resumed_walks_stuck :
    Honest aes128Cbc sampleChrono sampleKey sampleLog willingLock ∧
      ∀ count, ¬ReachesEnd
        (calls aes128Cbc sampleChrono sampleKey .default willingLock 1 2 count .beginning) :=
  ⟨willingLock_honest, fun count => calls_stuck aes128Cbc_lawful willingLock_honest .default
    (by decide) (show 1 ≤ sampleStored.records.length by decide) count .beginning
    (StoredLog.after_zero sampleLog ▸ List.mem_singleton_self sampleStored)⟩

end Oplog

end TTLock
