import TTLock.Cli.Proofs.StoredLog

set_option autoImplicit false

/-! # A walk over an honest log

A walk hands over whole pages in order. It ends at the empty page, or where the lock refuses one cursor
twice running; from there a second walk hands over the rest (`walk_loses_nothing`). -/

namespace TTLock

namespace Oplog

open LogLink

variable {C : Cipher} {chrono : Chrono} {aesKey : AesKey} {log : StoredLog}
  {lock : List UInt16 → List UInt8}

/-- The lock answers honestly wherever it does not refuse. -/
def HonestOrRefusing (C : Cipher) (chrono : Chrono) (aesKey : AesKey) (log : StoredLog)
    (lock : List UInt16 → List UInt8) : Prop :=
  ∀ cursor cursors, pageOf C chrono aesKey (lock (cursor :: cursors)) = .ok (log.answer cursor) ∨
    Refusal C aesKey (lock (cursor :: cursors))

/-- It never refuses. -/
def Honest (C : Cipher) (chrono : Chrono) (aesKey : AesKey) (log : StoredLog)
    (lock : List UInt16 → List UInt8) : Prop :=
  ∀ cursor cursors, pageOf C chrono aesKey (lock (cursor :: cursors)) = .ok (log.answer cursor)

/-- The empty page has come. -/
def ReceivedEnd (C : Cipher) (chrono : Chrono) (aesKey : AesKey) (link : LogLink) : Prop :=
  ∃ reply ∈ link.answered, pageOf C chrono aesKey reply.2 = .ok .endOfLog

/-- The last two requests asked for the same cursor, and the lock refused both. -/
def RefusedTwice (C : Cipher) (aesKey : AesKey) (lock : List UInt16 → List UInt8) (link : LogLink) :
    Prop :=
  ∃ cursor cursors before, link.cursors = cursor :: cursor :: cursors ∧
    link.answered = before ++
      [(cursor, lock (cursor :: cursors)), (cursor, lock (cursor :: cursor :: cursors))] ∧
    Refusal C aesKey (lock (cursor :: cursors)) ∧
    Refusal C aesKey (lock (cursor :: cursor :: cursors))

theorem Honest.orRefusing (h : Honest C chrono aesKey log lock) :
    HonestOrRefusing C chrono aesKey log lock := fun cursor cursors => .inl (h cursor cursors)

theorem HonestOrRefusing.serves (h : HonestOrRefusing C chrono aesKey log lock) :
    Serves C chrono aesKey lock := fun cursor cursors =>
  (h cursor cursors).imp (fun hpage => ⟨_, hpage⟩) id

theorem receivedEnd_asked {link : LogLink} {cursor : UInt16} :
    ReceivedEnd C chrono aesKey (link.asked lock cursor) ↔ ReceivedEnd C chrono aesKey link ∨
      pageOf C chrono aesKey (lock (cursor :: link.cursors)) = .ok .endOfLog := by
  constructor
  · rintro ⟨reply, hreply, hend⟩
    rcases List.mem_append.1 hreply with hold | hnew
    · exact .inl ⟨reply, hold, hend⟩
    · obtain rfl := List.mem_singleton.1 hnew
      exact .inr hend
  · rintro (⟨reply, hreply, hend⟩ | hend)
    · exact ⟨reply, List.mem_append_left _ hreply, hend⟩
    · exact ⟨_, List.mem_append_right _ (List.mem_singleton.2 rfl), hend⟩

theorem not_receivedEnd_refused {link : LogLink} {cursor : UInt16}
    (hend : ¬ReceivedEnd C chrono aesKey link) (h : Refusal C aesKey (lock (cursor :: link.cursors))) :
    ¬ReceivedEnd C chrono aesKey (link.asked lock cursor) := by
  rw [receivedEnd_asked]
  rintro (hold | hnew)
  · exact hend hold
  · obtain ⟨response, hrefused⟩ := h.pageOf_eq chrono
    cases hrefused.symm.trans hnew

/-- One fetch: the answer, or two refusals. -/
theorem fetch_honest (hC : C.Lawful) (hlock : HonestOrRefusing C chrono aesKey log lock)
    (version : LockVersion) (cursor : LogCursor) {link : LogLink} (hquiet : link.Quiet)
    (hend : ¬ReceivedEnd C chrono aesKey link) :
    ∃ link', link'.Quiet ∧
      ((quietFetch C chrono aesKey version lock cursor link =
          some (.ok (some (log.answer cursor.value)), link') ∧
        (ReceivedEnd C chrono aesKey link' ↔ log.answer cursor.value = .endOfLog)) ∨
      (quietFetch C chrono aesKey version lock cursor link = some (.ok none, link') ∧
        RefusedTwice C aesKey lock link' ∧ ¬ReceivedEnd C chrono aesKey link')) := by
  have hpage : ∀ {link : LogLink}, ¬ReceivedEnd C chrono aesKey link →
      pageOf C chrono aesKey (lock (cursor.value :: link.cursors)) = .ok (log.answer cursor.value) →
      (ReceivedEnd C chrono aesKey (link.asked lock cursor.value) ↔
        log.answer cursor.value = .endOfLog) := by
    intro link hend hpage
    rw [receivedEnd_asked, hpage, or_iff_right hend]
    exact ⟨Except.ok.inj, congrArg Except.ok⟩
  rcases hlock cursor.value link.cursors with hfirst | hrefusal
  · exact ⟨_, hquiet.asked _, .inl ⟨fetchPage_page hC hlock.serves version cursor hquiet hfirst,
      hpage hend hfirst⟩⟩
  · have hend' := not_receivedEnd_refused hend hrefusal
    refine ⟨(link.asked lock cursor.value).asked lock cursor.value,
      (hquiet.asked cursor.value).asked cursor.value, ?_⟩
    rcases hlock cursor.value (cursor.value :: link.cursors) with hsecond | hagain
    · exact .inl ⟨fetchPage_retried hC hlock.serves version cursor hquiet hrefusal hsecond,
        hpage hend' hsecond⟩
    · refine .inr ⟨fetchPage_refused hC hlock.serves version cursor hquiet hrefusal hagain,
        ⟨cursor.value, link.cursors, link.answered, rfl, ?_, hrefusal, hagain⟩,
        not_receivedEnd_refused hend' hagain⟩
      show link.answered ++ [_] ++ [_] = _
      rw [List.append_assoc]
      rfl

/-- The records of pages, in order. -/
def recordsOf (pages : List StoredPage) : List LogRecord := pages.flatMap StoredPage.records

/-- The cursor to resume from after these pages. -/
def resumeAfter (last : Option Sequence) (pages : List StoredPage) : Option Sequence :=
  (pages.getLast?.map StoredPage.sequence).or last

/-- How a walk without a limit went that began before `rest` and handed over `pages`. -/
inductive Went (C : Cipher) (chrono : Chrono) (aesKey : AesKey) (lock : List UInt16 → List UInt8)
    (rest : List StoredPage) (last : Option Sequence) :
    List StoredPage → Ending → Option Sequence → LogLink → Prop where
  | exhausted {link : LogLink} (received : ReceivedEnd C chrono aesKey link) :
      Went C chrono aesKey lock rest last rest .exhausted none link
  | refused {k : Nat} {link : LogLink} (le : k ≤ rest.length) (twice : RefusedTwice C aesKey lock link)
      (received : ¬ReceivedEnd C chrono aesKey link) :
      Went C chrono aesKey lock rest last (rest.take k) .refused (resumeAfter last (rest.take k)) link

theorem resumeAfter_cons (last : Option Sequence) (p : StoredPage) (pages : List StoredPage) :
    resumeAfter last (p :: pages) = resumeAfter (some p.sequence) pages := by
  cases pages with
  | nil => rfl
  | cons q pages =>
      rw [resumeAfter, resumeAfter, List.getLast?_cons_cons, List.getLast?_eq_some_getLast (by simp)]
      rfl

/-- The same with one more page at the beginning. -/
theorem Went.cons {p : StoredPage} {rest pages : List StoredPage} {ending : Ending}
    {resume : Option Sequence} {link : LogLink}
    (h : Went C chrono aesKey lock rest (some p.sequence) pages ending resume link)
    (last : Option Sequence) :
    Went C chrono aesKey lock (p :: rest) last (p :: pages) ending resume link := by
  cases h with
  | exhausted received => exact .exhausted received
  | @refused k _ le twice received =>
      rw [← resumeAfter_cons last]
      exact .refused (k := k + 1) (Nat.succ_le_succ le) twice received

/-- **A walk from a cursor**, by induction on the pages after it. -/
theorem walkPages_honest (hC : C.Lawful) (hlock : HonestOrRefusing C chrono aesKey log lock)
    (version : LockVersion) (cursor : LogCursor) {rest : List StoredPage}
    (hrest : log.after cursor.value = rest) {fuel : Nat} (hfuel : rest.length < fuel)
    (last : Option Sequence) (hlast : ∀ s, last = some s → s.get ≤ cursor.value) (records : Nat)
    {link : LogLink} (hquiet : link.Quiet) (hend : ¬ReceivedEnd C chrono aesKey link)
    (seen : List LogRecord) :
    ∃ pages ending resume link', Went C chrono aesKey lock rest last pages ending resume link' ∧
      walkPages collect none (quietFetch C chrono aesKey version lock) fuel cursor last records link seen =
        some (.ok ⟨records + (recordsOf pages).length, ending, resume⟩, link',
          seen ++ recordsOf pages) := by
  induction rest generalizing cursor fuel last records link seen with
  | nil =>
      obtain ⟨fuel, rfl⟩ := Nat.exists_eq_add_one_of_ne_zero (show fuel ≠ 0 by omega)
      obtain ⟨link', hquiet', ⟨hfetch, hreceived⟩ | ⟨hfetch, htwice, hend'⟩⟩ :=
        fetch_honest hC hlock version cursor hquiet hend
      · rw [StoredLog.answer_of_nil hrest] at hfetch hreceived
        refine ⟨[], _, _, link', .exhausted (hreceived.2 rfl), ?_⟩
        rw [walkPages_end hfetch]
        simp [recordsOf]
      · refine ⟨_, _, _, link', .refused (k := 0) (Nat.zero_le _) htwice hend', ?_⟩
        simp [walkPages, hfetch, recordsOf, resumeAfter]
  | cons p rest ih =>
      obtain ⟨fuel, rfl⟩ := Nat.exists_eq_add_one_of_ne_zero (show fuel ≠ 0 by omega)
      obtain ⟨link', hquiet', ⟨hfetch, hreceived⟩ | ⟨hfetch, htwice, hend'⟩⟩ :=
        fetch_honest hC hlock version cursor hquiet hend
      · rw [StoredLog.answer_of_cons hrest] at hfetch hreceived
        have hend' : ¬ReceivedEnd C chrono aesKey link' := by
          rw [hreceived]
          intro heq
          cases congrArg LogPage.next heq
        obtain ⟨pages, ending, resume, link'', hwent, hwalk⟩ := ih (.after p.sequence)
          (StoredLog.after_sequence hrest) (Nat.lt_of_succ_lt_succ hfuel) (some p.sequence)
          (StoredLog.last_after p) (records + p.records.length) hquiet' hend' (seen ++ p.records)
        refine ⟨p :: pages, ending, resume, link'', hwent.cons last, ?_⟩
        rw [walkPages_on hfetch (deliver_collect_none records p.records seen)
          (StoredLog.ne_last_of_after hrest hlast), hwalk]
        simp only [recordsOf, List.flatMap_cons, List.length_append, List.append_assoc, Nat.add_assoc]
      · refine ⟨_, _, _, link', .refused (k := 0) (Nat.zero_le _) htwice hend', ?_⟩
        simp [walkPages, hfetch, recordsOf, resumeAfter]

/-- The cursor a walk is resumed from: its own start, if it handed over no page. -/
def resumeCursor (start : LogCursor) : Option Sequence → LogCursor
  | some sequence => .after sequence
  | none => start

theorem resumeCursor_resumeAfter (start : LogCursor) (s : Sequence) (pages : List StoredPage) :
    resumeCursor start (resumeAfter (some s) pages) =
      resumeCursor (.after s) (resumeAfter none pages) := by
  unfold resumeAfter
  rcases pages.getLast? with _ | p <;> rfl

/-- What comes after the cursor to resume from is what was not handed over. -/
theorem after_resumeCursor (start : LogCursor) {rest : List StoredPage}
    (hrest : log.after start.value = rest) {k : Nat} (hk : k ≤ rest.length) :
    log.after (resumeCursor start (resumeAfter none (rest.take k))).value = rest.drop k := by
  induction k generalizing start rest with
  | zero => exact hrest
  | succ k ih =>
      cases rest with
      | nil => exact absurd hk (Nat.not_succ_le_zero k)
      | cons p rest =>
          have h := ih (.after p.sequence) (StoredLog.after_sequence hrest)
            (Nat.le_of_succ_le_succ hk)
          rw [List.take_succ_cons, List.drop_succ_cons, resumeAfter_cons, resumeCursor_resumeAfter, h]

theorem new_quiet : (LogLink.new fun _ => []).Quiet := ⟨rfl, rfl⟩

theorem not_receivedEnd_new :
    ¬ReceivedEnd C chrono aesKey (LogLink.new fun _ => []) := by
  rintro ⟨reply, hreply, -⟩
  cases hreply

/-- An honest lock that does not refuse is walked to the end. -/
theorem walkLog_honest (hC : C.Lawful) (hlock : Honest C chrono aesKey log lock)
    (version : LockVersion) (start : LogCursor) {fuel : Nat}
    (hfuel : (log.after start.value).length < fuel) :
    ∃ link, walkLog C chrono aesKey version lock (fun _ => []) start none fuel =
      some (.ok ⟨(recordsOf (log.after start.value)).length, .exhausted, none⟩, link,
        recordsOf (log.after start.value)) := by
  obtain ⟨pages, ending, resume, link, hwent, hwalk⟩ := walkPages_honest hC hlock.orRefusing version
    start rfl hfuel none (fun s hs => by cases hs) 0 new_quiet not_receivedEnd_new []
  cases hwent with
  | exhausted received =>
      rw [Nat.zero_add, List.nil_append] at hwalk
      exact ⟨link, hwalk⟩
  | refused le twice received =>
      obtain ⟨cursor, cursors, -, -, -, hrefusal, -⟩ := twice
      obtain ⟨response, hrefused⟩ := hrefusal.pageOf_eq chrono
      cases hrefused.symm.trans (hlock cursor cursors)

/-- **A walk loses and invents nothing.** It hands over the records of the first pages after its start,
    in order. It is exhausted iff these are all pages and the empty page has come. Otherwise the lock
    refused one cursor twice running, and a walk that is resumed from there, over the same log without
    refusals, hands over the records of the other pages. -/
theorem walk_loses_nothing (hC : C.Lawful) (hlock : HonestOrRefusing C chrono aesKey log lock)
    (version : LockVersion) (start : LogCursor) {fuel : Nat}
    (hfuel : (log.after start.value).length < fuel) :
    let rest := log.after start.value
    ∃ k walk link, k ≤ rest.length ∧
      walkLog C chrono aesKey version lock (fun _ => []) start none fuel =
        some (.ok walk, link, recordsOf (rest.take k)) ∧
      walk.records = (recordsOf (rest.take k)).length ∧
      (walk.ending = .exhausted ↔ k = rest.length ∧ ReceivedEnd C chrono aesKey link) ∧
      (walk.ending ≠ .exhausted → walk.ending = .refused ∧ RefusedTwice C aesKey lock link) ∧
      (walk.ending = .refused → ∀ lock', Honest C chrono aesKey log lock' →
        ∀ fuel', log.pages.length < fuel' → ∃ walk' link',
          walkLog C chrono aesKey version lock' (fun _ => []) (resumeCursor start walk.resumeFrom) none
            fuel' = some (.ok walk', link', recordsOf (rest.drop k)) ∧
          walk'.ending = .exhausted) := by
  intro rest
  obtain ⟨pages, ending, resume, link, hwent, hwalk⟩ := walkPages_honest hC hlock version start
    rfl hfuel none (fun s hs => by cases hs) 0 new_quiet not_receivedEnd_new []
  rw [Nat.zero_add, List.nil_append] at hwalk
  cases hwent with
  | exhausted received =>
      have hall : rest.take rest.length = rest := List.take_length
      refine ⟨rest.length, ⟨(recordsOf rest).length, .exhausted, none⟩, link, Nat.le_refl _, ?_, ?_, ?_⟩
      · rw [hall]
        exact hwalk
      · rw [hall]
      · exact ⟨iff_of_true rfl ⟨rfl, received⟩, fun h => absurd rfl h, fun h => by cases h⟩
  | @refused k _ le twice received =>
      refine ⟨k, _, link, le, hwalk, rfl, iff_of_false (fun h => by cases h) fun h => received h.2,
        fun _ => ⟨rfl, twice⟩, fun _ lock' hlock' fuel' hfuel' => ?_⟩
      obtain ⟨link', hagain⟩ := walkLog_honest hC hlock' version
        (resumeCursor start (resumeAfter none (rest.take k)))
        (Nat.lt_of_le_of_lt StoredLog.length_after_le hfuel')
      rw [after_resumeCursor start rfl le] at hagain
      exact ⟨_, link', hagain, rfl⟩

/-! ## A log of one page -/

/-- Every date and time that occurs here exists. -/
def sampleChrono : Chrono := ⟨fun _ _ _ => true, fun _ _ _ => true⟩

/-- A reply with a page of records with these codes. -/
def samplePage (sequence : UInt8) (codes : List UInt8) : List UInt8 :=
  sampleReply ([COMM_GET_OPERATE_LOG, 1, 0, UInt8.ofNat (2 + 9 * codes.length), 0, sequence] ++
    codes.flatMap fun code => [8, code, 26, 7, 30, 11, 59, 46, 62])

def sampleEnd : List UInt8 := sampleReply [COMM_GET_OPERATE_LOG, 1, 0, 0]

def sampleRefusal : List UInt8 := sampleReply [COMM_GET_OPERATE_LOG, 0, 1]

def sampleRecord (sequence : Sequence) (code : UInt8) : LogRecord :=
  { sequence, code, atTime := ⟨2026, 7, 30, 11, 59, 46⟩, battery := ⟨62, by decide⟩, tail := [] }

def sampleStored : StoredPage :=
  { sequence := ⟨10, by decide⟩, positive := by decide
    records := [sampleRecord ⟨10, by decide⟩ 47], nonempty := by simp }

def sampleLog : StoredLog := { pages := [sampleStored], increasing := List.pairwise_singleton _ _ }

theorem pageOf_samplePage :
    pageOf aes128Cbc sampleChrono sampleKey (samplePage 10 [47]) = .ok sampleStored.page := by
  decide +kernel

theorem pageOf_sampleEnd : pageOf aes128Cbc sampleChrono sampleKey sampleEnd = .ok .endOfLog := by
  decide +kernel

/-- A lock that refuses the first request. -/
def sampleLock (cursors : List UInt16) : List UInt8 :=
  if cursors.length = 1 then sampleRefusal
  else if cursors.headD 0 < 10 then samplePage 10 [47]
  else sampleEnd

theorem sampleLog_answer (cursor : UInt16) :
    sampleLog.answer cursor = if cursor < 10 then sampleStored.page else .endOfLog := by
  have hfind : (sampleLog.pages.find? fun p => decide (cursor < p.sequence.get)) =
      if cursor < 10 then some sampleStored else none := by
    show [sampleStored].find? (fun p => decide (cursor < p.sequence.get)) = _
    rw [List.find?_cons]
    by_cases h : cursor < 10
    · rw [if_pos h, show decide (cursor < sampleStored.sequence.get) = true from decide_eq_true h]
    · rw [if_neg h, show decide (cursor < sampleStored.sequence.get) = false from decide_eq_false h]
      rfl
  rw [StoredLog.answer, hfind]
  by_cases h : cursor < 10
  · simp only [if_pos h]
  · simp only [if_neg h]

theorem sampleLock_honestOrRefusing :
    HonestOrRefusing aes128Cbc sampleChrono sampleKey sampleLog sampleLock := by
  intro cursor cursors
  rw [sampleLog_answer, sampleLock]
  split
  · right
    exact ⟨⟨COMM_GET_OPERATE_LOG, 0, [1]⟩, by decide +kernel, rfl, by decide⟩
  · left
    show pageOf _ _ _ (if cursor < 10 then samplePage 10 [47] else sampleEnd) = _
    split
    · exact pageOf_samplePage
    · exact pageOf_sampleEnd

/-- A refusal at the beginning is retried. -/
theorem walk_loses_nothing_retried :
    ∃ k walk link, k ≤ 1 ∧
      walkLog aes128Cbc sampleChrono sampleKey .default sampleLock (fun _ => []) .beginning none 2 =
        some (.ok walk, link, recordsOf ([sampleStored].take k)) ∧
      (walk.ending = .exhausted ↔ k = 1 ∧ ReceivedEnd aes128Cbc sampleChrono sampleKey link) := by
  obtain ⟨k, walk, link, hk, hwalk, -, hend, -, -⟩ :=
    walk_loses_nothing aes128Cbc_lawful sampleLock_honestOrRefusing .default .beginning
      (show (sampleLog.after LogCursor.beginning.value).length < 2 by decide)
  exact ⟨k, walk, link, hk, hwalk, hend⟩

end Oplog

end TTLock
