import TTLock.Cli.Proofs.Walk

set_option autoImplicit false

/-! # Reading what is new

A lock whose log grows while it is read, and that keeps a bookmark for reads since the last one. Such a
read answers with the page behind the bookmark and moves the bookmark to it; but a walk that began so
goes on by sequence, which leaves the bookmark at its first page. A second walk therefore begins with
the second page of the first, if there was one (`since_last_read_apart_iff`). -/

namespace TTLock

/-! ## A lock that keeps a bookmark -/

/-- What such a lock holds when a request arrives, by the number of requests before it. Pages are only
    ever added at the end, and every record of a page has its sequence. -/
structure BookmarkedLog where
  store : Nat → StoredLog
  grows : ∀ n, (store n).pages <+: (store (n + 1)).pages
  own : ∀ n, ∀ p ∈ (store n).pages, ∀ r ∈ p.records, r.sequence = p.sequence
  bookmark : UInt16

namespace BookmarkedLog

variable (self : BookmarkedLog)

/-- Where the bookmark is after these requests, the last of them first. -/
def bookmarkAfter : List UInt16 → UInt16
  | [] => self.bookmark
  | cursor :: cursors =>
      if cursor = Sequence.SENTINEL then
        match (self.store cursors.length).after (bookmarkAfter cursors) with
        | [] => bookmarkAfter cursors
        | p :: _ => p.sequence.get
      else bookmarkAfter cursors

/-- What the lock answers to a request after others. -/
def answer (cursor : UInt16) (cursors : List UInt16) : LogPage :=
  if cursor = Sequence.SENTINEL then
    (self.store cursors.length).answer (self.bookmarkAfter cursors)
  else (self.store cursors.length).answer cursor

/-- The lock keeps this log. -/
def KeptBy (C : Cipher) (chrono : Chrono) (aesKey : AesKey) (lock : List UInt16 → List UInt8) : Prop :=
  ∀ cursor cursors, pageOf C chrono aesKey (lock (cursor :: cursors)) = .ok (self.answer cursor cursors)

variable {self} {m n : Nat} {cursor : UInt16} {p : StoredPage} {rest : List StoredPage}

theorem grows_le (h : m ≤ n) : (self.store m).pages <+: (self.store n).pages := by
  induction n, h using Nat.le_induction with
  | base => exact List.prefix_rfl
  | succ n _ ih => exact ih.trans (self.grows n)

/-- What comes after a cursor goes on coming first. -/
theorem after_grows (h : m ≤ n) (cursor : UInt16) :
    (self.store m).after cursor <+: (self.store n).after cursor :=
  (grows_le h).filter _

theorem after_grows_cons (h : m ≤ n) (hafter : (self.store m).after cursor = p :: rest) :
    ∃ rest', (self.store n).after cursor = p :: rest' := by
  obtain ⟨more, hmore⟩ := after_grows h cursor
  rw [hafter] at hmore
  exact ⟨rest ++ more, hmore.symm⟩

theorem mem_of_after (h : (self.store n).after cursor = p :: rest) : p ∈ (self.store n).pages :=
  List.mem_of_mem_filter (h ▸ List.mem_cons_self : p ∈ (self.store n).after cursor)

theorem KeptBy.serves {C : Cipher} {chrono : Chrono} {aesKey : AesKey} {lock : List UInt16 → List UInt8}
    (h : self.KeptBy C chrono aesKey lock) : Oplog.Serves C chrono aesKey lock :=
  fun cursor cursors => .inl ⟨_, h cursor cursors⟩

/-! ## What a walk gathers -/

/-- The pages that are found one after the other, each by a request of its own, until there is none. -/
inductive Gathers (self : BookmarkedLog) : Nat → UInt16 → List StoredPage → Prop where
  | nil {n : Nat} {cursor : UInt16} (h : (self.store n).after cursor = []) : Gathers self n cursor []
  | cons {n : Nat} {cursor : UInt16} {p : StoredPage} {rest pages : List StoredPage}
      (h : (self.store n).after cursor = p :: rest)
      (hpages : Gathers self (n + 1) p.sequence.get pages) : Gathers self n cursor (p :: pages)

variable {pages : List StoredPage}

theorem Gathers.lt (h : Gathers self n cursor pages) : ∀ q ∈ pages, cursor < q.sequence.get := by
  induction h with
  | nil _ => exact fun q hq => absurd hq List.not_mem_nil
  | cons hafter _ ih =>
      have hlt := StoredLog.lt_of_after hafter
      exact List.forall_mem_cons.2 ⟨hlt, fun q hq => UInt16.lt_trans hlt (ih q hq)⟩

theorem Gathers.own (h : Gathers self n cursor pages) :
    ∀ q ∈ pages, ∀ r ∈ q.records, r.sequence = q.sequence := by
  induction h with
  | nil _ => exact fun q hq => absurd hq List.not_mem_nil
  | cons hafter _ ih => exact List.forall_mem_cons.2 ⟨self.own _ _ (mem_of_after hafter), ih⟩

/-- A record that was gathered is newer than the cursor. -/
theorem Gathers.record_lt (h : Gathers self n cursor pages) {r : LogRecord}
    (hr : r ∈ Oplog.recordsOf pages) : cursor < r.sequence.get := by
  obtain ⟨q, hq, hrq⟩ := List.mem_flatMap.1 hr
  rw [h.own q hq r hrq]
  exact h.lt q hq

/-- What the lock holds is no newer than a cursor behind which there is nothing. -/
theorem record_le (h : (self.store n).after cursor = []) {r : LogRecord}
    (hr : r ∈ Oplog.recordsOf (self.store n).pages) : r.sequence.get ≤ cursor := by
  obtain ⟨q, hq, hrq⟩ := List.mem_flatMap.1 hr
  rw [self.own n q hq r hrq]
  have hnot := List.filter_eq_nil_iff.1 h q hq
  exact UInt16.not_lt.1 (by simpa using hnot)

theorem Gathers.head_mem (h : Gathers self n cursor pages)
    (hafter : (self.store n).after cursor = p :: rest) : p ∈ pages := by
  cases h with
  | nil hnil => cases hnil.symm.trans hafter
  | cons hcons _ =>
      obtain rfl := (List.cons.inj (hcons.symm.trans hafter)).1
      exact List.mem_cons_self

end BookmarkedLog

/-! ## The walk over such a log -/

namespace Oplog

open LogLink BookmarkedLog

variable {C : Cipher} {chrono : Chrono} {aesKey : AesKey} {log : BookmarkedLog}
  {lock : List UInt16 → List UInt8}

/-- One request by sequence leaves the bookmark where it is. -/
theorem bookmarkAfter_cons_of_ne {cursor : UInt16} (h : cursor ≠ Sequence.SENTINEL)
    (cursors : List UInt16) : log.bookmarkAfter (cursor :: cursors) = log.bookmarkAfter cursors := by
  rw [bookmarkAfter, if_neg h]

theorem bookmarkAfter_sentinel_nil {cursors : List UInt16}
    (h : (log.store cursors.length).after (log.bookmarkAfter cursors) = []) :
    log.bookmarkAfter (Sequence.SENTINEL :: cursors) = log.bookmarkAfter cursors := by
  rw [bookmarkAfter, if_pos rfl, h]

theorem bookmarkAfter_sentinel_cons {cursors : List UInt16} {p : StoredPage} {rest : List StoredPage}
    (h : (log.store cursors.length).after (log.bookmarkAfter cursors) = p :: rest) :
    log.bookmarkAfter (Sequence.SENTINEL :: cursors) = p.sequence.get := by
  rw [bookmarkAfter, if_pos rfl, h]

/-- **A walk by sequence** gathers what comes after its cursor. Every page brings the cursor nearer to the
    last sequence there can be, so that the walk ends even while the log grows. -/
theorem walkPages_gathers (hC : C.Lawful) (hlock : log.KeptBy C chrono aesKey lock)
    (version : LockVersion) {fuel : Nat} (cursor : LogCursor) (hne : cursor.value ≠ Sequence.SENTINEL)
    (hfuel : 65536 ≤ fuel + cursor.value.toNat) (last : Option Sequence)
    (hlast : ∀ s, last = some s → s.get ≤ cursor.value) (records : Nat) {link : LogLink}
    (hquiet : link.Quiet) (seen : List LogRecord) :
    ∃ pages link', log.Gathers link.cursors.length cursor.value pages ∧
      walkPages collect none (quietFetch C chrono aesKey version lock) fuel cursor last records link seen =
        some (.ok ⟨records + (recordsOf pages).length, .exhausted, none⟩, link', seen ++ recordsOf pages) ∧
      link'.Quiet ∧ link'.cursors.length = link.cursors.length + pages.length + 1 ∧
      log.bookmarkAfter link'.cursors = log.bookmarkAfter link.cursors := by
  induction fuel generalizing cursor last records link seen with
  | zero =>
      have := cursor.value.toNat_lt
      omega
  | succ fuel ih =>
      have hpage := hlock cursor.value link.cursors
      rw [answer, if_neg hne] at hpage
      have hbookmark : log.bookmarkAfter (cursor.value :: link.cursors) =
          log.bookmarkAfter link.cursors := bookmarkAfter_cons_of_ne hne _
      rcases hafter : (log.store link.cursors.length).after cursor.value with _ | ⟨p, rest⟩
      · rw [StoredLog.answer_of_nil hafter] at hpage
        have hfetch := fetchPage_page hC hlock.serves version cursor hquiet hpage
        refine ⟨[], link.asked lock cursor.value, .nil hafter, ?_, hquiet.asked _, rfl, hbookmark⟩
        rw [walkPages_end hfetch]
        simp [recordsOf]
      · rw [StoredLog.answer_of_cons hafter] at hpage
        have hfetch := fetchPage_page hC hlock.serves version cursor hquiet hpage
        have hlt := UInt16.lt_iff_toNat_lt.1 (StoredLog.lt_of_after hafter)
        obtain ⟨pages, link', hpages, hwalk, hquiet', hlength, hmark⟩ := ih (.after p.sequence)
          p.sequence.ne_sentinel (show 65536 ≤ fuel + p.sequence.get.toNat by omega) (some p.sequence)
          (StoredLog.last_after p) (records + p.records.length) (hquiet.asked cursor.value)
          (seen ++ p.records)
        refine ⟨p :: pages, link', .cons hafter hpages, ?_, hquiet', ?_, hmark.trans hbookmark⟩
        · rw [walkPages_on hfetch (deliver_collect_none records p.records seen)
            (StoredLog.ne_last_of_after hafter hlast), hwalk]
          simp only [recordsOf, List.flatMap_cons, List.length_append, List.append_assoc, Nat.add_assoc]
        · rw [hlength, List.length_cons]
          show link.cursors.length + 1 + pages.length + 1 = _
          omega

/-- **A walk since the last read** gathers what comes after the bookmark, and leaves the bookmark at its
    first page. -/
theorem walk_sinceLastRead (hC : C.Lawful) (hlock : log.KeptBy C chrono aesKey lock)
    (version : LockVersion) {fuel : Nat} (hfuel : 65536 < fuel) {link : LogLink} (hquiet : link.Quiet) :
    ∃ pages link', log.Gathers link.cursors.length (log.bookmarkAfter link.cursors) pages ∧
      walk C chrono (transport C aesKey lock fun _ => []) aesKey version .sinceLastRead none collect fuel
        link [] = some (.ok ⟨(recordsOf pages).length, .exhausted, none⟩, link', recordsOf pages) ∧
      link'.Quiet ∧ link'.cursors.length = link.cursors.length + pages.length + 1 ∧
      log.bookmarkAfter link'.cursors =
        (pages.head?.map fun p => p.sequence.get).getD (log.bookmarkAfter link.cursors) := by
  obtain ⟨fuel, rfl⟩ := Nat.exists_eq_add_one_of_ne_zero (show fuel ≠ 0 by omega)
  show ∃ pages link', _ ∧ walkPages collect none (quietFetch C chrono aesKey version lock) (fuel + 1)
    .sinceLastRead none 0 link [] = _ ∧ _
  have hpage := hlock Sequence.SENTINEL link.cursors
  rw [answer, if_pos rfl] at hpage
  rcases hafter : (log.store link.cursors.length).after (log.bookmarkAfter link.cursors) with
    _ | ⟨p, rest⟩
  · rw [StoredLog.answer_of_nil hafter] at hpage
    have hfetch := fetchPage_page hC hlock.serves version .sinceLastRead hquiet hpage
    exact ⟨[], link.asked lock Sequence.SENTINEL, .nil hafter, walkPages_end hfetch fuel,
      hquiet.asked _, rfl, bookmarkAfter_sentinel_nil hafter⟩
  · rw [StoredLog.answer_of_cons hafter] at hpage
    have hfetch := fetchPage_page hC hlock.serves version .sinceLastRead hquiet hpage
    have hasked : (link.asked lock Sequence.SENTINEL).Quiet := hquiet.asked _
    obtain ⟨pages, link', hpages, hwalk, hquiet', hlength, hmark⟩ :=
      walkPages_gathers hC hlock version (.after p.sequence) p.sequence.ne_sentinel
        (show 65536 ≤ fuel + p.sequence.get.toNat by omega) (some p.sequence) (StoredLog.last_after p)
        (0 + p.records.length) hasked ([] ++ p.records)
    refine ⟨p :: pages, link', .cons hafter hpages, ?_, hquiet', ?_, ?_⟩
    · rw [walkPages_on hfetch (deliver_collect_none 0 p.records []) (by simp)]
      refine hwalk.trans ?_
      simp only [recordsOf, List.flatMap_cons, List.length_append, List.nil_append, Nat.zero_add]
    · rw [hlength, List.length_cons]
      show link.cursors.length + 1 + pages.length + 1 = _
      omega
    · exact hmark.trans (bookmarkAfter_sentinel_cons hafter)

/-- Two walks since the last read, one after the other: both come to the end of the log, and the second
    hands over nothing that was there at the last request of the first, nor anything that the first
    handed over. -/
def ReadsApart (C : Cipher) (chrono : Chrono) (aesKey : AesKey) (version : LockVersion)
    (log : BookmarkedLog) (lock : List UInt16 → List UInt8) (fuel : Nat) : Prop :=
  ∃ first link seen second link' seen',
    walkLog C chrono aesKey version lock (fun _ => []) .sinceLastRead none fuel =
      some (.ok first, link, seen) ∧ first.ending = .exhausted ∧
    walk C chrono (transport C aesKey lock fun _ => []) aesKey version .sinceLastRead none collect fuel
      link [] = some (.ok second, link', seen') ∧
    ∀ r ∈ seen', r ∉ recordsOf (log.store (link.cursors.length - 1)).pages ∧ r ∉ seen

/-- The two walks are apart if what they gather is. -/
theorem readsApart_iff_gathered (hC : C.Lawful) (hlock : log.KeptBy C chrono aesKey lock)
    (version : LockVersion) {fuel : Nat} (hfuel : 65536 < fuel) :
    ∃ pages pages', log.Gathers 0 log.bookmark pages ∧
      log.Gathers (pages.length + 1) ((pages.head?.map fun p => p.sequence.get).getD log.bookmark) pages' ∧
      (ReadsApart C chrono aesKey version log lock fuel ↔ ∀ r ∈ recordsOf pages',
        r ∉ recordsOf (log.store pages.length).pages ∧ r ∉ recordsOf pages) := by
  obtain ⟨pages, link, hpages, hfirst, hquiet, hlength, hmark⟩ :=
    walk_sinceLastRead hC hlock version hfuel new_quiet
  obtain ⟨pages', link', hpages', hsecond, -, -, -⟩ :=
    walk_sinceLastRead hC hlock version hfuel hquiet
  have hrequests : link.cursors.length = pages.length + 1 := by
    rw [hlength]
    show 0 + pages.length + 1 = _
    omega
  rw [hmark, hrequests] at hpages'
  refine ⟨pages, pages', hpages, hpages', ?_⟩
  constructor
  · rintro ⟨first, link₁, seen, second, link₂, seen', hwalk, -, hwalk', hapart⟩
    cases hfirst.symm.trans hwalk
    cases hsecond.symm.trans hwalk'
    rw [hrequests] at hapart
    exact hapart
  · intro hapart
    refine ⟨_, _, _, _, _, _, hfirst, rfl, hsecond, ?_⟩
    rw [hrequests]
    exact hapart

/-- **Reads since the last one are apart** iff the first of them finds at most one page. -/
theorem since_last_read_apart_iff (hC : C.Lawful) (hlock : log.KeptBy C chrono aesKey lock)
    (version : LockVersion) {fuel : Nat} (hfuel : 65536 < fuel) :
    ReadsApart C chrono aesKey version log lock fuel ↔
      (log.store 0).after log.bookmark = [] ∨ ((log.store 1).after log.bookmark).length ≤ 1 := by
  obtain ⟨pages, pages', hpages, hpages', hiff⟩ := readsApart_iff_gathered hC hlock version hfuel
  rw [hiff]
  cases hpages with
  | nil hnil =>
      refine iff_of_true (fun r hr => ⟨fun hold => ?_, List.not_mem_nil⟩) (.inl hnil)
      exact absurd (UInt16.lt_of_lt_of_le (hpages'.record_lt hr) (record_le hnil hold)) (UInt16.lt_irrefl _)
  | @cons _ _ p rest pages hfirst hmore =>
      obtain ⟨rest', hrest'⟩ := after_grows_cons (Nat.zero_le 1) hfirst
      have hbehind := StoredLog.after_sequence hrest'
      cases hmore with
      | nil hnil =>
          have hone : rest' = [] := hbehind.symm.trans hnil
          refine iff_of_true (fun r hr => ⟨fun hold => ?_, fun hold => ?_⟩) (.inr ?_)
          · exact absurd (UInt16.lt_of_lt_of_le (hpages'.record_lt hr) (record_le hnil hold))
              (UInt16.lt_irrefl _)
          · have hsame : r.sequence = p.sequence :=
              log.own 0 p (mem_of_after hfirst) r (by simpa [recordsOf] using hold)
            have hlt := hpages'.record_lt hr
            rw [hsame] at hlt
            exact absurd hlt (UInt16.lt_irrefl _)
          · rw [hrest', hone]
            exact Nat.le_refl 1
      | @cons _ _ q _ more hsecond hmore =>
          -- the bookmark is at the first page: the second is read again
          obtain ⟨rest'', hagain⟩ := after_grows_cons (Nat.le_add_left 1 (p :: q :: more).length) hsecond
          have hq : q ∈ pages' := hpages'.head_mem hagain
          obtain ⟨r, hr⟩ := List.exists_mem_of_ne_nil q.records q.nonempty
          refine iff_of_false (fun hapart => ?_) ?_
          · exact (hapart r (List.mem_flatMap.2 ⟨q, hq, hr⟩)).2
              (List.mem_flatMap.2 ⟨q, List.mem_cons_of_mem _ List.mem_cons_self, hr⟩)
          · rintro (hnone | hone)
            · cases hnone.symm.trans hfirst
            · rw [hrest', hbehind.symm.trans hsecond] at hone
              simp only [List.length_cons] at hone
              omega

/-! ## A log of one page, and of two -/

/-- The page after the only page of `sampleLog`. -/
def sampleNext : StoredPage :=
  { sequence := ⟨11, by decide⟩, positive := by decide
    records := [sampleRecord ⟨11, by decide⟩ 20], nonempty := by simp }

/-- A log that does not grow, read for the first time. -/
def unread (log : StoredLog) (own : ∀ p ∈ log.pages, ∀ r ∈ p.records, r.sequence = p.sequence) :
    BookmarkedLog where
  store _ := log
  grows _ := List.prefix_rfl
  own _ := own
  bookmark := 0

def onePage : BookmarkedLog := unread sampleLog (by decide)

def twoPages : BookmarkedLog :=
  unread { pages := [sampleStored, sampleNext], increasing := by decide } (by decide)

/-- The reply with one of the two pages, or with the empty one. -/
def sampleReplyOf (page : LogPage) : List UInt8 :=
  if page = sampleStored.page then samplePage 10 [47]
  else if page = sampleNext.page then samplePage 11 [20]
  else sampleEnd

def sampleKeeper (log : BookmarkedLog) : List UInt16 → List UInt8
  | [] => []
  | cursor :: cursors => sampleReplyOf (log.answer cursor cursors)

theorem sampleKeeper_keeps {log : BookmarkedLog}
    (h : ∀ n, ∀ p ∈ (log.store n).pages, p.page = sampleStored.page ∨ p.page = sampleNext.page) :
    log.KeptBy aes128Cbc sampleChrono sampleKey (sampleKeeper log) := by
  intro cursor cursors
  have hanswer : ∀ n c, (log.store n).answer c = sampleStored.page ∨
      (log.store n).answer c = sampleNext.page ∨ (log.store n).answer c = .endOfLog := by
    intro n c
    rw [StoredLog.answer]
    split
    · next p hp =>
        rcases h n p (List.mem_of_find?_eq_some hp) with hpage | hpage
        · exact .inl hpage
        · exact .inr (.inl hpage)
    · exact .inr (.inr rfl)
  have hcases : log.answer cursor cursors = sampleStored.page ∨
      log.answer cursor cursors = sampleNext.page ∨ log.answer cursor cursors = .endOfLog := by
    rw [BookmarkedLog.answer]
    split
    · exact hanswer _ _
    · exact hanswer _ _
  show pageOf _ _ _ (sampleReplyOf (log.answer cursor cursors)) = _
  rcases hcases with hpage | hpage | hpage <;> rw [hpage]
  · exact pageOf_samplePage
  · decide +kernel
  · exact pageOf_sampleEnd

theorem one_page_apart :
    ReadsApart aes128Cbc sampleChrono sampleKey .default onePage (sampleKeeper onePage) 65537 :=
  (since_last_read_apart_iff aes128Cbc_lawful
    (sampleKeeper_keeps fun _ p hp => .inl (congrArg StoredPage.page (List.mem_singleton.1 hp))) .default
    (by decide)).2 (.inr (by decide))

/-- What the two walks hand over. -/
def readTwice (lock : List UInt16 → List UInt8) (fuel : Nat) :
    Option (List LogRecord × List LogRecord) :=
  match walkLog aes128Cbc sampleChrono sampleKey .default lock (fun _ => []) .sinceLastRead none fuel with
  | none => none
  | some (_, link, seen) =>
      (walk aes128Cbc sampleChrono (transport aes128Cbc sampleKey lock fun _ => []) sampleKey .default
        .sinceLastRead none collect fuel link []).map fun (_, _, seen') => (seen, seen')

/-- Of two pages the second is read twice, though nothing was added. -/
theorem two_pages_overlap :
    twoPages.KeptBy aes128Cbc sampleChrono sampleKey (sampleKeeper twoPages) ∧
    readTwice (sampleKeeper twoPages) 4 =
      some ([sampleRecord ⟨10, by decide⟩ 47, sampleRecord ⟨11, by decide⟩ 20],
        [sampleRecord ⟨11, by decide⟩ 20]) ∧
    ¬ReadsApart aes128Cbc sampleChrono sampleKey .default twoPages (sampleKeeper twoPages) 4 := by
  have hread : readTwice (sampleKeeper twoPages) 4 =
      some ([sampleRecord ⟨10, by decide⟩ 47, sampleRecord ⟨11, by decide⟩ 20],
        [sampleRecord ⟨11, by decide⟩ 20]) := by
    decide +kernel
  refine ⟨sampleKeeper_keeps fun _ p hp => ?_, hread, ?_⟩
  · rcases List.mem_pair.1 hp with rfl | rfl
    · exact .inl rfl
    · exact .inr rfl
  · rintro ⟨first, link, seen, second, link', seen', hfirst, -, hsecond, hapart⟩
    rw [readTwice, hfirst] at hread
    dsimp only at hread
    rw [hsecond] at hread
    cases hread
    exact (hapart _ List.mem_cons_self).2 (List.mem_cons_of_mem _ List.mem_cons_self)

end Oplog

end TTLock
