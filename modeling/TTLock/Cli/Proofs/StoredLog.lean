import TTLock.Cli.Proofs.LogLink

set_option autoImplicit false

/-! # What a lock's log holds

The log as a list of pages in the order of their sequences, and what an honest lock makes of a cursor:
the first page after it, or the empty page. Over a link that nothing disturbs a fetch is that answer,
unless the lock refuses twice (`fetchPage_page`, `fetchPage_retried`, `fetchPage_refused`). -/

namespace TTLock

/-- A page that is stored. -/
structure StoredPage where
  sequence : Sequence
  positive : 0 < sequence.get
  records : List LogRecord
  nonempty : records ≠ []

/-- What is stored, with increasing sequences. -/
structure StoredLog where
  pages : List StoredPage
  increasing : pages.Pairwise fun p q => p.sequence.get < q.sequence.get

namespace StoredPage

def page (self : StoredPage) : LogPage := { records := self.records, next := some self.sequence }

end StoredPage

/-- The page that says that there is nothing more. -/
def LogPage.endOfLog : LogPage := { records := [], next := none }

namespace StoredLog

/-- The pages after a cursor. -/
def after (self : StoredLog) (cursor : UInt16) : List StoredPage :=
  self.pages.filter fun p => cursor < p.sequence.get

/-- What an honest lock answers. -/
def answer (self : StoredLog) (cursor : UInt16) : LogPage :=
  match self.pages.find? fun p => cursor < p.sequence.get with
  | some p => p.page
  | none => .endOfLog

variable {log : StoredLog} {cursor : UInt16} {p : StoredPage} {rest : List StoredPage}

theorem answer_of_nil (h : log.after cursor = []) : log.answer cursor = .endOfLog := by
  have hnone : (log.pages.find? fun p => decide (cursor < p.sequence.get)) = none := by
    rw [← List.head?_filter]
    exact congrArg List.head? h
  rw [answer, hnone]

theorem answer_of_cons (h : log.after cursor = p :: rest) : log.answer cursor = p.page := by
  have hsome : (log.pages.find? fun p => decide (cursor < p.sequence.get)) = some p := by
    rw [← List.head?_filter]
    exact congrArg List.head? h
  rw [answer, hsome]

theorem lt_of_after (h : log.after cursor = p :: rest) : cursor < p.sequence.get := by
  have hp : p ∈ log.after cursor := h ▸ List.mem_cons_self
  simpa using (List.mem_filter.1 hp).2

/-- After a page come the pages that came after it. -/
theorem after_sequence (h : log.after cursor = p :: rest) : log.after p.sequence.get = rest := by
  have hlt := lt_of_after h
  have hpairwise : (p :: rest).Pairwise fun p q => p.sequence.get < q.sequence.get :=
    h ▸ log.increasing.filter _
  -- what comes after the page also comes after the cursor
  have hafter : log.after p.sequence.get =
      (log.after cursor).filter fun q => p.sequence.get < q.sequence.get := by
    rw [after, after, List.filter_filter]
    refine List.filter_congr fun q _ => ?_
    have hboth : p.sequence.get < q.sequence.get ↔
        p.sequence.get < q.sequence.get ∧ cursor < q.sequence.get :=
      ⟨fun hq => ⟨hq, UInt16.lt_trans hlt hq⟩, fun hq => hq.1⟩
    rw [← Bool.decide_and]
    exact decide_eq_decide.2 hboth
  rw [hafter, h, List.filter_cons_of_neg (by simp), List.filter_eq_self]
  intro q hq
  simpa using (List.pairwise_cons.1 hpairwise).1 q hq

theorem length_after_le : (log.after cursor).length ≤ log.pages.length := List.length_filter_le _ _

/-- A page after the cursor is not the one the cursor came from. -/
theorem ne_last_of_after {cursor : LogCursor} (h : log.after cursor.value = p :: rest)
    {last : Option Sequence} (hlast : ∀ s, last = some s → s.get ≤ cursor.value) :
    last ≠ some p.sequence := by
  intro heq
  exact absurd (UInt16.lt_of_lt_of_le (lt_of_after h) (hlast _ heq)) (UInt16.lt_irrefl _)

/-- The cursor after a page comes from that page. -/
theorem last_after (p : StoredPage) (s : Sequence) (h : some p.sequence = some s) :
    s.get ≤ (LogCursor.after p.sequence).value := by
  obtain rfl := Option.some.inj h
  exact UInt16.le_refl _

/-- Everything comes after the beginning. -/
theorem after_zero (log : StoredLog) : log.after 0 = log.pages := by
  rw [after, List.filter_eq_self]
  intro p _
  simpa using p.positive

end StoredLog

/-! ## Fetching over a link that nothing disturbs -/

/-- Nothing is in flight and nothing is to happen. -/
structure LogLink.Quiet (link : LogLink) : Prop where
  inFlight : link.inFlight = []
  coming : link.coming = []

/-- A quiet link after one more request was answered. -/
def LogLink.asked (lock : List UInt16 → List UInt8) (cursor : UInt16) (link : LogLink) : LogLink :=
  { link with
    cursors := cursor :: link.cursors
    step := link.step + 1
    answered := link.answered ++ [(cursor, lock (cursor :: link.cursors))] }

theorem LogLink.Quiet.asked {lock : List UInt16 → List UInt8} {link : LogLink} (h : link.Quiet)
    (cursor : UInt16) : (link.asked lock cursor).Quiet := ⟨h.inFlight, h.coming⟩

namespace Oplog

open LogLink

variable {C : Cipher} {chrono : Chrono} {aesKey : AesKey} {lock : List UInt16 → List UInt8}

/-- Every request is answered. -/
def Serves (C : Cipher) (chrono : Chrono) (aesKey : AesKey) (lock : List UInt16 → List UInt8) : Prop :=
  ∀ cursor cursors, Replies C chrono aesKey (lock (cursor :: cursors))

/-- What a fetch reads from, with nothing that disturbs it. -/
def quietFetch (C : Cipher) (chrono : Chrono) (aesKey : AesKey) (version : LockVersion)
    (lock : List UInt16 → List UInt8) :
    LogCursor → LogLink → Option (Except CliError (Option LogPage) × LogLink) :=
  fetchPage C chrono (transport C aesKey lock fun _ => []) aesKey version

theorem readPage_quiet (hC : C.Lawful) (hlock : Serves C chrono aesKey lock) (version : LockVersion)
    (cursor : LogCursor) {link : LogLink} (hquiet : link.Quiet) :
    readPage C chrono (transport C aesKey lock fun _ => []) aesKey version cursor link =
      some ((pageOf C chrono aesKey (lock (cursor.value :: link.cursors))).mapError .core,
        link.asked lock cursor.value) := by
  obtain ⟨cursors, inFlight, step, coming, answered⟩ := link
  obtain ⟨rfl, rfl⟩ : inFlight = [] ∧ coming = [] := ⟨hquiet.inFlight, hquiet.coming⟩
  have hbear : Bearable C aesKey [] :=
    ⟨fun d hd => absurd hd List.not_mem_nil, Nat.zero_le _, Nat.zero_le _⟩
  exact readPage_disturbed hC (fun cursor cursors => (hlock cursor cursors).intact) (fun _ => []) version
    cursor hbear (fun r hr => absurd hr List.not_mem_nil) rfl (hlock _ _)

section

variable (hC : C.Lawful) (hlock : Serves C chrono aesKey lock) (version : LockVersion)
  (cursor : LogCursor) {link : LogLink} (hquiet : link.Quiet)

include hC hlock hquiet

/-- The lock answers with a page. -/
theorem fetchPage_page {page : LogPage}
    (h : pageOf C chrono aesKey (lock (cursor.value :: link.cursors)) = .ok page) :
    quietFetch C chrono aesKey version lock cursor link =
      some (.ok (some page), link.asked lock cursor.value) := by
  rw [quietFetch, fetchPage, readPage_quiet hC hlock version cursor hquiet, h]
  rfl

/-- It refuses once. -/
theorem fetchPage_retried {page : LogPage}
    (hrefusal : Refusal C aesKey (lock (cursor.value :: link.cursors)))
    (h : pageOf C chrono aesKey (lock (cursor.value :: cursor.value :: link.cursors)) = .ok page) :
    quietFetch C chrono aesKey version lock cursor link =
      some (.ok (some page), (link.asked lock cursor.value).asked lock cursor.value) := by
  obtain ⟨response, hpage⟩ := hrefusal.pageOf_eq chrono
  rw [quietFetch, fetchPage, readPage_quiet hC hlock version cursor hquiet, hpage]
  dsimp only [Except.mapError]
  rw [readPage_quiet hC hlock version cursor (hquiet.asked cursor.value),
    show (link.asked lock cursor.value).cursors = cursor.value :: link.cursors from rfl, h]
  rfl

/-- It refuses twice. -/
theorem fetchPage_refused
    (hrefusal : Refusal C aesKey (lock (cursor.value :: link.cursors)))
    (hagain : Refusal C aesKey (lock (cursor.value :: cursor.value :: link.cursors))) :
    quietFetch C chrono aesKey version lock cursor link =
      some (.ok none, (link.asked lock cursor.value).asked lock cursor.value) := by
  obtain ⟨response, hpage⟩ := hrefusal.pageOf_eq chrono
  obtain ⟨response', hpage'⟩ := hagain.pageOf_eq chrono
  rw [quietFetch, fetchPage, readPage_quiet hC hlock version cursor hquiet, hpage]
  dsimp only [Except.mapError]
  rw [readPage_quiet hC hlock version cursor (hquiet.asked cursor.value),
    show (link.asked lock cursor.value).cursors = cursor.value :: link.cursors from rfl, hpage']
  rfl

end

/-! ## The records of a page -/

/-- Without a limit, all records of a page are handed over. -/
theorem deliver_collect_none (records : Nat) (rs seen : List LogRecord) :
    deliver collect none records rs seen = (.ok (records + rs.length, false), seen ++ rs) := by
  induction rs generalizing records seen with
  | nil => simp [deliver]
  | cons r rs ih =>
      simp only [deliver, collect, Option.any_none, Bool.false_eq_true, if_false, ih, List.length_cons,
        List.append_assoc, List.singleton_append]
      rw [Nat.add_right_comm, Nat.add_assoc]

/-! ## One round of the walk -/

section

variable {τ κ : Type} {onRecord : LogRecord → κ → Except CliError Unit × κ} {limit : Option Nat}
  {fetch : LogCursor → τ → Option (Except CliError (Option LogPage) × τ)} {cursor : LogCursor}
  {last : Option Sequence} {records records' : Nat} {link link' : τ} {seen seen' : κ} {p : StoredPage}

theorem walkPages_end (hfetch : fetch cursor link = some (.ok (some .endOfLog), link')) (fuel : Nat) :
    walkPages onRecord limit fetch (fuel + 1) cursor last records link seen =
      some (.ok ⟨records, .exhausted, none⟩, link', seen) := by
  rw [walkPages, hfetch]
  rfl

theorem walkPages_reached (hfetch : fetch cursor link = some (.ok (some p.page), link'))
    (hdeliver : deliver onRecord limit records p.records seen = (.ok (records', true), seen'))
    (fuel : Nat) :
    walkPages onRecord limit fetch (fuel + 1) cursor last records link seen =
      some (.ok ⟨records', .limitReached, last⟩, link', seen') := by
  simp only [walkPages, hfetch, StoredPage.page, hdeliver]

theorem walkPages_on (hfetch : fetch cursor link = some (.ok (some p.page), link'))
    (hdeliver : deliver onRecord limit records p.records seen = (.ok (records', false), seen'))
    (hne : last ≠ some p.sequence) (fuel : Nat) :
    walkPages onRecord limit fetch (fuel + 1) cursor last records link seen =
      walkPages onRecord limit fetch fuel (.after p.sequence) (some p.sequence) records' link' seen' := by
  simp only [walkPages, hfetch, StoredPage.page, hdeliver, if_neg hne]

end

end Oplog

end TTLock
