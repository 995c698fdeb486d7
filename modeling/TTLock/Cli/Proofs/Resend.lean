import TTLock.Cli.Proofs.Resume

set_option autoImplicit false

/-! # A walk over a link that spoils frames

A frame with a wrong CRC makes `run_op` send its request again. If what was spoilt is a reply, the new
reply replaces it. If it is a push, the reply to the first request is still to come, and the walk is one
reply behind: it takes an older page for the answer to its cursor, unless as many replies are spoilt in the
same step as are left over (`resends_keep_step_iff`). -/

namespace TTLock

/-! ## Records carry the sequence of their page -/

section

variable {C : Cipher} {chrono : Chrono} {aesKey : AesKey}

theorem parseRecord_sequence {sequence : Sequence} {body : List UInt8} {record : LogRecord}
    (h : parseRecord chrono sequence body = .ok record) : record.sequence = sequence := by
  unfold parseRecord at h
  split at h
  · rename_i code yy mm dd h' m s rawBattery tail
    rcases hdate : decodeDate chrono yy mm dd h' m s with e | atTime
    · simp only [hdate, bind, Except.bind] at h
      cases h
    · simp only [hdate, bind, Except.bind] at h
      split at h
      · cases h
      · cases h
        rfl
  · cases h

theorem parseRecords_sequence {sequence : Sequence} {fuel : Nat} {body : List UInt8}
    {records : List LogRecord} (h : parseRecords chrono sequence fuel body = .ok records) :
    ∀ record ∈ records, record.sequence = sequence := by
  induction fuel generalizing body records with
  | zero =>
      cases body with
      | nil =>
          cases h
          intro record hrecord
          cases hrecord
      | cons b body => cases h
  | succ fuel ih =>
      cases body with
      | nil =>
          cases h
          intro record hrecord
          cases hrecord
      | cons b body =>
          unfold parseRecords at h
          by_cases hshort : b.toNat < 8
          · simp only [hshort, if_true] at h
            cases h
          · by_cases hlong : body.length < b.toNat
            · simp only [hshort, hlong, if_true, if_false] at h
              cases h
            · simp only [hshort, hlong, if_false] at h
              rcases hfirst : parseRecord chrono sequence (body.take b.toNat) with e | first
              · rw [hfirst] at h
                cases h
              · rcases hrest : parseRecords chrono sequence fuel (body.drop b.toNat) with e | rest
                · rw [hfirst, hrest] at h
                  cases h
                · rw [hfirst, hrest] at h
                  cases h
                  intro record hrecord
                  rcases List.mem_cons.1 hrecord with rfl | hrecord
                  · exact parseRecord_sequence hfirst
                  · exact ih hrest record hrecord

theorem parsePage_sequence {data : List UInt8} {page : LogPage} (h : parsePage chrono data = .ok page) :
    ∀ record ∈ page.records, page.next = some record.sequence := by
  obtain ⟨l₁, l₀, body, rfl⟩ : ∃ l₁ l₀ body, data = l₁ :: l₀ :: body := by
    rcases data with _ | ⟨l₁, _ | ⟨l₀, body⟩⟩
    · cases h
    · cases h
    · exact ⟨l₁, l₀, body, rfl⟩
  unfold parsePage at h
  by_cases hend : BigEndian.ofBytes16 l₁ l₀ = 0
  · simp only [hend, if_true] at h
    cases h
    intro record hrecord
    cases hrecord
  · simp only [hend, if_false] at h
    rcases body with _ | ⟨s₁, _ | ⟨s₀, body⟩⟩
    · cases h
    · cases h
    · dsimp only at h
      rcases hsequence : Sequence.new (BigEndian.ofBytes16 s₁ s₀) with _ | sequence
      · rw [hsequence] at h
        cases h
      · rw [hsequence] at h
        dsimp only at h
        rcases hrecords : parseRecords chrono sequence body.length body with e | records
        · rw [hrecords] at h
          cases h
        · rw [hrecords] at h
          by_cases hempty : records.isEmpty = true
          · simp only [bind, Except.bind, hempty, if_true] at h
            cases h
          · simp only [bind, Except.bind, hempty] at h
            cases h
            intro record hrecord
            rw [parseRecords_sequence hrecords record hrecord]

theorem pageOf_sequence {raw : List UInt8} {p : StoredPage}
    (h : pageOf C chrono aesKey raw = .ok p.page) :
    ∀ record ∈ p.records, record.sequence = p.sequence := by
  unfold pageOf at h
  split at h
  · cases h
  · split at h
    · cases h
    · intro record hrecord
      exact (Option.some.inj (parsePage_sequence h record hrecord)).symm

end

namespace Oplog

open LogLink Disturbance

variable {C : Cipher} {chrono : Chrono} {aesKey : AesKey} {log : StoredLog}
  {lock : List UInt16 → List UInt8} {noise : Nat → List Disturbance}

/-! ## What the callback has been handed is a prefix of what it is handed in the end -/

theorem deliver_extends (limit : Option Nat) (records : Nat) (rs seen : List LogRecord) :
    seen <+: (deliver collect limit records rs seen).2 := by
  by_cases hrs : rs = []
  · rw [hrs]
    exact List.prefix_rfl
  · obtain ⟨n, -, -, hdeliver, -⟩ := deliver_collect limit hrs records seen
    rw [hdeliver]
    exact List.prefix_append _ _

section

variable {τ : Type} {fetch : LogCursor → τ → Option (Except CliError (Option LogPage) × τ)}
  {limit : Option Nat} {fuel : Nat} {cursor : LogCursor} {last : Option Sequence} {records : Nat}
  {link link' : τ} {seen seen' : List LogRecord} {result : Except CliError Walk}

theorem walkPages_extends
    (h : walkPages collect limit fetch fuel cursor last records link seen = some (result, link', seen')) :
    seen <+: seen' := by
  induction fuel generalizing cursor last records link seen with
  | zero => cases h
  | succ fuel ih =>
      rw [walkPages] at h
      split at h
      · cases h
      · cases h
        exact List.prefix_rfl
      · cases h
        exact List.prefix_rfl
      · rename_i page link₁ hfetch
        have hextends := deliver_extends limit records page.records seen
        split at h
        · rename_i hdeliver
          cases h
          rwa [hdeliver] at hextends
        · rename_i hdeliver
          cases h
          rwa [hdeliver] at hextends
        · rename_i hdeliver
          rw [hdeliver] at hextends
          split at h
          · cases h
            exact hextends
          · split at h
            · cases h
              exact hextends
            · exact hextends.trans (ih h)

/-- If a page comes, its first record is handed over next. -/
theorem walkPages_first {p : StoredPage} {link₁ : τ}
    (hfetch : fetch cursor link = some (.ok (some p.page), link₁))
    (h : walkPages collect limit fetch fuel cursor last records link seen = some (result, link', seen')) :
    ∃ record ∈ p.records, seen ++ [record] <+: seen' := by
  obtain ⟨record, others, hrecords⟩ := List.exists_cons_of_ne_nil p.nonempty
  obtain ⟨n, hpos, -, hdeliver, -⟩ := deliver_collect limit p.nonempty records seen
  refine ⟨record, hrecords ▸ List.mem_cons_self, ?_⟩
  have hfirst : seen ++ [record] <+: seen ++ p.records.take n := by
    obtain ⟨m, rfl⟩ : ∃ m, n = m + 1 := ⟨n - 1, by omega⟩
    rw [hrecords, List.take_succ_cons, List.prefix_append_right_inj]
    exact List.prefix_append [record] _
  refine hfirst.trans ?_
  cases fuel with
  | zero => cases h
  | succ fuel =>
      by_cases hreached : limit.any (· ≤ records + p.records.length) = true
      · rw [hreached] at hdeliver
        rw [walkPages_reached hfetch hdeliver] at h
        cases h
        exact List.prefix_rfl
      · rw [eq_false_of_ne_true hreached] at hdeliver
        by_cases hlast : last = some p.sequence
        · simp only [walkPages, hfetch, StoredPage.page, hdeliver, if_pos hlast] at h
          cases h
          exact List.prefix_rfl
        · rw [walkPages_on hfetch hdeliver hlast] at h
          exact walkPages_extends h

end

/-! ## Replies that are left over -/

/-- How many replies are in flight when a step begins: one for every push spoilt before. -/
def surplus (noise : Nat → List Disturbance) : (step : Nat) → Nat
  | 0 => 0
  | step + 1 => surplus noise step + (noise step).countP isSpoiltPush

/-- A link at the beginning of a step. The replies in flight are pages that were asked for before. -/
structure Behind (C : Cipher) (chrono : Chrono) (aesKey : AesKey) (noise : Nat → List Disturbance)
    (cursor : LogCursor) (link : LogLink) : Prop where
  coming : link.coming = noise link.step
  length : link.inFlight.length = surplus noise link.step
  stale : ∀ raw ∈ link.inFlight, ∃ p : StoredPage, pageOf C chrono aesKey raw = .ok p.page ∧
    p.sequence.get ≤ cursor.value

theorem length_answers (lock : List UInt16 → List UInt8) (cursor : UInt16) (times : Nat)
    (cursors : List UInt16) : (answers lock cursor times cursors).length = times := by
  induction times generalizing cursors with
  | zero => rfl
  | succ times ih => rw [answers, List.length_cons, ih]

theorem pageOf_answers (hlock : Honest C chrono aesKey log lock) {cursor : UInt16} {times : Nat}
    {cursors : List UInt16} {raw : List UInt8} (h : raw ∈ answers lock cursor times cursors) :
    pageOf C chrono aesKey raw = .ok (log.answer cursor) := by
  induction times generalizing cursors with
  | zero => cases h
  | succ times ih =>
      rcases List.mem_cons.1 h with rfl | h
      · exact hlock cursor cursors
      · exact ih h

section

variable (hC : C.Lawful) (hlock : Honest C chrono aesKey log lock)
  (hnoise : ∀ step, Bearable C aesKey (noise step)) (version : LockVersion) {cursor : LogCursor}
  {link : LogLink} (hbehind : Behind C chrono aesKey noise cursor link)

include hC hlock hnoise hbehind

/-- One fetch takes the reply that is as far back in the queue as replies were spoilt. -/
theorem fetchPage_behind {raw : List UInt8} {rest : List (List UInt8)} {page : LogPage}
    (hraw : (link.inFlight ++ answers lock cursor.value ((noise link.step).countP isSpoiltPush +
      (noise link.step).countP isSpoiltReply + 1) link.cursors).drop
        ((noise link.step).countP isSpoiltReply) = raw :: rest)
    (hpage : pageOf C chrono aesKey raw = .ok page) :
    ∃ cursors, fetchPage C chrono (transport C aesKey lock noise) aesKey version cursor link =
      some (.ok (some page), ⟨cursors, rest, link.step + 1, noise (link.step + 1),
        link.answered ++ [(cursor.value, raw)]⟩) := by
  have hbear : Bearable C aesKey link.coming := hbehind.coming ▸ hnoise link.step
  have hintact : ∀ raw ∈ link.inFlight, Intact raw := by
    intro raw hraw
    obtain ⟨p, hp, -⟩ := hbehind.stale raw hraw
    exact Replies.intact (.inl ⟨_, hp⟩)
  rw [← hbehind.coming] at hraw
  have hread := readPage_disturbed hC
    (fun cursor cursors => (hlock.orRefusing.serves cursor cursors).intact) noise version cursor hbear
    hintact hraw (.inl ⟨page, hpage⟩)
  rw [fetchPage, hread, hpage]
  exact ⟨_, rfl⟩

/-- In step: enough replies are spoilt to catch up. -/
theorem fetchPage_caught_up (hstep : surplus noise link.step ≤ (noise link.step).countP isSpoiltReply) :
    ∃ link', fetchPage C chrono (transport C aesKey lock noise) aesKey version cursor link =
        some (.ok (some (log.answer cursor.value)), link') ∧
      (∀ reply ∈ link'.answered, reply ∈ link.answered ∨
        pageOf C chrono aesKey reply.2 = .ok (log.answer reply.1)) ∧
      link'.step = link.step + 1 ∧
      ∀ p : StoredPage, log.answer cursor.value = p.page →
        Behind C chrono aesKey noise (.after p.sequence) link' := by
  -- the queue of the old replies is used up within the spoilt ones
  have hlength : ((link.inFlight ++ answers lock cursor.value ((noise link.step).countP isSpoiltPush +
      (noise link.step).countP isSpoiltReply + 1) link.cursors).drop
        ((noise link.step).countP isSpoiltReply)).length = surplus noise (link.step + 1) + 1 := by
    rw [List.length_drop, List.length_append, length_answers, hbehind.length, surplus]
    omega
  have hmem : ∀ raw ∈ (link.inFlight ++ answers lock cursor.value ((noise link.step).countP isSpoiltPush +
      (noise link.step).countP isSpoiltReply + 1) link.cursors).drop
        ((noise link.step).countP isSpoiltReply),
      pageOf C chrono aesKey raw = .ok (log.answer cursor.value) := by
    intro raw hraw
    rw [List.drop_append, List.drop_eq_nil_of_le (by rw [hbehind.length]; exact hstep),
      List.nil_append] at hraw
    exact pageOf_answers hlock (List.mem_of_mem_drop hraw)
  obtain ⟨raw, rest, hraw⟩ := List.exists_cons_of_length_eq_add_one hlength
  rw [hraw] at hlength hmem
  obtain ⟨hpage, hrest⟩ := List.forall_mem_cons.1 hmem
  obtain ⟨cursors, hfetch⟩ := fetchPage_behind hC hlock hnoise version hbehind hraw hpage
  refine ⟨_, hfetch, ?_, rfl, fun p hp => ⟨rfl, Nat.succ.inj hlength, ?_⟩⟩
  · intro reply hreply
    rcases List.mem_append.1 hreply with hold | hnew
    · exact .inl hold
    · obtain rfl := List.mem_singleton.1 hnew
      exact .inr hpage
  · intro raw hraw
    exact ⟨p, hp ▸ hrest raw hraw, UInt16.le_refl _⟩

/-- Out of step: what comes is a page that was asked for before. -/
theorem fetchPage_out_of_step
    (hstep : (noise link.step).countP isSpoiltReply < surplus noise link.step) :
    ∃ link' raw, ∃ p : StoredPage,
      fetchPage C chrono (transport C aesKey lock noise) aesKey version cursor link =
        some (.ok (some p.page), link') ∧
      pageOf C chrono aesKey raw = .ok p.page ∧ p.sequence.get ≤ cursor.value := by
  rw [← hbehind.length] at hstep
  obtain ⟨raw, rest, hraw⟩ : ∃ raw rest,
      link.inFlight.drop ((noise link.step).countP isSpoiltReply) = raw :: rest :=
    List.exists_cons_of_length_pos (by rw [List.length_drop]; omega)
  have hmem : raw ∈ link.inFlight := List.mem_of_mem_drop (hraw ▸ List.mem_cons_self)
  obtain ⟨p, hp, hle⟩ := hbehind.stale raw hmem
  obtain ⟨cursors, hfetch⟩ := fetchPage_behind hC hlock hnoise version hbehind
    (by rw [List.drop_append_of_le_length hstep.le, hraw, List.cons_append]) hp
  exact ⟨_, raw, p, hfetch, hp, hle⟩

end

/-! ## Two walks side by side -/

/-- A walk over a noisy link and one over a quiet link, each for at most so many pages. Both return, hand
    over the same records and end alike. Each page that the first one accepted for a cursor is the log's
    answer to it, and no record of `stored` is handed over twice. -/
def Alike (C : Cipher) (chrono : Chrono) (aesKey : AesKey) (log : StoredLog) (stored : List LogRecord)
    (noisy quiet : (fuel : Nat) → Option (Except CliError Walk × LogLink × List LogRecord)) : Prop :=
  ∃ fuel walk link quietWalk quietLink records,
    noisy fuel = some (.ok walk, link, records) ∧
    quiet fuel = some (.ok quietWalk, quietLink, records) ∧
    walk.ending = quietWalk.ending ∧
    (∀ reply ∈ link.answered, pageOf C chrono aesKey reply.2 = .ok (log.answer reply.1)) ∧
    records <+: stored

/-- Both go on alike. -/
theorem alike_next {stored : List LogRecord}
    {noisy quiet noisy' quiet' : (fuel : Nat) → Option (Except CliError Walk × LogLink × List LogRecord)}
    (hzero : noisy 0 = none) (hnoisy : ∀ fuel, noisy (fuel + 1) = noisy' fuel)
    (hquiet : ∀ fuel, quiet (fuel + 1) = quiet' fuel) :
    Alike C chrono aesKey log stored noisy quiet ↔ Alike C chrono aesKey log stored noisy' quiet' := by
  constructor
  · rintro ⟨fuel, walk, link, quietWalk, quietLink, records, hn, hq, halike⟩
    cases fuel with
    | zero => cases hzero.symm.trans hn
    | succ fuel =>
        exact ⟨fuel, walk, link, quietWalk, quietLink, records, (hnoisy fuel).symm.trans hn,
          (hquiet fuel).symm.trans hq, halike⟩
  · rintro ⟨fuel, walk, link, quietWalk, quietLink, records, hn, hq, halike⟩
    exact ⟨fuel + 1, walk, link, quietWalk, quietLink, records, (hnoisy fuel).trans hn,
      (hquiet fuel).trans hq, halike⟩

/-- Enough replies are spoilt in each of these steps to catch up. -/
def CatchesUp (noise : Nat → List Disturbance) (step count : Nat) : Prop :=
  ∀ k < count, surplus noise (step + k) ≤ (noise (step + k)).countP isSpoiltReply

theorem catchesUp_succ {step count : Nat} :
    CatchesUp noise step (count + 1) ↔
      surplus noise step ≤ (noise step).countP isSpoiltReply ∧ CatchesUp noise (step + 1) count := by
  rw [CatchesUp, Nat.forall_lt_succ_left]
  refine and_congr_right fun _ => forall₂_congr fun k _ => ?_
  rw [Nat.add_right_comm, Nat.add_assoc]

section

variable (hC : C.Lawful) (hlock : Honest C chrono aesKey log lock)
  (hnoise : ∀ step, Bearable C aesKey (noise step)) (version : LockVersion) (limit : Option Nat)

include hC hlock hnoise

/-- A walk that is out of step hands over a record of an older page, which the quiet one does not. -/
theorem not_alike_out_of_step (cursor : LogCursor) (last : Option Sequence) (records : Nat)
    {link quietLink : LogLink} (hbehind : Behind C chrono aesKey noise cursor link)
    (hquiet : quietLink.Quiet) (seen stored : List LogRecord)
    (hstep : (noise link.step).countP isSpoiltReply < surplus noise link.step) :
    ¬Alike C chrono aesKey log stored
      (walkPages collect limit (fetchPage C chrono (transport C aesKey lock noise) aesKey version) ·
        cursor last records link seen)
      (walkPages collect limit (quietFetch C chrono aesKey version lock) ·
        cursor last records quietLink seen) := by
  rintro ⟨fuel, walk, link', quietWalk, quietLink', seen', hn, hq, -⟩
  obtain ⟨link₁, raw, p, hfetch, hraw, hle⟩ := fetchPage_out_of_step hC hlock hnoise version hbehind hstep
  obtain ⟨record, hrecord, hextends⟩ := walkPages_first hfetch hn
  have hpage := hlock cursor.value quietLink.cursors
  have hserves := hlock.orRefusing.serves
  rcases hrest : log.after cursor.value with _ | ⟨q, rest⟩
  · -- the quiet walk is at the end of the log
    rw [StoredLog.answer_of_nil hrest] at hpage
    cases fuel with
    | zero => cases hq
    | succ fuel =>
        have hend := fetchPage_page hC hserves version cursor hquiet hpage
        cases (walkPages_end hend fuel).symm.trans hq
        have hlength := hextends.length_le
        rw [List.length_append] at hlength
        exact absurd hlength (by simp)
  · -- it hands over a record of the next page
    rw [StoredLog.answer_of_cons hrest] at hpage
    obtain ⟨record', hrecord', hextends'⟩ :=
      walkPages_first (fetchPage_page hC hserves version cursor hquiet hpage) hq
    have hsame : seen ++ [record] = seen ++ [record'] :=
      (List.prefix_of_prefix_length_le hextends hextends' (by simp)).eq_of_length (by simp)
    obtain rfl : record = record' := by simpa using hsame
    have hlt := StoredLog.lt_of_after hrest
    rw [← pageOf_sequence hpage record hrecord', pageOf_sequence hraw record hrecord] at hlt
    exact absurd (UInt16.lt_of_lt_of_le hlt hle) (UInt16.lt_irrefl _)

/-- **Two walks from a cursor** go alike iff the noisy one keeps catching up, by induction on the pages
    after the cursor. -/
theorem walkPages_alike_iff (cursor : LogCursor) {rest : List StoredPage}
    (hrest : log.after cursor.value = rest) (last : Option Sequence)
    (hlast : ∀ s, last = some s → s.get ≤ cursor.value) (records : Nat) {link quietLink : LogLink}
    (hbehind : Behind C chrono aesKey noise cursor link) (hquiet : quietLink.Quiet)
    (hanswered : ∀ reply ∈ link.answered, pageOf C chrono aesKey reply.2 = .ok (log.answer reply.1))
    {seen stored : List LogRecord} (hstored : seen ++ recordsOf rest = stored) :
    Alike C chrono aesKey log stored
      (walkPages collect limit (fetchPage C chrono (transport C aesKey lock noise) aesKey version) ·
        cursor last records link seen)
      (walkPages collect limit (quietFetch C chrono aesKey version lock) ·
        cursor last records quietLink seen) ↔
      CatchesUp noise link.step (through limit records rest + 1) := by
  induction rest generalizing cursor last records link quietLink seen with
  | nil =>
      rw [catchesUp_succ]
      by_cases hstep : surplus noise link.step ≤ (noise link.step).countP isSpoiltReply
      · obtain ⟨link', hfetch, hreplies, -, -⟩ :=
          fetchPage_caught_up hC hlock hnoise version hbehind hstep
        have hpage := hlock cursor.value quietLink.cursors
        rw [StoredLog.answer_of_nil hrest] at hfetch hpage
        have hquietFetch := fetchPage_page hC hlock.orRefusing.serves version cursor hquiet hpage
        refine iff_of_true ⟨1, ⟨records, .exhausted, none⟩, link', ⟨records, .exhausted, none⟩,
          quietLink.asked lock cursor.value, seen, ?_, ?_, rfl, ?_, ?_⟩
          ⟨hstep, fun k hk => absurd hk (Nat.not_lt_zero k)⟩
        · exact walkPages_end hfetch 0
        · exact walkPages_end hquietFetch 0
        · exact fun reply hreply => (hreplies reply hreply).elim (hanswered reply) id
        · exact hstored ▸ List.prefix_append _ _
      · refine iff_of_false ?_ fun h => hstep h.1
        exact not_alike_out_of_step hC hlock hnoise version limit cursor last records hbehind hquiet seen
          stored (Nat.lt_of_not_le hstep)
  | cons p rest ih =>
      rw [catchesUp_succ]
      by_cases hstep : surplus noise link.step ≤ (noise link.step).countP isSpoiltReply
      · obtain ⟨link', hfetch, hreplies, hstep', hbehind'⟩ :=
          fetchPage_caught_up hC hlock hnoise version hbehind hstep
        have hpage := hlock cursor.value quietLink.cursors
        have hanswer := StoredLog.answer_of_cons hrest
        rw [hanswer] at hfetch hpage
        have hquietFetch := fetchPage_page hC hlock.orRefusing.serves version cursor hquiet hpage
        have hanswered' : ∀ reply ∈ link'.answered,
            pageOf C chrono aesKey reply.2 = .ok (log.answer reply.1) :=
          fun reply hreply => (hreplies reply hreply).elim (hanswered reply) id
        obtain ⟨n, -, -, hdeliver, hall⟩ := deliver_collect limit p.nonempty records seen
        by_cases hreached : limit.any (· ≤ records + p.records.length) = true
        · rw [hreached] at hdeliver
          rw [through, if_pos hreached]
          refine iff_of_true ⟨1, ⟨records + n, .limitReached, last⟩, link',
            ⟨records + n, .limitReached, last⟩, quietLink.asked lock cursor.value,
            seen ++ p.records.take n, ?_, ?_, rfl, hanswered', ?_⟩
            ⟨hstep, fun k hk => absurd hk (Nat.not_lt_zero k)⟩
          · exact walkPages_reached hfetch hdeliver 0
          · exact walkPages_reached hquietFetch hdeliver 0
          · rw [← hstored, List.prefix_append_right_inj]
            exact (List.take_prefix n _).trans (List.prefix_append _ _)
        · obtain rfl := hall (eq_false_of_ne_true hreached)
          rw [eq_false_of_ne_true hreached, List.take_length] at hdeliver
          have hne := StoredLog.ne_last_of_after hrest hlast
          have hquiet' : (quietLink.asked lock cursor.value).Quiet := hquiet.asked cursor.value
          have hstored' : seen ++ p.records ++ recordsOf rest = stored := by
            rw [List.append_assoc]
            exact hstored
          have hnext := ih (.after p.sequence) (StoredLog.after_sequence hrest) (some p.sequence)
            (StoredLog.last_after p) (records + p.records.length) (hbehind' p hanswer) hquiet' hanswered'
            hstored'
          rw [through, if_neg hreached, and_iff_right hstep, ← hstep', ← hnext]
          exact alike_next rfl (walkPages_on hfetch hdeliver hne) (walkPages_on hquietFetch hdeliver hne)
      · refine iff_of_false ?_ fun h => hstep h.1
        exact not_alike_out_of_step hC hlock hnoise version limit cursor last records hbehind hquiet seen
          stored (Nat.lt_of_not_le hstep)

/-- The same for the whole walks. -/
theorem walkLog_alike_iff (start : LogCursor) :
    Alike C chrono aesKey log (recordsOf (log.after start.value))
      (walkLog C chrono aesKey version lock noise start limit)
      (walkLog C chrono aesKey version lock (fun _ => []) start limit) ↔
      CatchesUp noise 0 (through limit 0 (log.after start.value) + 1) :=
  walkPages_alike_iff hC hlock hnoise version limit start rfl none (fun s hs => by cases hs) 0
    ⟨rfl, rfl, fun raw hraw => by cases hraw⟩ new_quiet (fun reply hreply => by cases hreply) rfl

end

/-- **A walk over a noisy link** goes like the one over the quiet link iff in each step of the latter as
    many replies are spoilt as pushes were spoilt in the steps before. -/
theorem resends_keep_step_iff (hC : C.Lawful) (hlock : Honest C chrono aesKey log lock)
    (hnoise : ∀ step, Bearable C aesKey (noise step)) (version : LockVersion) (start : LogCursor)
    (limit : Option Nat) :
    Alike C chrono aesKey log (recordsOf (log.after start.value))
      (walkLog C chrono aesKey version lock noise start limit)
      (walkLog C chrono aesKey version lock (fun _ => []) start limit) ↔
      ∀ step ≤ through limit 0 (log.after start.value),
        surplus noise step ≤ (noise step).countP isSpoiltReply := by
  rw [walkLog_alike_iff hC hlock hnoise]
  simp only [CatchesUp, Nat.zero_add, Nat.lt_succ_iff]

/-! ## A spoilt frame in the first step -/

/-- A push before the first reply. -/
def strayPush : List UInt8 := sampleReply [COMM_UNLOCK, 1, 0, 0]

theorem strayPush_isPush : IsPush aes128Cbc sampleKey strayPush :=
  ⟨⟨COMM_UNLOCK, 1, [0, 0]⟩, by decide +kernel, by decide⟩

/-- In the first step, these things happen. -/
def firstStep (coming : List Disturbance) (step : Nat) : List Disturbance :=
  if step = 0 then coming else []

theorem bearable_firstStep {coming : List Disturbance} (h : Bearable C aesKey coming) (step : Nat) :
    Bearable C aesKey (firstStep coming step) := by
  unfold firstStep
  split
  · exact h
  · exact ⟨fun d hd => absurd hd List.not_mem_nil, Nat.zero_le _, Nat.zero_le _⟩

theorem resends_keep_step_spoilt_reply :
    Alike aes128Cbc sampleChrono sampleKey sampleLog (recordsOf sampleLog.pages)
      (walkLog aes128Cbc sampleChrono sampleKey .default willingLock
        (firstStep [.push strayPush, .spoiltReply 1]) .beginning none)
      (walkLog aes128Cbc sampleChrono sampleKey .default willingLock (fun _ => []) .beginning none) := by
  have hbear : Bearable aes128Cbc sampleKey [.push strayPush, .spoiltReply 1] := by
    refine ⟨?_, by decide, by decide⟩
    intro d hd
    rcases List.mem_pair.1 hd with rfl | rfl
    · exact strayPush_isPush
    · exact (by decide : (1 : UInt8) ≠ 0)
  have hiff := resends_keep_step_iff aes128Cbc_lawful willingLock_honest (bearable_firstStep hbear)
    .default .beginning none
  rw [show sampleLog.after LogCursor.beginning.value = sampleLog.pages from StoredLog.after_zero _] at hiff
  exact hiff.2 (by decide)

/-- A push is spoilt in the first step: the first page is handed over twice, and the walk ends refused. -/
theorem spoilt_push_loses_step :
    Honest aes128Cbc sampleChrono sampleKey sampleLog willingLock ∧
      (∀ step, Bearable aes128Cbc sampleKey (firstStep [.spoiltPush strayPush 1] step)) ∧
      ¬Alike aes128Cbc sampleChrono sampleKey sampleLog (recordsOf sampleLog.pages)
        (walkLog aes128Cbc sampleChrono sampleKey .default willingLock
          (firstStep [.spoiltPush strayPush 1]) .beginning none)
        (walkLog aes128Cbc sampleChrono sampleKey .default willingLock (fun _ => []) .beginning none) := by
  have hbear : Bearable aes128Cbc sampleKey [.spoiltPush strayPush 1] := by
    refine ⟨?_, by decide, by decide⟩
    intro d hd
    obtain rfl := List.mem_singleton.1 hd
    exact ⟨strayPush_isPush, by decide⟩
  refine ⟨willingLock_honest, bearable_firstStep hbear, ?_⟩
  have hiff := walkLog_alike_iff aes128Cbc_lawful willingLock_honest (bearable_firstStep hbear)
    .default none .beginning
  rw [show sampleLog.after LogCursor.beginning.value = sampleLog.pages from StoredLog.after_zero _] at hiff
  rw [hiff]
  intro hcatches
  exact absurd (hcatches 1 (by decide)) (by decide)

end Oplog

end TTLock
