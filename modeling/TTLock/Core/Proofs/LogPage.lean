import TTLock.Core.Oplog
import TTLock.Lib.Items

set_option autoImplicit false

/-! # What a page of the log says

The layout of a page as the lock sends it: entries whose dates the calendar has, behind the length of
the whole and the sequence. `parsePage` reads every such page back. Cut short, it is refused only
where the cut does not fall between two of its records: the length in the header is never compared
with what came. -/

namespace TTLock

/-! ## The calendar -/

def isLeapYear (year : Int) : Bool := year % 4 == 0 && (year % 100 != 0 || year % 400 == 0)

def daysInMonth (year : Int) (month : Nat) : Nat :=
  if month = 2 then if isLeapYear year then 29 else 28
  else if month = 4 ∨ month = 6 ∨ month = 9 ∨ month = 11 then 30
  else 31

/-- A date of the Gregorian calendar. -/
def ValidDate (year : Int) (month day : Nat) : Prop :=
  (1 ≤ month ∧ month ≤ 12) ∧ 1 ≤ day ∧ day ≤ daysInMonth year month

instance (year : Int) (month day : Nat) : Decidable (ValidDate year month day) :=
  inferInstanceAs (Decidable (_ ∧ _))

def ValidTime (hour minute second : Nat) : Prop := hour < 24 ∧ minute < 60 ∧ second < 60

instance (hour minute second : Nat) : Decidable (ValidTime hour minute second) :=
  inferInstanceAs (Decidable (_ ∧ _))

/-- `chrono` accepts the dates and times there are, in the years that a record can name. -/
structure Chrono.Gregorian (chrono : Chrono) : Prop where
  ymdOk_iff : ∀ {year : Int} {month day : Nat}, 2000 ≤ year → year ≤ 2255 →
    (chrono.ymdOk year month day = true ↔ ValidDate year month day)
  hmsOk_iff : ∀ {hour minute second : Nat},
    chrono.hmsOk hour minute second = true ↔ ValidTime hour minute second

/-- The calendar itself. -/
def Chrono.gregorian : Chrono where
  ymdOk year month day := decide (ValidDate year month day)
  hmsOk hour minute second := decide (ValidTime hour minute second)

theorem Chrono.gregorian_lawful : Chrono.gregorian.Gregorian where
  ymdOk_iff _ _ := decide_eq_true_iff
  hmsOk_iff := decide_eq_true_iff

/-- A moment that the six bytes of a record can name. -/
structure NaiveDateTime.Valid (moment : NaiveDateTime) : Prop where
  year_ge : 2000 ≤ moment.year
  year_le : moment.year ≤ 2255
  date : ValidDate moment.year moment.month moment.day
  time : ValidTime moment.hour moment.minute moment.second

theorem daysInMonth_le (year : Int) (month : Nat) : daysInMonth year month ≤ 31 := by
  unfold daysInMonth
  split
  · split <;> omega
  · split <;> omega

/-! ## The layout -/

/-- What the lock stores of one operation. -/
structure LogEntry where
  code : UInt8
  atTime : NaiveDateTime
  battery : Percent
  tail : List UInt8
  valid : atTime.Valid
  length_tail : tail.length ≤ 247

namespace LogEntry

/-- `YY MM DD HH MM SS`, with the year offset from 2000. -/
def dateBytes (moment : NaiveDateTime) : List UInt8 :=
  [UInt8.ofNat (moment.year - 2000).toNat, UInt8.ofNat moment.month, UInt8.ofNat moment.day,
    UInt8.ofNat moment.hour, UInt8.ofNat moment.minute, UInt8.ofNat moment.second]

def body (self : LogEntry) : List UInt8 :=
  self.code :: (dateBytes self.atTime ++ self.battery.get :: self.tail)

def encode (self : LogEntry) : List UInt8 := UInt8.ofNat (8 + self.tail.length) :: self.body

/-- The record of this entry on a page. -/
def record (sequence : Sequence) (self : LogEntry) : LogRecord :=
  { sequence, code := self.code, atTime := self.atTime, battery := self.battery, tail := self.tail }

theorem length_body (self : LogEntry) : self.body.length = 8 + self.tail.length := by
  simp only [body, dateBytes, List.length_cons, List.length_append, List.length_nil]
  omega

theorem length_encode (self : LogEntry) : self.encode.length = 9 + self.tail.length := by
  rw [encode, List.length_cons, length_body]
  omega

/-- The length byte says how long the body is. -/
theorem toNat_length (self : LogEntry) :
    (UInt8.ofNat (8 + self.tail.length)).toNat = self.body.length := by
  have h := self.length_tail
  rw [length_body, UInt8.toNat_ofNat', Nat.mod_eq_of_lt (by omega)]

end LogEntry

/-- A page with at least one entry, no longer than its header can say. -/
structure WirePage where
  sequence : Sequence
  entries : List LogEntry
  ne_nil : entries ≠ []
  fits : 2 + (entries.flatMap LogEntry.encode).length ≤ 0xffff

namespace WirePage

def body (self : WirePage) : List UInt8 := self.entries.flatMap LogEntry.encode

/-- The length of what follows it, and the sequence. -/
def header (self : WirePage) : List UInt8 :=
  BigEndian.toBytes16 (UInt16.ofNat (2 + self.body.length)) ++ BigEndian.toBytes16 self.sequence.get

def encode (self : WirePage) : List UInt8 := self.header ++ self.body

theorem length_encode (self : WirePage) : self.encode.length = 4 + self.body.length :=
  List.length_append

end WirePage

/-! ## One record -/

variable {chrono : Chrono}

/-- A valid moment is read back from its six bytes. -/
theorem decodeDate_valid (hchrono : chrono.Gregorian) {moment : NaiveDateTime} (h : moment.Valid) :
    decodeDate chrono (UInt8.ofNat (moment.year - 2000).toNat) (UInt8.ofNat moment.month)
      (UInt8.ofNat moment.day) (UInt8.ofNat moment.hour) (UInt8.ofNat moment.minute)
      (UInt8.ofNat moment.second) = .ok moment := by
  obtain ⟨year, month, day, hour, minute, second⟩ := moment
  obtain ⟨hyear, hyear', hdate, htime⟩ := h
  have hday := daysInMonth_le year month
  obtain ⟨⟨hm, hm'⟩, hd, hd'⟩ := id hdate
  obtain ⟨hh, hmin, hs⟩ := id htime
  dsimp only at hyear hyear' hm hm' hd hd' hh hmin hs
  have hy : 2000 + (((year - 2000).toNat : Nat) : Int) = year := by omega
  simp only [decodeDate, UInt8.toNat_ofNat', Nat.mod_eq_of_lt (show (year - 2000).toNat < 2 ^ 8 by omega),
    Nat.mod_eq_of_lt (show month < 2 ^ 8 by omega), Nat.mod_eq_of_lt (show day < 2 ^ 8 by omega),
    Nat.mod_eq_of_lt (show hour < 2 ^ 8 by omega), Nat.mod_eq_of_lt (show minute < 2 ^ 8 by omega),
    Nat.mod_eq_of_lt (show second < 2 ^ 8 by omega), hy]
  rw [if_pos]
  rw [(hchrono.ymdOk_iff hyear hyear').2 hdate, hchrono.hmsOk_iff.2 htime]
  rfl

theorem Percent.new_get (percent : Percent) : Percent.new percent.get = some percent :=
  dif_pos percent.le_hundred

theorem parseRecord_body (hchrono : chrono.Gregorian) (sequence : Sequence) (entry : LogEntry) :
    parseRecord chrono sequence entry.body = .ok (entry.record sequence) := by
  have hdate := decodeDate_valid hchrono entry.valid
  simp only [LogEntry.body, LogEntry.dateBytes, List.cons_append, List.nil_append, parseRecord, hdate,
    Percent.new_get]
  rfl

/-- One round of the loop over the records. -/
def nextRecord (chrono : Chrono) (sequence : Sequence) :
    List UInt8 → Except TtlockError (LogRecord × List UInt8)
  | [] => .error (pageError "record is shorter than its fixed header")
  | recordLength :: rest =>
      if recordLength.toNat < 8 then .error (pageError "record is shorter than its fixed header")
      else if rest.length < recordLength.toNat then
        .error (pageError "record runs past the end of the page")
      else (parseRecord chrono sequence (rest.take recordLength.toNat)).map
        (·, rest.drop recordLength.toNat)

/-- The loop is nothing but its rounds. -/
theorem parseRecords_eq_readAll (sequence : Sequence) (fuel : Nat) (text : List UInt8) :
    parseRecords chrono sequence fuel text = Items.readAll (nextRecord chrono sequence)
      (pageError "record runs past the end of the page") fuel text := by
  induction fuel generalizing text with
  | zero => cases text <;> rfl
  | succ fuel ih =>
      cases text with
      | nil => rfl
      | cons recordLength rest =>
          rw [parseRecords, Items.readAll, nextRecord]
          by_cases h8 : recordLength.toNat < 8
          · rw [if_pos h8, if_pos h8]
            rfl
          · rw [if_neg h8, if_neg h8]
            by_cases hlen : rest.length < recordLength.toNat
            · rw [if_pos hlen, if_pos hlen]
              rfl
            · rw [if_neg hlen, if_neg hlen]
              cases parseRecord chrono sequence (rest.take recordLength.toNat) with
              | error e => rfl
              | ok record =>
                  show (parseRecords chrono sequence fuel _ >>= _) = _
                  rw [ih]
                  show _ = (Items.readAll _ _ fuel _).map _
                  cases Items.readAll (nextRecord chrono sequence) _ fuel
                    (rest.drop recordLength.toNat) <;> rfl

/-- A whole entry is read whatever follows it; of a part of one the length byte promises more than
    there is. -/
theorem reads_nextRecord (hchrono : chrono.Gregorian) (sequence : Sequence) :
    Items.Reads (nextRecord chrono sequence) LogEntry.encode (LogEntry.record sequence) where
  ne_nil _ := List.cons_ne_nil _ _
  whole entry rest := by
    have hlen := entry.length_body
    rw [LogEntry.encode, List.cons_append, nextRecord, entry.toNat_length, if_neg (by omega),
      if_neg (by rw [List.length_append]; omega), List.take_left, List.drop_left,
      parseRecord_body hchrono]
    rfl
  part entry n hn hlt := by
    obtain ⟨n, rfl⟩ : ∃ left, n = left + 1 := ⟨n - 1, by omega⟩
    have hlen := entry.length_body
    rw [LogEntry.encode, List.length_cons] at hlt
    refine ⟨pageError "record runs past the end of the page", ?_⟩
    rw [LogEntry.encode, List.take_succ_cons, nextRecord, entry.toNat_length, if_neg (by omega),
      if_pos (by rw [List.length_take]; omega)]

/-! ## The page -/

/-- What becomes of the records of a page. -/
def pageOfRecords (sequence : Sequence) :
    Except TtlockError (List LogRecord) → Except TtlockError LogPage
  | .error e => .error e
  | .ok [] => .error (pageError "page header promised records but none decoded")
  | .ok (record :: records) => .ok { records := record :: records, next := some sequence }

theorem pageOfRecords_eq (sequence : Sequence) (decoded : Except TtlockError (List LogRecord)) :
    pageOfRecords sequence decoded = do
      let records ← decoded
      if records.isEmpty then
        throw (pageError "page header promised records but none decoded")
      return { records, next := some sequence } := by
  rcases decoded with e | (_ | ⟨record, records⟩) <;> rfl

namespace WirePage

variable (page : WirePage)

theorem toNat_total :
    (UInt16.ofNat (2 + page.body.length)).toNat = 2 + page.body.length := by
  have h := page.fits
  rw [UInt16.toNat_ofNat', Nat.mod_eq_of_lt (show _ < 2 ^ 16 by rw [body]; omega)]

theorem total_ne_zero : UInt16.ofNat (2 + page.body.length) ≠ 0 := by
  intro h
  have hnat := page.toNat_total
  rw [h, UInt16.toNat_zero] at hnat
  omega

/-- Behind a header the records are all that counts. -/
theorem parsePage_header (text : List UInt8) :
    parsePage chrono (page.header ++ text) =
      pageOfRecords page.sequence (parseRecords chrono page.sequence text.length text) := by
  have hnew : Sequence.new page.sequence.get = some page.sequence := dif_neg page.sequence.ne_sentinel
  simp only [header, BigEndian.toBytes16, List.cons_append, List.nil_append, parsePage,
    BigEndian.ofBytes16_toBytes16, if_neg page.total_ne_zero, hnew]
  exact (pageOfRecords_eq page.sequence _).symm

/-- A passcode unlock on a leap day, whose tail looks like the head of another record. -/
def sampleUnlock : LogEntry where
  code := 4
  atTime := ⟨2024, 2, 29, 23, 59, 59⟩
  battery := ⟨100, by decide⟩
  tail := [8, 1, 24]
  valid := ⟨by decide, by decide, by decide, by decide⟩
  length_tail := by decide

/-- The last moment that a record can name. -/
def sampleLast : LogEntry where
  code := 46
  atTime := ⟨2255, 12, 31, 23, 59, 59⟩
  battery := ⟨0, by decide⟩
  tail := []
  valid := ⟨by decide, by decide, by decide, by decide⟩
  length_tail := by decide

def sampleTwo : WirePage where
  sequence := ⟨267, by decide⟩
  entries := [sampleUnlock, sampleLast]
  ne_nil := by decide
  fits := by decide

/-- **Round trip.** A page is read back as it was laid out. -/
theorem parsePage_encode (hchrono : chrono.Gregorian) :
    parsePage chrono page.encode = .ok
      { records := page.entries.map (LogEntry.record page.sequence), next := some page.sequence } := by
  have hreads := reads_nextRecord hchrono page.sequence
  have hbody : parseRecords chrono page.sequence page.body.length page.body =
      .ok (page.entries.map (LogEntry.record page.sequence)) := by
    rw [parseRecords_eq_readAll]
    exact Items.readAll_written hreads page.entries (Nat.le_refl _)
  obtain ⟨entry, entries, hentries⟩ := List.exists_cons_of_ne_nil page.ne_nil
  rw [encode, parsePage_header, hbody, hentries]
  rfl

theorem sampleTwo_read : parsePage Chrono.gregorian sampleTwo.encode = .ok
    { records := [sampleUnlock.record ⟨267, by decide⟩, sampleLast.record ⟨267, by decide⟩]
      next := some ⟨267, by decide⟩ } :=
  sampleTwo.parsePage_encode Chrono.gregorian_lawful

/-- Where a page may be cut without anyone noticing: behind so many of its records, but not all. -/
def BetweenRecords (n : Nat) : Prop :=
  ∃ k, 0 < k ∧ k < page.entries.length ∧
    n = 4 + ((page.entries.take k).flatMap LogEntry.encode).length

/-- Cut within its header a page is refused. -/
theorem parsePage_take_header {n : Nat} (hn : n < 4) :
    ∃ e, parsePage chrono (page.encode.take n) = .error e := by
  have htake : page.encode.take n = page.header.take n :=
    List.take_append_of_le_length (show n ≤ 4 by omega)
  rw [htake, header, BigEndian.toBytes16, BigEndian.toBytes16]
  obtain rfl | rfl | rfl | rfl : n = 0 ∨ n = 1 ∨ n = 2 ∨ n = 3 := by omega
  · exact ⟨_, rfl⟩
  · exact ⟨_, rfl⟩
  · refine ⟨pageError "page claims records but carries no sequence", ?_⟩
    simp only [List.cons_append, List.nil_append, List.take_succ_cons, List.take_zero, parsePage,
      BigEndian.ofBytes16_toBytes16, if_neg page.total_ne_zero]
  · refine ⟨pageError "page claims records but carries no sequence", ?_⟩
    simp only [List.cons_append, List.nil_append, List.take_succ_cons, List.take_zero, parsePage,
      BigEndian.ofBytes16_toBytes16, if_neg page.total_ne_zero]

theorem take_encode (m : Nat) : page.encode.take (4 + m) = page.header ++ page.body.take m := by
  have hheader : page.header.length = 4 := rfl
  rw [← hheader, encode, List.take_length_add_append]

/-- Cut between two records, a page is a page of fewer records. -/
theorem parsePage_take_between (hchrono : chrono.Gregorian) {k : Nat} (hpos : 0 < k) :
    parsePage chrono (page.encode.take (4 + ((page.entries.take k).flatMap LogEntry.encode).length)) =
      .ok { records := (page.entries.take k).map (LogEntry.record page.sequence)
            next := some page.sequence } := by
  have hbody : page.body.take ((page.entries.take k).flatMap LogEntry.encode).length =
      (page.entries.take k).flatMap LogEntry.encode :=
    Items.take_length_flatMap_take LogEntry.encode page.entries k
  rw [take_encode, hbody, parsePage_header, parseRecords_eq_readAll,
    Items.readAll_written (reads_nextRecord hchrono page.sequence) _ (Nat.le_refl _)]
  obtain ⟨entry, entries, hentries⟩ := List.exists_cons_of_ne_nil page.ne_nil
  obtain ⟨k, rfl⟩ : ∃ left, k = left + 1 := ⟨k - 1, by omega⟩
  rw [hentries]
  rfl

/-- **A page that was cut short** is refused exactly where the cut does not fall between two records. -/
theorem parsePage_take_error_iff (hchrono : chrono.Gregorian) {n : Nat} (hn : n < page.encode.length) :
    (∃ e, parsePage chrono (page.encode.take n) = .error e) ↔ ¬page.BetweenRecords n := by
  constructor
  · rintro ⟨e, he⟩ ⟨k, hpos, -, rfl⟩
    rw [page.parsePage_take_between hchrono hpos] at he
    cases he
  · intro hbetween
    rcases Nat.lt_or_ge n 4 with hlt | hge
    · exact page.parsePage_take_header hlt
    · obtain ⟨m, rfl⟩ := Nat.exists_eq_add_of_le hge
      rw [length_encode] at hn
      rw [take_encode, parsePage_header, parseRecords_eq_readAll]
      by_cases h0 : m = 0
      · rw [h0, List.take_zero, Items.readAll_nil]
        exact ⟨_, rfl⟩
      · have hlen : (page.body.take m).length = m := List.length_take_of_le (by omega)
        have hcut : (∃ e, Items.readAll (nextRecord chrono page.sequence)
            (pageError "record runs past the end of the page") m (page.body.take m) = .error e) ↔ _ :=
          Items.readAll_take_error_iff (reads_nextRecord hchrono page.sequence) page.entries
            (Nat.le_refl m) (show m ≤ page.body.length by omega)
        obtain ⟨e, he⟩ := hcut.2 fun k hk hm => by
          rcases Nat.eq_zero_or_pos k with rfl | hpos
          · exact h0 hm
          · rcases Nat.lt_or_eq_of_le hk with hlt | rfl
            · exact hbetween ⟨k, hpos, hlt, congrArg (4 + ·) hm⟩
            · rw [List.take_length] at hm
              have hbody : page.body = page.entries.flatMap LogEntry.encode := rfl
              rw [hbody] at hn
              omega
        rw [hlen]
        exact ⟨e, congrArg (pageOfRecords page.sequence) he⟩

/-- In the middle of its second record the sample is refused. -/
theorem sampleTwo_cut_within : (∃ e, parsePage Chrono.gregorian (sampleTwo.encode.take 20) = .error e) ↔
    ¬sampleTwo.BetweenRecords 20 :=
  sampleTwo.parsePage_take_error_iff Chrono.gregorian_lawful (by decide)

/-- Right behind its first record it is taken for a page of one record. -/
theorem sampleTwo_cut_between : 16 < sampleTwo.encode.length ∧
    parsePage Chrono.gregorian (sampleTwo.encode.take 16) = .ok
      { records := [sampleUnlock.record ⟨267, by decide⟩], next := some ⟨267, by decide⟩ } ∧
    ¬∃ e, parsePage Chrono.gregorian (sampleTwo.encode.take 16) = .error e := by
  have hread : parsePage Chrono.gregorian (sampleTwo.encode.take 16) = .ok
      { records := [sampleUnlock.record ⟨267, by decide⟩], next := some ⟨267, by decide⟩ } := by
    decide +kernel
  refine ⟨by decide, hread, ?_⟩
  rintro ⟨e, he⟩
  rw [hread] at he
  cases he

end WirePage

/-! ## Pages that are read -/

/-- Only the page at the end of the log is without records. -/
def LogPage.WellFormed (page : LogPage) : Prop := page.records = [] ↔ page.next = none

theorem wellFormed_pageOfRecords {sequence : Sequence}
    {records : Except TtlockError (List LogRecord)} {page : LogPage}
    (h : pageOfRecords sequence records = .ok page) : page.WellFormed := by
  rcases records with e | (_ | ⟨record, records⟩)
  · cases h
  · cases h
  · obtain rfl := Except.ok.inj h
    exact iff_of_false (List.cons_ne_nil _ _) (Option.some_ne_none _)

/-- Every page that is read is one of the two kinds. -/
theorem parsePage_wellFormed {data : List UInt8} {page : LogPage}
    (h : parsePage chrono data = .ok page) : page.WellFormed := by
  rcases data with _ | ⟨l₁, _ | ⟨l₀, body⟩⟩
  · cases h
  · cases h
  · unfold parsePage at h
    dsimp only at h
    by_cases hzero : BigEndian.ofBytes16 l₁ l₀ = 0
    · rw [if_pos hzero] at h
      obtain rfl := Except.ok.inj h
      exact iff_of_true rfl rfl
    · rw [if_neg hzero] at h
      rcases body with _ | ⟨s₁, _ | ⟨s₀, body⟩⟩
      · cases h
      · cases h
      · dsimp only at h
        cases hs : Sequence.new (BigEndian.ofBytes16 s₁ s₀) with
        | none =>
            rw [hs] at h
            cases h
        | some sequence =>
            rw [hs] at h
            exact wellFormed_pageOfRecords ((pageOfRecords_eq sequence _).trans h)

end TTLock
