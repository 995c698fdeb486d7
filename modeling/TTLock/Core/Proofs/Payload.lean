import TTLock.Core.Packet
import TTLock.Core.Proofs.Credential

set_option autoImplicit false

/-! # The payload that opens every actuation

`buildCheckUserTimePayload` writes four ranges into seventeen bytes, and the ranges overlap: what is
written later wins. The uid comes last and the end date never reaches behind the tenth byte, so the
last seven bytes are always what they should be. The first ten are the dates, if these are ten digits
each; the end date then covers the top byte of the flag position. -/

namespace TTLock

/-! ## Writing into a buffer -/

theorem length_copyInto {data bytes : List UInt8} {pos : Nat}
    (h : pos + bytes.length ≤ data.length) : (copyInto data pos bytes).length = data.length := by
  rw [copyInto, List.length_append, List.length_append, List.length_take, List.length_drop]
  omega

/-- Bytes behind the range that is written stay. -/
theorem drop_copyInto_of_le {data bytes : List UInt8} {pos n : Nat}
    (h : pos + bytes.length ≤ data.length) (hn : pos + bytes.length ≤ n) :
    (copyInto data pos bytes).drop n = data.drop n := by
  have hlen : (data.take pos ++ bytes).length = pos + bytes.length := by
    rw [List.length_append, List.length_take, Nat.min_eq_left (by omega)]
  rw [copyInto, List.drop_append, List.drop_eq_nil_of_le (by omega), List.nil_append, List.drop_drop,
    hlen]
  congr 1
  omega

/-- From within the range that is written on, its rest is read and then what was there before. -/
theorem drop_copyInto_add {data bytes : List UInt8} {pos k : Nat}
    (h : pos + bytes.length ≤ data.length) (hk : k ≤ bytes.length) :
    (copyInto data pos bytes).drop (pos + k) = bytes.drop k ++ data.drop (pos + bytes.length) := by
  have hlen : (data.take pos).length = pos := by
    rw [List.length_take, Nat.min_eq_left (by omega)]
  rw [copyInto, List.append_assoc, List.drop_append, hlen, List.drop_eq_nil_of_le (by omega),
    List.nil_append, Nat.add_sub_cancel_left, List.drop_append_of_le_length hk]

/-- Bytes in front of the range that is written stay. -/
theorem take_copyInto {data bytes : List UInt8} {pos n : Nat} (h : pos ≤ data.length)
    (hn : n ≤ pos) : (copyInto data pos bytes).take n = data.take n := by
  rw [copyInto, List.append_assoc, List.take_append_of_le_length (by rw [List.length_take]; omega),
    List.take_take, Nat.min_eq_left hn]

/-! ## The panics of slices -/

/-- `data[start..stop].copy_from_slice(src)`: a panic unless the range is one of `data` and as long as
    `src`. -/
def copyFromSlice? (data : List UInt8) (start stop : Nat) (src : List UInt8) : Option (List UInt8) :=
  if start ≤ stop ∧ stop ≤ data.length ∧ src.length = stop - start then
    some (copyInto data start src)
  else none

/-- `src[..stop]`: a panic unless there are as many bytes. -/
def sliceTo? (src : List UInt8) (stop : Nat) : Option (List UInt8) :=
  if stop ≤ src.length then some (src.take stop) else none

/-- `build_check_user_time_payload` with every panic its slices could end in. -/
def buildCheckUserTimePayload? (uid : UInt32) (startDate endDate : String) (lockFlagPos : UInt32) :
    Option (List UInt8) := do
  let data := List.replicate 17 0
  let startBytes := dateTimeToBytes startDate
  let endBytes := dateTimeToBytes endDate
  let startLen := min startBytes.length data.length
  let data ← copyFromSlice? data 0 startLen (← sliceTo? startBytes startLen)
  let data ← copyFromSlice? data 9 13 (BigEndian.toBytes32 lockFlagPos)
  let endLen := min endBytes.length 5
  let data ← copyFromSlice? data 5 (5 + endLen) (← sliceTo? endBytes endLen)
  copyFromSlice? data 13 17 (BigEndian.toBytes32 uid)

theorem sliceTo?_eq_some {src : List UInt8} {stop : Nat} (h : stop ≤ src.length) :
    sliceTo? src stop = some (src.take stop) := if_pos h

theorem copyFromSlice?_eq_some {data src : List UInt8} {start stop : Nat} (hstop : stop ≤ data.length)
    (hsrc : start + src.length = stop) :
    copyFromSlice? data start stop src = some (copyInto data start src) :=
  if_pos ⟨by omega, hstop, by omega⟩

/-! ## The four writes -/

section Writes

variable (startDate endDate : String) (lockFlagPos uid : UInt32)

/-- The buffer after the start date is written. -/
def withStart : List UInt8 :=
  copyInto (List.replicate 17 0) 0
    ((dateTimeToBytes startDate).take (min (dateTimeToBytes startDate).length 17))

/-- After the flag position. -/
def withFlagPos : List UInt8 := copyInto (withStart startDate) 9 (BigEndian.toBytes32 lockFlagPos)

/-- After the end date. -/
def withEnd : List UInt8 :=
  copyInto (withFlagPos startDate lockFlagPos) 5
    ((dateTimeToBytes endDate).take (min (dateTimeToBytes endDate).length 5))

theorem buildCheckUserTimePayload_eq : buildCheckUserTimePayload uid startDate endDate lockFlagPos =
    copyInto (withEnd startDate endDate lockFlagPos) 13 (BigEndian.toBytes32 uid) := rfl

theorem length_withStart : (withStart startDate).length = 17 := by
  rw [withStart, length_copyInto, List.length_replicate]
  rw [List.length_take, List.length_replicate]
  omega

theorem length_withFlagPos : (withFlagPos startDate lockFlagPos).length = 17 := by
  rw [withFlagPos, length_copyInto, length_withStart]
  rw [length_withStart, BigEndian.length_toBytes32]
  decide

theorem length_withEnd : (withEnd startDate endDate lockFlagPos).length = 17 := by
  rw [withEnd, length_copyInto, length_withFlagPos]
  rw [List.length_take, length_withFlagPos]
  omega

theorem length_buildCheckUserTimePayload :
    (buildCheckUserTimePayload uid startDate endDate lockFlagPos).length = 17 := by
  rw [buildCheckUserTimePayload_eq, length_copyInto, length_withEnd]
  rw [length_withEnd, BigEndian.length_toBytes32]

/-- No slice is out of range. -/
theorem buildCheckUserTimePayload?_eq_some :
    buildCheckUserTimePayload? uid startDate endDate lockFlagPos =
      some (buildCheckUserTimePayload uid startDate endDate lockFlagPos) := by
  have hstart : copyFromSlice? (List.replicate 17 0) 0 (min (dateTimeToBytes startDate).length 17)
      ((dateTimeToBytes startDate).take (min (dateTimeToBytes startDate).length 17)) =
        some (withStart startDate) := by
    refine copyFromSlice?_eq_some ?_ ?_
    · rw [List.length_replicate]
      omega
    · rw [List.length_take]
      omega
  have hflag : copyFromSlice? (withStart startDate) 9 13 (BigEndian.toBytes32 lockFlagPos) =
      some (withFlagPos startDate lockFlagPos) :=
    copyFromSlice?_eq_some (by rw [length_withStart]; decide) rfl
  have hend : copyFromSlice? (withFlagPos startDate lockFlagPos) 5
      (5 + min (dateTimeToBytes endDate).length 5)
      ((dateTimeToBytes endDate).take (min (dateTimeToBytes endDate).length 5)) =
        some (withEnd startDate endDate lockFlagPos) := by
    refine copyFromSlice?_eq_some ?_ ?_
    · rw [length_withFlagPos]
      omega
    · rw [List.length_take]
      omega
  have huid : copyFromSlice? (withEnd startDate endDate lockFlagPos) 13 17 (BigEndian.toBytes32 uid) =
      some (buildCheckUserTimePayload uid startDate endDate lockFlagPos) :=
    copyFromSlice?_eq_some (by rw [length_withEnd]) rfl
  simp only [buildCheckUserTimePayload?, List.length_replicate,
    sliceTo?_eq_some (Nat.min_le_left _ _), hstart, hflag, hend, huid, Option.bind_eq_bind,
    Option.bind_some]

/-- **The last seven bytes**, whatever the dates: the flag position without its top byte, and the uid. -/
theorem drop_buildCheckUserTimePayload :
    (buildCheckUserTimePayload uid startDate endDate lockFlagPos).drop 10 =
      (BigEndian.toBytes32 lockFlagPos).drop 1 ++ BigEndian.toBytes32 uid := by
  have hend : (withEnd startDate endDate lockFlagPos).drop 10 =
      (BigEndian.toBytes32 lockFlagPos).drop 1 ++ (withStart startDate).drop 13 := by
    have hfits : 9 + (BigEndian.toBytes32 lockFlagPos).length ≤ (withStart startDate).length := by
      rw [length_withStart, BigEndian.length_toBytes32]
      decide
    have hone : 1 ≤ (BigEndian.toBytes32 lockFlagPos).length := by
      rw [BigEndian.length_toBytes32]
      decide
    rw [withEnd, drop_copyInto_of_le, withFlagPos]
    · exact drop_copyInto_add hfits hone
    · rw [List.length_take, length_withFlagPos]
      omega
    · rw [List.length_take]
      omega
  have hlen := length_withEnd startDate endDate lockFlagPos
  have hthirteen : ((withEnd startDate endDate lockFlagPos).take 13).length = 13 := by
    rw [List.length_take, hlen]
    decide
  have hback : (withEnd startDate endDate lockFlagPos).drop (13 + (BigEndian.toBytes32 uid).length) = [] :=
    List.drop_eq_nil_of_le (by rw [hlen, BigEndian.length_toBytes32])
  rw [buildCheckUserTimePayload_eq, copyInto, hback, List.append_nil,
    List.drop_append_of_le_length (by omega), List.drop_take, hend]
  rfl

/-- Dates of five pairs each come first, and as they are. -/
theorem take_buildCheckUserTimePayload (hstart : (dateTimeToBytes startDate).length = 5)
    (hend : (dateTimeToBytes endDate).length = 5) :
    (buildCheckUserTimePayload uid startDate endDate lockFlagPos).take 10 =
      dateTimeToBytes startDate ++ dateTimeToBytes endDate := by
  have hfirst : (withFlagPos startDate lockFlagPos).take 5 = dateTimeToBytes startDate := by
    rw [withFlagPos, take_copyInto (by rw [length_withStart]; decide) (by decide), withStart, hstart,
      copyInto]
    simp [List.take_of_length_le, hstart]
  have hsecond : (withEnd startDate endDate lockFlagPos).take 10 =
      dateTimeToBytes startDate ++ dateTimeToBytes endDate := by
    rw [withEnd, hend, copyInto, hfirst]
    simp [List.take_append, List.take_of_length_le, hstart, hend]
  rw [buildCheckUserTimePayload_eq, take_copyInto (by rw [length_withEnd]; decide) (by decide), hsecond]

end Writes

/-! ## Dates -/

/-- Ten digits, as a date is written. -/
def TenDigits (date : String) : Prop := date.toList.length = 10 ∧ ∀ c ∈ date.toList, c.isDigit = true

/-- The number that two digits spell, as a byte. -/
def digitPair (a b : Char) : UInt8 := UInt8.ofNat (spelled [a, b])

/-- The numbers that the digits of a date spell in pairs. -/
def digitPairs : List Char → List UInt8
  | a :: b :: rest => digitPair a b :: digitPairs rest
  | _ => []

theorem toNat_digitPair {a b : Char} (ha : a.isDigit = true) (hb : b.isDigit = true) :
    (digitPair a b).toNat = (a.toNat - 48) * 10 + (b.toNat - 48) := by
  have ha' := toNat_of_isDigit ha
  have hb' := toNat_of_isDigit hb
  have hspelled : spelled [a, b] = (a.toNat - 48) * 10 + (b.toNat - 48) := by
    simp [spelled]
  rw [digitPair, hspelled, UInt8.toNat_ofNat', Nat.mod_eq_of_lt (by omega)]

theorem digitPair_inj {a b a' b' : Char} (ha : a.isDigit = true) (hb : b.isDigit = true)
    (ha' : a'.isDigit = true) (hb' : b'.isDigit = true) (h : digitPair a b = digitPair a' b') :
    a = a' ∧ b = b' := by
  have hnat := congrArg UInt8.toNat h
  rw [toNat_digitPair ha hb, toNat_digitPair ha' hb'] at hnat
  have h₁ := toNat_of_isDigit ha
  have h₂ := toNat_of_isDigit hb
  have h₃ := toNat_of_isDigit ha'
  have h₄ := toNat_of_isDigit hb'
  exact ⟨Char.toNat_inj.1 (by omega), Char.toNat_inj.1 (by omega)⟩

/-- Two digits are read as the number they spell. -/
theorem parse_digitPair {a b : Char} (ha : a.isDigit = true) (hb : b.isDigit = true) :
    ((String.fromUTF8? [byteOf a, byteOf b].toByteArray).bind fun part =>
      (parseUnsigned 255 part).map UInt8.ofNat) = some (digitPair a b) := by
  have hdigits : ∀ c ∈ [a, b], c.isDigit = true := by simp [ha, hb]
  have ha' := toNat_of_isDigit ha
  have hb' := toNat_of_isDigit hb
  have hutf8 : utf8Bytes (String.ofList [a, b]) = [byteOf a, byteOf b] :=
    utf8Bytes_ofList_ascii (by simp only [List.forall_mem_cons]; simp; omega)
  have htext : String.fromUTF8? [byteOf a, byteOf b].toByteArray = some (String.ofList [a, b]) :=
    hutf8 ▸ fromUtf8_utf8Bytes (String.ofList [a, b])
  have hparse : parseUnsigned 255 (String.ofList [a, b]) = some (spelled [a, b]) := by
    rw [parseUnsigned_eq_some_iff, digitsOf_of_digits hdigits]
    refine ⟨List.cons_ne_nil _ _, hdigits, rfl, ?_⟩
    simp only [spelled, List.foldl_cons, List.foldl_nil]
    have hzero : '0'.toNat = 48 := rfl
    omega
  rw [htext, Option.bind_some, hparse]
  rfl

theorem toList_eq_data (bytes : ByteArray) : bytes.toList = bytes.data.toList := by
  have hloop : ∀ i r, ByteArray.toList.loop bytes i r = r.reverse ++ bytes.data.toList.drop i := by
    intro i r
    fun_induction ByteArray.toList.loop bytes i r with
    | case1 i r h ih =>
        have hi : i < bytes.data.toList.length := h
        have hget : bytes.get! i = bytes.data.toList[i] := getElem!_pos bytes.data i hi
        rw [ih, List.drop_eq_getElem_cons hi, List.reverse_cons, List.append_assoc, hget]
        rfl
    | case2 i r h =>
        have hi : bytes.data.toList.length ≤ i := Nat.le_of_not_lt h
        rw [List.drop_eq_nil_of_le hi, List.append_nil]
  exact hloop 0 []

/-- **A date is read in pairs of digits.** -/
theorem dateTimeToBytes_of_tenDigits {date : String} (h : TenDigits date) :
    dateTimeToBytes date = digitPairs date.toList := by
  obtain ⟨hlen, hdigits⟩ := h
  have hbytes : date.toUTF8.toList = date.toList.map byteOf := by
    have hascii : ∀ c ∈ date.toList, c.toNat < 128 := by
      intro c hc
      have := toNat_of_isDigit (hdigits c hc)
      omega
    have hencoded := utf8Bytes_ofList_ascii hascii
    rw [String.ofList_toList] at hencoded
    rw [toList_eq_data]
    exact hencoded
  rw [dateTimeToBytes, List.filterMap_filterMap, hbytes]
  match hcs : date.toList, hlen with
  | [a, b, c, d, e, f, g, h, i, j], _ =>
      rw [hcs] at hdigits
      simp only [List.forall_mem_cons] at hdigits
      obtain ⟨ha, hb, hc, hd, he, hf, hg, hh, hi, hj, -⟩ := hdigits
      have hchunks : ([a, b, c, d, e, f, g, h, i, j].map byteOf).toChunks 2 =
          [[byteOf a, byteOf b], [byteOf c, byteOf d], [byteOf e, byteOf f], [byteOf g, byteOf h],
            [byteOf i, byteOf j]] := rfl
      rw [hchunks]
      simp only [List.filterMap_cons, parse_digitPair ha hb, parse_digitPair hc hd,
        parse_digitPair he hf, parse_digitPair hg hh, parse_digitPair hi hj, List.filterMap_nil]
      rfl

theorem length_digitPairs {date : String} (h : TenDigits date) :
    (digitPairs date.toList).length = 5 := by
  match hcs : date.toList, h.1 with
  | [_, _, _, _, _, _, _, _, _, _], _ => rfl

/-- Digits are told by the numbers their pairs spell. -/
theorem digitPairs_inj {cs cs' : List Char} (hlen : cs.length = cs'.length) (heven : cs.length % 2 = 0)
    (hcs : ∀ c ∈ cs, c.isDigit = true) (hcs' : ∀ c ∈ cs', c.isDigit = true)
    (h : digitPairs cs = digitPairs cs') : cs = cs' := by
  fun_induction digitPairs cs generalizing cs' with
  | case1 a b rest ih =>
      match cs', hlen with
      | a' :: b' :: rest', hlen =>
          simp only [List.forall_mem_cons] at hcs hcs'
          simp only [List.length_cons] at hlen heven
          rw [digitPairs, List.cons.injEq] at h
          obtain ⟨rfl, rfl⟩ := digitPair_inj hcs.1 hcs.2.1 hcs'.1 hcs'.2.1 h.1
          rw [ih (by omega) (by omega) hcs.2.2 hcs'.2.2 h.2]
  | case2 cs hshort =>
      match cs, hshort, hlen, heven with
      | [], _, hlen, _ => exact (List.length_eq_zero_iff.1 hlen.symm).symm
      | a :: b :: rest, hshort, _, _ => exact absurd rfl (hshort a b rest)

/-! ## The layout -/

/-- What a payload can be taken apart into. -/
structure CheckUserTimeFields where
  startDate : List UInt8
  endDate : List UInt8
  lockFlagPos : Nat
  uid : Nat
deriving DecidableEq, Repr

/-- Bytes 0 to 5, 5 to 10, 10 to 13 and 13 to 17. -/
def CheckUserTimeFields.read (payload : List UInt8) : CheckUserTimeFields :=
  { startDate := payload.take 5
    endDate := (payload.drop 5).take 5
    lockFlagPos := BigEndian.number ((payload.drop 10).take 3)
    uid := BigEndian.number ((payload.drop 13).take 4) }

theorem CheckUserTimeFields.read_of_drop {payload : List UInt8} {lockFlagPos uid : UInt32}
    (h : payload.drop 10 = (BigEndian.toBytes32 lockFlagPos).drop 1 ++ BigEndian.toBytes32 uid) :
    (read payload).lockFlagPos = lockFlagPos.toNat % 2 ^ 24 ∧ (read payload).uid = uid.toNat := by
  have huid : payload.drop 13 = BigEndian.toBytes32 uid := by
    have hdrop := congrArg (List.drop 3) h
    rw [List.drop_drop] at hdrop
    exact hdrop
  simp only [read, h, huid]
  refine ⟨?_, ?_⟩
  · rw [List.take_left' (by rw [List.length_drop, BigEndian.length_toBytes32])]
    exact BigEndian.number_drop_toBytes32 lockFlagPos
  · rw [List.take_of_length_le (by rw [BigEndian.length_toBytes32])]
    exact BigEndian.number_toBytes32 uid

theorem CheckUserTimeFields.read_of_take {payload startBytes endBytes : List UInt8}
    (h : payload.take 10 = startBytes ++ endBytes) (hstart : startBytes.length = 5) :
    (read payload).startDate = startBytes ∧ (read payload).endDate = endBytes := by
  refine ⟨?_, ?_⟩
  · have htake := congrArg (List.take 5) h
    rw [List.take_take, List.take_left' hstart] at htake
    exact htake
  · have hdrop := congrArg (List.drop 5) h
    rw [List.drop_take, List.drop_left' hstart] at hdrop
    exact hdrop

/-- The first ten bytes, if the dates are ten digits each. -/
theorem take_payload_of_tenDigits {startDate endDate : String} (hstart : TenDigits startDate)
    (hend : TenDigits endDate) (lockFlagPos uid : UInt32) :
    (buildCheckUserTimePayload uid startDate endDate lockFlagPos).take 10 =
      digitPairs startDate.toList ++ digitPairs endDate.toList := by
  rw [← dateTimeToBytes_of_tenDigits hstart, ← dateTimeToBytes_of_tenDigits hend]
  apply take_buildCheckUserTimePayload
  · rw [dateTimeToBytes_of_tenDigits hstart, length_digitPairs hstart]
  · rw [dateTimeToBytes_of_tenDigits hend, length_digitPairs hend]

/-- **The layout of the check-user-time payload.** Whatever the dates, no slice is out of range, there
    are seventeen bytes, and the last seven are the low 24 bits of the flag position and the uid. Dates
    of ten digits each fill the first ten with their pairs, and then the payload says everything but
    the top byte of the flag position. -/
theorem check_user_time_payload_layout (uid lockFlagPos : UInt32) (startDate endDate : String) :
    let payload := buildCheckUserTimePayload uid startDate endDate lockFlagPos
    let fields := CheckUserTimeFields.read payload
    buildCheckUserTimePayload? uid startDate endDate lockFlagPos = some payload ∧
    payload.length = 17 ∧
    fields.lockFlagPos = lockFlagPos.toNat % 2 ^ 24 ∧ fields.uid = uid.toNat ∧
    (TenDigits startDate → TenDigits endDate →
      fields.startDate = digitPairs startDate.toList ∧ fields.endDate = digitPairs endDate.toList ∧
      ∀ (uid' lockFlagPos' : UInt32) (startDate' endDate' : String),
        TenDigits startDate' → TenDigits endDate' →
        (buildCheckUserTimePayload uid' startDate' endDate' lockFlagPos' = payload ↔
          startDate' = startDate ∧ endDate' = endDate ∧
          lockFlagPos'.toNat % 2 ^ 24 = lockFlagPos.toNat % 2 ^ 24 ∧ uid' = uid)) := by
  have hread := fun (uid lockFlagPos : UInt32) (startDate endDate : String) =>
    CheckUserTimeFields.read_of_drop
      (drop_buildCheckUserTimePayload startDate endDate lockFlagPos uid)
  have hdates := fun (uid lockFlagPos : UInt32) (startDate endDate : String)
      (hs : TenDigits startDate) (he : TenDigits endDate) =>
    CheckUserTimeFields.read_of_take (take_payload_of_tenDigits hs he lockFlagPos uid)
      (length_digitPairs hs)
  have hdate : ∀ {date date' : String}, TenDigits date → TenDigits date' →
      digitPairs date.toList = digitPairs date'.toList → date = date' := by
    intro date date' h h' heq
    exact String.toList_inj.1 (digitPairs_inj (h.1.trans h'.1.symm) (by rw [h.1]) h.2 h'.2 heq)
  obtain ⟨hflag, huid⟩ := hread uid lockFlagPos startDate endDate
  refine ⟨buildCheckUserTimePayload?_eq_some startDate endDate lockFlagPos uid,
    length_buildCheckUserTimePayload startDate endDate lockFlagPos uid, hflag, huid, ?_⟩
  intro hstart hend
  obtain ⟨hs, he⟩ := hdates uid lockFlagPos startDate endDate hstart hend
  refine ⟨hs, he, fun uid' lockFlagPos' startDate' endDate' hstart' hend' => ?_⟩
  obtain ⟨hflag', huid'⟩ := hread uid' lockFlagPos' startDate' endDate'
  obtain ⟨hs', he'⟩ := hdates uid' lockFlagPos' startDate' endDate' hstart' hend'
  constructor
  · intro heq
    rw [heq] at hflag' huid' hs' he'
    exact ⟨hdate hstart' hstart (hs'.symm.trans hs), hdate hend' hend (he'.symm.trans he),
      hflag'.symm.trans hflag, UInt32.toNat_inj.1 (huid'.symm.trans huid)⟩
  · rintro ⟨rfl, rfl, hmod, rfl⟩
    have hlow : (BigEndian.toBytes32 lockFlagPos').drop 1 = (BigEndian.toBytes32 lockFlagPos).drop 1 := by
      refine BigEndian.number_inj rfl ?_
      rw [BigEndian.number_drop_toBytes32, BigEndian.number_drop_toBytes32]
      exact hmod
    have hfirst := fun flagPos => take_payload_of_tenDigits hstart hend flagPos uid'
    have hlast := fun flagPos => drop_buildCheckUserTimePayload startDate' endDate' flagPos uid'
    rw [← List.take_append_drop 10 (buildCheckUserTimePayload uid' startDate' endDate' lockFlagPos'),
      hfirst, hlast, hlow, ← hfirst lockFlagPos, ← hlast, List.take_append_drop]

end TTLock
