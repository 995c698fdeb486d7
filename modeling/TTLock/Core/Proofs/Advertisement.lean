import Mathlib.Data.List.MinMax
import Mathlib.Data.List.Nodup
import Mathlib.Data.Prod.Lex
import TTLock.Core.Advertisement

set_option autoImplicit false

/-! # What advertisements come to

Of the entries of one device the selection takes the greatest in a strict order, so that neither the
order of the entries nor those that lose have a say in it. Of one payload the last six bytes are the
address and should be nothing else; in the longer layout the shortest payload has its battery byte
there too. -/

namespace TTLock

/-! ## Which entry is best -/

/-- What an entry says. -/
def parseEntry (entry : UInt16 × List UInt8) : Advertisement :=
  parseManufacturerData (fullPayload entry.1 entry.2)

/-- Whether it comes from the lock that is expected. -/
def entryMatches (expected : Option String) (entry : UInt16 × List UInt8) : Bool :=
  (parseEntry entry).matchesAddress expected

namespace Advertisement

/-- The shapes, the most telling one last. -/
def shape : Advertisement → Nat
  | .unrecognized => 0
  | .dfu => 1
  | .stateless _ => 2
  | .stateful _ _ => 3

/-- The rank is the shape first and the match second. -/
theorem rank_matchesAddress (ad : Advertisement) (expected : Option String) :
    ad.rank (ad.matchesAddress expected) =
      if ad.shape < 2 then ad.shape
      else 2 * ad.shape - 2 + (ad.matchesAddress expected).toNat := by
  cases ad with
  | unrecognized => rfl
  | dfu => rfl
  | stateless identity =>
      cases h : (stateless identity).matchesAddress expected <;> rfl
  | stateful identity status =>
      cases h : (stateful identity status).matchesAddress expected <;> rfl

/-- Without an address nothing matches. -/
theorem matchesAddress_of_shape_lt {ad : Advertisement} (expected : Option String)
    (h : ad.shape < 2) : ad.matchesAddress expected = false := by
  cases ad with
  | unrecognized => rfl
  | dfu => rfl
  | stateless identity => exact absurd h (show ¬2 < 2 by decide)
  | stateful identity status => exact absurd h (show ¬3 < 2 by decide)

end Advertisement

/-- The first entry is the better one: by its shape, then by whether it matches, then by the smaller
    company identifier. -/
def Preferred (expected : Option String) (e f : UInt16 × List UInt8) : Prop :=
  (parseEntry f).shape < (parseEntry e).shape ∨
  (parseEntry f).shape = (parseEntry e).shape ∧
    (entryMatches expected f = false ∧ entryMatches expected e = true ∨
    entryMatches expected f = entryMatches expected e ∧ e.1 < f.1)

/-- It is better than every other. -/
def Best (expected : Option String) (entries : List (UInt16 × List UInt8))
    (e : UInt16 × List UInt8) : Prop :=
  e ∈ entries ∧ ∀ f ∈ entries, f ≠ e → Preferred expected e f

/-- What the selection compares. -/
def entryKey (expected : Option String) (entry : UInt16 × List UInt8) : ℕ ×ₗ ℕᵒᵈ :=
  toLex ((parseEntry entry).rank (entryMatches expected entry), OrderDual.toDual entry.1.toNat)

section

variable {expected : Option String} {entries : List (UInt16 × List UInt8)}
  {e f : UInt16 × List UInt8}

theorem entryKey_lt_iff : entryKey expected f < entryKey expected e ↔
    (parseEntry f).rank (entryMatches expected f) < (parseEntry e).rank (entryMatches expected e) ∨
    (parseEntry f).rank (entryMatches expected f) = (parseEntry e).rank (entryMatches expected e) ∧
      e.1 < f.1 :=
  Prod.Lex.toLex_lt_toLex

theorem preferred_iff : Preferred expected e f ↔ entryKey expected f < entryKey expected e := by
  rw [entryKey_lt_iff, Preferred, entryMatches, entryMatches, Advertisement.rank_matchesAddress,
    Advertisement.rank_matchesAddress]
  have hf := @Advertisement.matchesAddress_of_shape_lt (parseEntry f) expected
  have he := @Advertisement.matchesAddress_of_shape_lt (parseEntry e) expected
  generalize (parseEntry f).shape = m at hf ⊢
  generalize (parseEntry e).shape = n at he ⊢
  generalize (parseEntry f).matchesAddress expected = x at hf ⊢
  generalize (parseEntry e).matchesAddress expected = y at he ⊢
  cases x <;> cases y <;> simp only [Bool.toNat_true, Bool.toNat_false, Bool.true_eq_false,
    Bool.false_eq_true, true_and, and_true, false_and, and_false, or_false, false_or] at * <;> grind

theorem Preferred.asymm (h : Preferred expected e f) : ¬Preferred expected f e := by
  rw [preferred_iff] at h ⊢
  exact lt_asymm h

/-- Two entries cannot both be best. -/
theorem Best.unique (he : Best expected entries e) (hf : Best expected entries f) : f = e := by
  by_contra hne
  exact (he.2 f hf.1 hne).asymm (hf.2 e he.1 (Ne.symm hne))

theorem Best.perm {entries' : List (UInt16 × List UInt8)} (he : Best expected entries e)
    (hperm : entries'.Perm entries) : Best expected entries' e :=
  ⟨hperm.mem_iff.2 he.1, fun f hf => he.2 f (hperm.mem_iff.1 hf)⟩

/-- What the loop keeps of an entry. -/
def keep (expected : Option String) (entry : UInt16 × List UInt8) : Nat × UInt16 × Advertisement :=
  ((parseEntry entry).rank (entryMatches expected entry), entry.1, parseEntry entry)

theorem selectEntry_some (best entry : UInt16 × List UInt8) :
    selectEntry expected (some (keep expected best)) entry =
      if entryKey expected best < entryKey expected entry then some (keep expected entry)
      else some (keep expected best) := by
  refine if_congr ?_ rfl rfl
  rw [entryKey_lt_iff, Bool.or_eq_true, Bool.and_eq_true, decide_eq_true_iff, decide_eq_true_iff,
    beq_iff_eq, eq_comm (a := (parseEntry best).rank (entryMatches expected best))]
  exact Iff.rfl

/-- The loop of the selection. -/
theorem foldl_selectEntry (expected : Option String) (entries : List (UInt16 × List UInt8)) :
    entries.foldl (selectEntry expected) none =
      (entries.argmax (entryKey expected)).map (keep expected) := by
  have hround : ∀ (best : Option (UInt16 × List UInt8)) (entry : UInt16 × List UInt8),
      selectEntry expected (best.map (keep expected)) entry =
        (List.argAux (fun b c => entryKey expected c < entryKey expected b) best entry).map
          (keep expected) := by
    intro best entry
    cases best with
    | none => rfl
    | some best =>
        show selectEntry expected (some (keep expected best)) entry = Option.map (keep expected)
          (if entryKey expected best < entryKey expected entry then some entry else some best)
        rw [selectEntry_some]
        by_cases hlt : entryKey expected best < entryKey expected entry
        · rw [if_pos hlt, if_pos hlt]
          rfl
        · rw [if_neg hlt, if_neg hlt]
          rfl
  exact @List.foldl_hom _ _ _ (Option.map (keep expected)) _ _ entries none hround

end

/-- Where identifiers are distinct, the greatest entry is strictly so. -/
theorem best_of_mem_argmax {expected : Option String} {m : ManufacturerData} {e : UInt16 × List UInt8}
    (he : e ∈ m.entries.argmax (entryKey expected)) : Best expected m.entries e := by
  have hmem := List.argmax_mem he
  refine ⟨hmem, fun f hf hne => preferred_iff.2 (lt_of_le_of_ne (List.le_of_mem_argmax hf he) ?_)⟩
  intro hkey
  have hid : f.1.toNat = e.1.toNat := congrArg (fun k => OrderDual.ofDual (ofLex k).2) hkey
  exact hne (List.inj_on_of_nodup_map m.nodup hf hmem (UInt16.toNat.inj hid))

/-- The selection returns what the best entry says. -/
theorem parseManufacturerMap_best {expected : Option String} {m : ManufacturerData}
    {e : UInt16 × List UInt8} (he : Best expected m.entries e) :
    parseManufacturerMap m expected = parseEntry e := by
  rw [parseManufacturerMap, foldl_selectEntry]
  cases hmax : m.entries.argmax (entryKey expected) with
  | none =>
      rw [List.argmax_eq_none] at hmax
      rw [hmax] at he
      exact absurd he.1 List.not_mem_nil
  | some winner =>
      obtain rfl := he.unique (best_of_mem_argmax hmax)
      rfl

theorem exists_best (expected : Option String) {m : ManufacturerData} (hne : m.entries ≠ []) :
    ∃ e, Best expected m.entries e := by
  cases hmax : m.entries.argmax (entryKey expected) with
  | none => exact absurd (List.argmax_eq_none.1 hmax) hne
  | some e => exact ⟨e, best_of_mem_argmax hmax⟩

theorem parseManufacturerMap_nil (expected : Option String) {m : ManufacturerData}
    (h : m.entries = []) : parseManufacturerMap m expected = .unrecognized := by
  rw [parseManufacturerMap, h]
  rfl

theorem parseManufacturerMap_perm (expected : Option String) {m m' : ManufacturerData}
    (h : m'.entries.Perm m.entries) : parseManufacturerMap m' expected = parseManufacturerMap m expected := by
  by_cases hne : m.entries = []
  · rw [parseManufacturerMap_nil expected hne, parseManufacturerMap_nil expected (by simpa [hne] using h)]
  · obtain ⟨e, he⟩ := exists_best expected hne
    rw [parseManufacturerMap_best he, parseManufacturerMap_best (he.perm h)]

/-- An entry that loses might as well not be there. -/
theorem parseManufacturerMap_cons {expected : Option String} {m m' : ManufacturerData}
    {e : UInt16 × List UInt8} (h : m'.entries.Perm (e :: m.entries))
    (hlost : ¬Best expected m'.entries e) :
    parseManufacturerMap m' expected = parseManufacturerMap m expected := by
  have hne : m'.entries ≠ [] := by
    intro hnil
    rw [hnil] at h
    exact absurd h.symm.eq_nil (List.cons_ne_nil _ _)
  obtain ⟨winner, hwinner⟩ := exists_best expected hne
  have hmem : winner ∈ m.entries := by
    rcases List.mem_cons.1 (h.mem_iff.1 hwinner.1) with rfl | hmem
    · exact absurd hwinner hlost
    · exact hmem
  have hbest : Best expected m.entries winner :=
    ⟨hmem, fun f hf => hwinner.2 f (h.mem_iff.2 (List.mem_cons_of_mem _ hf))⟩
  rw [parseManufacturerMap_best hwinner, parseManufacturerMap_best hbest]

/-- **The choice is total and free of order**: it is that of the one best entry, and an entry that is
    not chosen can come and go. -/
theorem parseManufacturerMap_order_free (m : ManufacturerData) (expected : Option String) :
    (∀ m' : ManufacturerData, m'.entries.Perm m.entries →
      parseManufacturerMap m' expected = parseManufacturerMap m expected) ∧
    (m.entries = [] → parseManufacturerMap m expected = .unrecognized) ∧
    (m.entries ≠ [] → ∃ e, Best expected m.entries e ∧ (∀ f, Best expected m.entries f → f = e) ∧
      parseManufacturerMap m expected = parseEntry e) ∧
    ∀ (m' : ManufacturerData) (e : UInt16 × List UInt8), m'.entries.Perm (e :: m.entries) →
      ¬Best expected m'.entries e →
      parseManufacturerMap m' expected = parseManufacturerMap m expected := by
  refine ⟨fun m' h => parseManufacturerMap_perm expected h, parseManufacturerMap_nil expected, ?_,
    fun m' e h hlost => parseManufacturerMap_cons h hlost⟩
  intro hne
  obtain ⟨e, he⟩ := exists_best expected hne
  exact ⟨e, he, fun f hf => he.unique hf, parseManufacturerMap_best he⟩

/-! ## Addresses -/

/-- The last six bytes. -/
def trailer (data : List UInt8) : List UInt8 := data.drop (data.length - 6)

theorem length_trailer {data : List UInt8} (h : 6 ≤ data.length) : (trailer data).length = 6 := by
  rw [trailer, List.length_drop]
  omega

theorem upperHexDigit_inj : ∀ m < 16, ∀ n < 16, upperHexDigit m = upperHexDigit n → m = n := by
  decide

theorem upperHexByte_inj {x y : UInt8} (h : upperHexByte x = upperHexByte y) : x = y := by
  obtain ⟨hhigh, hlow⟩ := List.cons.inj h
  have hx := x.toNat_lt
  have hy := y.toNat_lt
  have hdiv := upperHexDigit_inj _ (by omega) _ (by omega) hhigh
  have hmod := upperHexDigit_inj _ (Nat.mod_lt _ (by decide)) _ (Nat.mod_lt _ (by decide))
    (List.cons.inj hlow).1
  exact UInt8.toNat.inj (by omega)

/-- Bytes in hex are as many blocks of two digits, so that they can be told apart. -/
theorem macString_inj {xs ys : List UInt8} (hlen : xs.length = ys.length)
    (h : macString xs = macString ys) : xs = ys := by
  have hchars := String.ofList_inj.1 h
  clear h
  induction xs generalizing ys with
  | nil => exact (List.eq_nil_of_length_eq_zero hlen.symm).symm
  | cons x xs ih =>
      obtain ⟨y, ys, rfl⟩ := List.exists_cons_of_length_eq_add_one hlen.symm
      have hrest : xs.length = ys.length := Nat.succ.inj hlen
      cases xs with
      | nil =>
          obtain rfl := List.eq_nil_of_length_eq_zero hrest.symm
          simp only [List.map_cons, List.map_nil, List.intercalate_singleton] at hchars
          rw [upperHexByte_inj hchars]
      | cons x' xs =>
          obtain ⟨y', ys, rfl⟩ := List.exists_cons_of_length_eq_add_one hrest.symm
          simp only [List.map_cons, List.intercalate_cons_cons, List.append_assoc] at hchars
          obtain ⟨hhead, htail⟩ := List.append_inj hchars rfl
          have hx := upperHexByte_inj hhead
          have hxs := ih hrest (List.append_cancel_left htail)
          rw [hx, hxs]

/-! ## One payload by its bytes -/

namespace Advertisement

/-- The same without the address. -/
def withoutAddress : Advertisement → Advertisement
  | .unrecognized => .unrecognized
  | .dfu => .dfu
  | .stateless identity => .stateless { identity with address := none }
  | .stateful identity status => .stateful { identity with address := none } status

end Advertisement

/-- What the header, the flags and the battery byte of one layout say. -/
def readingOf (protocolType protocolVersion scene flags battery : UInt8) (address : String) :
    Advertisement :=
  let identity : LockIdentity :=
    { address := some address
      version := { protocolType, protocolVersion, scene, groupId := 1, orgId := 1 } }
  if !carriesStatus protocolType protocolVersion then .stateless identity
  else .stateful identity
    { bolt := if flags &&& 0x01 = 0 then .locked else .unlocked
      battery := Percent.new battery
      hasEvents := flags &&& 0x02 != 0
      isSettingMode := flags &&& 0x04 != 0 }

/-- What a payload says whose bytes these are. -/
def readingAt (byte : Nat → UInt8) (address : String) : Advertisement :=
  if (byte 0 = 18 ∧ byte 1 = 25) ∨ (byte 0 = 0xff ∧ byte 1 = 0xff) then .dfu
  else if byte 0 = 5 ∧ byte 1 = 3 then readingOf (byte 0) (byte 1) (byte 2) (byte 3) (byte 4) address
  else readingOf (byte 4) (byte 5) (byte 7) (byte 8) (byte 9) address

theorem parseManufacturerData_short {data : List UInt8} (h : data.length < 15) :
    parseManufacturerData data = .unrecognized := dif_pos h

theorem parseManufacturerData_eq {data : List UInt8} (h : 15 ≤ data.length) :
    parseManufacturerData data =
      readingAt (fun i => data.getD i 0) (macString (trailer data).reverse) := by
  have hat : ∀ i (hi : i < 15), data.getD i 0 = data[i] := by
    intro i hi
    rw [List.getD_eq_getElem?_getD, List.getElem?_eq_getElem (by omega), Option.getD_some]
  have hsome : ∀ i (hi : i < 15), data[i]? = some data[i] := by
    intro i hi
    exact List.getElem?_eq_getElem (by omega)
  rw [parseManufacturerData, dif_neg (by omega), readingAt]
  simp only [hat 0 (by decide), hat 1 (by decide), hat 2 (by decide), hat 3 (by decide),
    hat 4 (by decide), hat 5 (by decide), hat 7 (by decide), hat 8 (by decide), hat 9 (by decide)]
  by_cases hdfu : (data[0] = 18 ∧ data[1] = 25) ∨ (data[0] = 0xff ∧ data[1] = 0xff)
  · rw [if_pos hdfu, if_pos hdfu]
  · rw [if_neg hdfu, if_neg hdfu]
    by_cases hv3 : data[0] = 5 ∧ data[1] = 3
    · rw [if_pos hv3, if_pos hv3]
      simp only [hsome 3 (by decide), hsome 4 (by decide)]
      rfl
    · rw [if_neg hv3, if_neg hv3]
      simp only [hsome 8 (by decide), hsome 9 (by decide)]
      rfl

/-! ## What the address has a say in -/

theorem Percent.new_eq_iff {x y : UInt8} :
    Percent.new x = Percent.new y ↔ x = y ∨ (100 < x ∧ 100 < y) := by
  unfold Percent.new
  by_cases hx : x ≤ 100
  · rw [dif_pos hx]
    by_cases hy : y ≤ 100
    · rw [dif_pos hy, Option.some.injEq, Percent.mk.injEq,
        or_iff_left fun h => absurd hx (UInt8.not_le.2 h.1)]
    · rw [dif_neg hy]
      refine iff_of_false (Option.some_ne_none _) ?_
      rintro (rfl | ⟨h, -⟩)
      · exact hy hx
      · exact absurd hx (UInt8.not_le.2 h)
  · rw [dif_neg hx]
    by_cases hy : y ≤ 100
    · rw [dif_pos hy]
      refine iff_of_false (Option.some_ne_none _).symm ?_
      rintro (rfl | ⟨-, h⟩)
      · exact hx hy
      · exact absurd hy (UInt8.not_le.2 h)
    · rw [dif_neg hy]
      exact iff_of_true rfl (.inr ⟨UInt8.not_le.1 hx, UInt8.not_le.1 hy⟩)

/-- All that may differ is the battery byte, and only where it is read. -/
theorem withoutAddress_readingOf (protocolType protocolVersion scene flags battery battery' : UInt8)
    (address address' : String) :
    (readingOf protocolType protocolVersion scene flags battery address).withoutAddress =
        (readingOf protocolType protocolVersion scene flags battery' address').withoutAddress ↔
      (carriesStatus protocolType protocolVersion = true →
        battery = battery' ∨ (100 < battery ∧ 100 < battery')) := by
  rw [← Percent.new_eq_iff, readingOf, readingOf]
  cases carriesStatus protocolType protocolVersion with
  | false => exact iff_of_true rfl fun h => absurd h (by decide)
  | true =>
      constructor
      · intro h _
        exact (LockStatus.mk.inj (Advertisement.stateful.inj h).2).2.1
      · intro h
        show (Advertisement.stateful _ _).withoutAddress = (Advertisement.stateful _ _).withoutAddress
        rw [h rfl]
        rfl

/-- The two agree on everything but their last six bytes. -/
structure SameButTrailer (a b : List UInt8) : Prop where
  length : a.length = b.length
  front : a.take (a.length - 6) = b.take (b.length - 6)

theorem SameButTrailer.getD {a b : List UInt8} (h : SameButTrailer a b) {i : Nat}
    (hi : i + 6 < a.length) : a.getD i 0 = b.getD i 0 := by
  have hfront : (a.take (a.length - 6))[i]? = (b.take (b.length - 6))[i]? := by rw [h.front]
  have hlen := h.length
  rw [List.getElem?_take_of_lt (by omega), List.getElem?_take_of_lt (by omega)] at hfront
  rw [List.getD_eq_getElem?_getD, List.getD_eq_getElem?_getD, hfront]

/-- A payload of the longer layout, with a battery byte, in which that byte is the first of the last
    six: the shortest that is looked at. -/
structure BatteryInTrailer (data : List UInt8) : Prop where
  length : data.length = 15
  not_dfu : ¬((data.getD 0 0 = 18 ∧ data.getD 1 0 = 25) ∨ (data.getD 0 0 = 0xff ∧ data.getD 1 0 = 0xff))
  not_v3 : ¬(data.getD 0 0 = 5 ∧ data.getD 1 0 = 3)
  status : carriesStatus (data.getD 4 0) (data.getD 5 0) = true

/-- Two payloads read alike, except for the address, where they differ in nothing else, or at least not
    in a battery byte that is part of it. -/
theorem withoutAddress_eq_iff {a b : List UInt8} (h : SameButTrailer a b) :
    (parseManufacturerData a).withoutAddress = (parseManufacturerData b).withoutAddress ↔
      (BatteryInTrailer a → a.getD 9 0 = b.getD 9 0 ∨ (100 < a.getD 9 0 ∧ 100 < b.getD 9 0)) := by
  have hlen := h.length
  rcases Nat.lt_or_ge a.length 15 with hshort | hlong
  · rw [parseManufacturerData_short hshort, parseManufacturerData_short (hlen ▸ hshort)]
    refine iff_of_true rfl fun hin => ?_
    have := hin.length
    omega
  · have hat : ∀ i, i < 9 → b.getD i 0 = a.getD i 0 := fun i hi => (h.getD (by omega)).symm
    rw [parseManufacturerData_eq hlong, parseManufacturerData_eq (hlen ▸ hlong), readingAt, readingAt,
      hat 0 (by decide), hat 1 (by decide), hat 2 (by decide), hat 3 (by decide), hat 4 (by decide),
      hat 5 (by decide), hat 7 (by decide), hat 8 (by decide)]
    by_cases hdfu : (a.getD 0 0 = 18 ∧ a.getD 1 0 = 25) ∨ (a.getD 0 0 = 0xff ∧ a.getD 1 0 = 0xff)
    · rw [if_pos hdfu, if_pos hdfu]
      exact iff_of_true rfl fun hin => absurd hdfu hin.not_dfu
    · rw [if_neg hdfu, if_neg hdfu]
      by_cases hv3 : a.getD 0 0 = 5 ∧ a.getD 1 0 = 3
      · rw [if_pos hv3, if_pos hv3]
        refine iff_of_true ?_ fun hin => absurd hv3 hin.not_v3
        exact (withoutAddress_readingOf _ _ _ _ _ _ _ _).2 fun _ => .inl rfl
      · rw [if_neg hv3, if_neg hv3, withoutAddress_readingOf]
        rcases Nat.lt_or_eq_of_le hlong with hroom | hexact
        · have h9 := h.getD (show 9 + 6 < a.length from hroom)
          exact iff_of_true (fun _ => .inl h9) fun _ => .inl h9
        · exact ⟨fun hread hin => hread hin.status, fun hread hstatus =>
            hread ⟨hexact.symm, hdfu, hv3, hstatus⟩⟩

/-- A payload that is a lock's is long enough, and its address is its trailer backwards. -/
theorem address_of_identity {data : List UInt8} (h : (parseManufacturerData data).identity.isSome) :
    15 ≤ data.length ∧
      (parseManufacturerData data).address = some (macString (trailer data).reverse) := by
  rcases Nat.lt_or_ge data.length 15 with hshort | hlong
  · rw [parseManufacturerData_short hshort] at h
    cases h
  · refine ⟨hlong, ?_⟩
    have hreading : ∀ {t v s f p : UInt8} {address : String},
        (readingOf t v s f p address).address = some address := by
      intro t v s f p address
      rw [readingOf]
      cases carriesStatus t v <;> rfl
    rw [parseManufacturerData_eq hlong, readingAt] at h ⊢
    split at h
    · cases h
    · rename_i hdfu
      rw [if_neg hdfu]
      split
      · exact hreading
      · exact hreading

theorem trailer_eq_of_address {a b : List UInt8} (ha : (parseManufacturerData a).identity.isSome)
    (hb : (parseManufacturerData b).identity.isSome)
    (h : (parseManufacturerData a).address = (parseManufacturerData b).address) :
    trailer a = trailer b := by
  obtain ⟨hlena, haddra⟩ := address_of_identity ha
  obtain ⟨hlenb, haddrb⟩ := address_of_identity hb
  rw [haddra, haddrb] at h
  have hlen : (trailer a).reverse.length = (trailer b).reverse.length := by
    rw [List.length_reverse, List.length_reverse, length_trailer (by omega), length_trailer (by omega)]
  exact List.reverse_injective (macString_inj hlen (Option.some.inj h))

/-- **The address and the status are apart**: bytes of the address are read for nothing else, and it is
    all of them. The battery byte of the shortest payload of the longer layout is one of them. -/
theorem address_apart_iff (a b : List UInt8) :
    ((SameButTrailer a b →
        (parseManufacturerData a).withoutAddress = (parseManufacturerData b).withoutAddress) ∧
      ((parseManufacturerData a).identity.isSome → (parseManufacturerData b).identity.isSome →
        (parseManufacturerData a).address = (parseManufacturerData b).address →
          trailer a = trailer b)) ↔
      (SameButTrailer a b → BatteryInTrailer a →
        a.getD 9 0 = b.getD 9 0 ∨ (100 < a.getD 9 0 ∧ 100 < b.getD 9 0)) := by
  constructor
  · intro h hsame
    exact (withoutAddress_eq_iff hsame).1 (h.1 hsame)
  · intro h
    refine ⟨?_, ?_⟩
    · intro hsame
      exact (withoutAddress_eq_iff hsame).2 (h hsame)
    · intro ha hb haddress
      exact trailer_eq_of_address ha hb haddress

/-- The shortest payload of a later family, from the lock whose address ends in `last`. -/
def sampleShortest (last : UInt8) : List UInt8 :=
  [0x11, 0x22, 0x33, 0x44, 10, 1, 0, 2, 0, last, 5, 4, 3, 2, 1]

/-- Its battery level is the last byte of the address. -/
theorem sampleShortest_battery : SameButTrailer (sampleShortest 62) (sampleShortest 30) ∧
    (parseManufacturerData (sampleShortest 62)).status =
      some ⟨.locked, some ⟨62, by decide⟩, false, false⟩ ∧
    (parseManufacturerData (sampleShortest 30)).status =
      some ⟨.locked, some ⟨30, by decide⟩, false, false⟩ :=
  ⟨⟨rfl, rfl⟩, by decide +kernel, by decide +kernel⟩

end TTLock
