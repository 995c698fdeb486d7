import Mathlib.Data.Nat.Find
import TTLock.Core.Proofs.Crc

set_option autoImplicit false

/-! # The table against the shift register

Every entry of the table is what eight shifts of a register make of its index; the deviation at index
33 is put in front of the table, which itself is the standard one. Up to the first byte that is looked
up at 33 the checksum is therefore the standard one, and right behind it the two differ. -/

namespace TTLock

/-! ## The register -/

/-- One shift of a reflected register, with polynomial 0x8C. -/
def crcShift (crc : Nat) : Nat := if crc &&& 1 = 1 then (crc >>> 1) ^^^ 0x8c else crc >>> 1

/-- What eight shifts make of an index. -/
def crcShift8 (x : UInt8) : UInt8 := UInt8.ofNat (Nat.repeat crcShift 8 x.toNat)

/-- CRC-8/MAXIM, bit by bit: `_crc8` of the Python tests (`ttlock-py/tests/test_smoke.py`). -/
def smokeCrc8 (data : List UInt8) : Nat :=
  data.foldl (fun crc byte => Nat.repeat crcShift 8 (crc ^^^ byte.toNat)) 0 &&& 0xff

theorem crcShift8_eq_table :
    ∀ p < 256, Nat.repeat crcShift 8 p = (DSCRC_TABLE[p]?.getD 0).toNat := by
  decide +kernel

/-- **The table.** The value for an index is the shifted register, but for index 33. The entry that is
    hidden there is 125, not the 31 of the comment in the source. -/
theorem tableValue_eq_crcShift8 (x : UInt8) :
    tableValue x.toNat = if x = 33 then 7 else crcShift8 x := by
  have hx := x.toNat_lt
  have hmask : x.toNat &&& 0xff = x.toNat := by
    rw [Nat.and_two_pow_sub_one_eq_mod x.toNat 8, Nat.mod_eq_of_lt hx]
  rw [tableValue]
  by_cases h : x = 33
  · rw [if_pos h, if_pos (by rw [h]; rfl)]
  · have hlt : x.toNat < DSCRC_TABLE.length := length_DSCRC_TABLE ▸ hx
    rw [if_neg h, if_neg (by simpa only [← UInt8.toNat_inj, UInt8.reduceToNat] using h), crcShift8,
      crcShift8_eq_table _ hx, UInt8.ofNat_toNat, List.getElem?_eq_getElem hlt, Option.getD_some]
    simp only [List.get_eq_getElem, hmask]

/-! ## Whole strings -/

/-- The register after a string of bytes. -/
def crcRegister (data : List UInt8) : UInt8 :=
  data.foldl (fun crc byte => crcShift8 (crc ^^^ byte)) 0

theorem toNat_crcShift8 (x : UInt8) : (crcShift8 x).toNat = Nat.repeat crcShift 8 x.toNat := by
  rw [crcShift8, crcShift8_eq_table _ x.toNat_lt, UInt8.ofNat_toNat]

/-- The register of the Python tests never outgrows a byte. -/
theorem smokeCrc8_eq (data : List UInt8) : smokeCrc8 data = (crcRegister data).toNat := by
  have hfold : ∀ crc : UInt8,
      data.foldl (fun crc byte => Nat.repeat crcShift 8 (crc ^^^ byte.toNat)) crc.toNat =
        (data.foldl (fun crc byte => crcShift8 (crc ^^^ byte)) crc).toNat := by
    induction data with
    | nil =>
        intro crc
        rfl
    | cons byte rest ih =>
        intro crc
        rw [List.foldl_cons, List.foldl_cons, ← ih, toNat_crcShift8, UInt8.toNat_xor]
  have hlt := (crcRegister data).toNat_lt
  rw [smokeCrc8, Nat.and_two_pow_sub_one_eq_mod _ 8]
  exact (congrArg (· % 2 ^ 8) (hfold 0)).trans (Nat.mod_eq_of_lt hlt)

theorem crcRegister_take_succ {data : List UInt8} {k : Nat} (hk : k < data.length) :
    crcRegister (data.take (k + 1)) =
      crcShift8 (crcRegister (data.take k) ^^^ data[k]?.getD 0) := by
  rw [List.take_succ_eq_append_getElem hk, crcRegister, List.foldl_append, List.foldl_cons,
    List.foldl_nil, List.getElem?_eq_getElem hk]
  rfl

/-- The two agree as long as index 33 is not looked up. -/
theorem crc8_take_eq_crcRegister {data : List UInt8} {k : Nat} (hk : k ≤ data.length)
    (hindex : ∀ j < k, crcIndex data j ≠ 33) :
    crc8 (data.take k) = crcRegister (data.take k) := by
  induction k with
  | zero => rfl
  | succ k ih =>
      have hstep := ih (by omega) fun j hj => hindex j (by omega)
      have hne : crcIndex data k ≠ 33 := hindex k (by omega)
      rw [crc8_take_succ (by omega), tableValue_eq_crcShift8, if_neg hne,
        crcRegister_take_succ (by omega), ← hstep, crcIndex]

/-- **The checksum is the standard one with a single deviation.** It is a register that moves to 7
    from 33 and is shifted from everywhere else. Where 33 is never looked up it is CRC-8/MAXIM;
    otherwise the two agree before the first time and differ right after it. -/
theorem crc8_bit_serial (data : List UInt8) :
    crc8 data = data.foldl (fun crc byte =>
      let x := crc ^^^ byte
      if x = 33 then 7 else crcShift8 x) 0 ∧
    ((∀ k < data.length, crcIndex data k ≠ 33) → (crc8 data).toNat = smokeCrc8 data) ∧
    ((∃ k < data.length, crcIndex data k = 33) →
      ∃ k < data.length, crcIndex data k = 33 ∧
        (∀ j ≤ k, (crc8 (data.take j)).toNat = smokeCrc8 (data.take j) ∧
          (j < k → crcIndex data j ≠ 33)) ∧
        (crc8 (data.take (k + 1))).toNat = 7 ∧ smokeCrc8 (data.take (k + 1)) = 125) := by
  refine ⟨?_, ?_, ?_⟩
  · simp only [crc8, tableValue_eq_crcShift8]
  · intro hindex
    have h := crc8_take_eq_crcRegister (Nat.le_refl _) hindex
    rw [List.take_length] at h
    rw [smokeCrc8_eq, h]
  · intro hex
    have hfirst := Nat.find_spec hex
    have hmin : ∀ j < Nat.find hex, crcIndex data j ≠ 33 := fun j hj heq =>
      Nat.find_min hex hj ⟨by omega, heq⟩
    refine ⟨Nat.find hex, hfirst.1, hfirst.2, fun j hj => ⟨?_, hmin j⟩, ?_, ?_⟩
    · rw [smokeCrc8_eq, crc8_take_eq_crcRegister (by omega) fun i hi => hmin i (by omega)]
    · rw [crc8_take_succ hfirst.1, hfirst.2]
      rfl
    · -- the register is shifted from 33 as from anywhere else
      have hsame := crc8_take_eq_crcRegister (by omega) hmin
      have hindex := hfirst.2
      rw [crcIndex, hsame] at hindex
      rw [smokeCrc8_eq, crcRegister_take_succ hfirst.1, hindex]
      decide

end TTLock
