import Mathlib.Data.Nat.Digits.Defs

set_option autoImplicit false

/-! # Big-endian machine words

Sixteen- and thirty-two-bit words as the bytes they travel as, most significant first, and the two
round trips between them. -/

namespace BigEndian

/-! ## Sixteen bits -/

/-- The two bytes of a word. -/
def toBytes16 (x : UInt16) : List UInt8 :=
  [UInt8.ofNat (x.toNat / 256), UInt8.ofNat (x.toNat % 256)]

/-- The word two bytes spell. -/
def ofBytes16 (a b : UInt8) : UInt16 := UInt16.ofNat (a.toNat * 256 + b.toNat)

@[simp] theorem length_toBytes16 (x : UInt16) : (toBytes16 x).length = 2 := rfl

theorem toNat_ofBytes16 (a b : UInt8) : (ofBytes16 a b).toNat = a.toNat * 256 + b.toNat := by
  have ha := a.toNat_lt
  have hb := b.toNat_lt
  rw [ofBytes16, UInt16.toNat_ofNat', Nat.mod_eq_of_lt (by omega)]

theorem ofBytes16_toBytes16 (x : UInt16) :
    ofBytes16 (UInt8.ofNat (x.toNat / 256)) (UInt8.ofNat (x.toNat % 256)) = x := by
  apply UInt16.toNat.inj
  have hx := x.toNat_lt
  rw [toNat_ofBytes16, UInt8.toNat_ofNat', UInt8.toNat_ofNat']
  omega

/-! ## Thirty-two bits -/

/-- The four bytes of a word. -/
def toBytes32 (x : UInt32) : List UInt8 :=
  [UInt8.ofNat (x.toNat / 16777216), UInt8.ofNat (x.toNat / 65536 % 256),
    UInt8.ofNat (x.toNat / 256 % 256), UInt8.ofNat (x.toNat % 256)]

/-- The word four bytes spell. -/
def ofBytes32 (a b c d : UInt8) : UInt32 :=
  UInt32.ofNat (((a.toNat * 256 + b.toNat) * 256 + c.toNat) * 256 + d.toNat)

@[simp] theorem length_toBytes32 (x : UInt32) : (toBytes32 x).length = 4 := rfl

theorem ofBytes32_toBytes32 (x : UInt32) :
    ofBytes32 (UInt8.ofNat (x.toNat / 16777216)) (UInt8.ofNat (x.toNat / 65536 % 256))
      (UInt8.ofNat (x.toNat / 256 % 256)) (UInt8.ofNat (x.toNat % 256)) = x := by
  apply UInt32.toNat.inj
  have hx := x.toNat_lt
  simp only [ofBytes32, UInt32.toNat_ofNat', UInt8.toNat_ofNat']
  omega

/-! ## Any number of bytes -/

/-- The number that bytes spell. -/
def number (bytes : List UInt8) : Nat := Nat.ofDigits 256 (bytes.map UInt8.toNat).reverse

theorem number_toBytes32 (x : UInt32) : number (toBytes32 x) = x.toNat := by
  have hx := x.toNat_lt
  simp [number, toBytes32, Nat.ofDigits_cons]
  omega

/-- Without its top byte, a word is taken modulo 2^24. -/
theorem number_drop_toBytes32 (x : UInt32) :
    number ((toBytes32 x).drop 1) = x.toNat % 16777216 := by
  have hx := x.toNat_lt
  simp [number, toBytes32, Nat.ofDigits_cons]
  omega

/-- As many bytes that spell the same number are the same. -/
theorem number_inj {bytes bytes' : List UInt8} (hlen : bytes.length = bytes'.length)
    (h : number bytes = number bytes') : bytes = bytes' := by
  have hlt : ∀ bytes : List UInt8, ∀ n ∈ (bytes.map UInt8.toNat).reverse, n < 256 := by
    intro bytes n hn
    obtain ⟨byte, -, rfl⟩ := List.mem_map.1 (List.mem_reverse.1 hn)
    exact byte.toNat_lt
  have hdigits := Nat.ofDigits_inj_of_len_eq (by decide) (by simpa using hlen) (hlt bytes) (hlt bytes') h
  exact (List.map_inj_right fun _ _ => UInt8.toNat_inj.1).1 (List.reverse_inj.1 hdigits)

end BigEndian
