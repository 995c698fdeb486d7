import Mathlib.Data.List.Basic

set_option autoImplicit false

/-! # Hexadecimal

Two digits for each byte, the high one first. Either case is read, the lower one is written. -/

namespace Hex

/-- The value of a digit. -/
def value (c : Char) : Option Nat :=
  let n := c.toNat
  if 48 ≤ n ∧ n ≤ 57 then some (n - 48)
  else if 97 ≤ n ∧ n ≤ 102 then some (n - 87)
  else if 65 ≤ n ∧ n ≤ 70 then some (n - 55)
  else none

/-- The digit of a value below sixteen. -/
def digit (n : Nat) : Char := Char.ofNat (if n < 10 then 48 + n else 87 + n)

def encode : List UInt8 → List Char
  | [] => []
  | byte :: rest => digit (byte.toNat / 16) :: digit (byte.toNat % 16) :: encode rest

def decode : List Char → Option (List UInt8)
  | [] => some []
  | [_] => none
  | a :: b :: rest => do
      let high ← value a
      let low ← value b
      let bytes ← decode rest
      return UInt8.ofNat (high * 16 + low) :: bytes

theorem value_digit : ∀ n < 16, value (digit n) = some n := by decide

theorem decode_encode (bytes : List UInt8) : decode (encode bytes) = some bytes := by
  induction bytes with
  | nil => rfl
  | cons byte rest ih =>
      have hbyte := byte.toNat_lt
      have hspelled : byte.toNat / 16 * 16 + byte.toNat % 16 = byte.toNat := by omega
      rw [encode, decode, value_digit _ (by omega), value_digit _ (by omega), ih]
      show some (UInt8.ofNat (byte.toNat / 16 * 16 + byte.toNat % 16) :: rest) = _
      rw [hspelled, UInt8.ofNat_toNat]

/-- What is written are digits. -/
theorem isSome_value_of_mem_encode {bytes : List UInt8} {c : Char} (h : c ∈ encode bytes) :
    (value c).isSome = true := by
  induction bytes with
  | nil => simp [encode] at h
  | cons byte rest ih =>
      have hbyte := byte.toNat_lt
      simp only [encode, List.mem_cons] at h
      rcases h with rfl | rfl | h
      · rw [value_digit _ (by omega)]
        rfl
      · rw [value_digit _ (by omega)]
        rfl
      · exact ih h

end Hex
