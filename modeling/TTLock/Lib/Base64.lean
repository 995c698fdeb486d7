import Mathlib.Data.List.Basic

set_option autoImplicit false

/-! # Base64 with padding

Three bytes are four characters of six bits; one or two bytes at the end are padded. Of the texts of
the same bytes only the canonical one is read: padded, and with no bits set that no byte has. -/

namespace Base64

/-- The character of six bits. -/
def digit (n : Nat) : Char :=
  if n < 26 then Char.ofNat ('A'.toNat + n)
  else if n < 52 then Char.ofNat ('a'.toNat + (n - 26))
  else if n < 62 then Char.ofNat ('0'.toNat + (n - 52))
  else if n = 62 then '+'
  else '/'

/-- The six bits of a character. -/
def value (c : Char) : Option Nat :=
  if 'A' ≤ c ∧ c ≤ 'Z' then some (c.toNat - 'A'.toNat)
  else if 'a' ≤ c ∧ c ≤ 'z' then some (c.toNat - 'a'.toNat + 26)
  else if '0' ≤ c ∧ c ≤ '9' then some (c.toNat - '0'.toNat + 52)
  else if c = '+' then some 62
  else if c = '/' then some 63
  else none

def encode : List UInt8 → List Char
  | [] => []
  | [x] => [digit (x.toNat / 4), digit (x.toNat % 4 * 16), '=', '=']
  | [x, y] =>
      [digit (x.toNat / 4), digit (x.toNat % 4 * 16 + y.toNat / 16), digit (y.toNat % 16 * 4), '=']
  | x :: y :: z :: rest =>
      digit (x.toNat / 4) :: digit (x.toNat % 4 * 16 + y.toNat / 16) ::
        digit (y.toNat % 16 * 4 + z.toNat / 64) :: digit (z.toNat % 64) :: encode rest

/-- The one or two bytes before the padding. -/
def decodePadded (a b c : Char) : Option (List UInt8) := do
  let a ← value a
  let b ← value b
  if c = '=' then
    if b % 16 = 0 then return [UInt8.ofNat (a * 4 + b / 16)] else none
  else
    let c ← value c
    if c % 4 = 0 then return [UInt8.ofNat (a * 4 + b / 16), UInt8.ofNat (b % 16 * 16 + c / 4)] else none

def decode : List Char → Option (List UInt8)
  | [] => some []
  | a :: b :: c :: d :: rest =>
      if d = '=' then if rest.isEmpty then decodePadded a b c else none
      else do
        let a ← value a
        let b ← value b
        let c ← value c
        let d ← value d
        let rest ← decode rest
        return UInt8.ofNat (a * 4 + b / 16) :: UInt8.ofNat (b % 16 * 16 + c / 4) ::
          UInt8.ofNat (c % 4 * 64 + d) :: rest
  | _ => none

theorem value_digit : ∀ n < 64, value (digit n) = some n := by decide

theorem digit_ne_pad : ∀ n < 64, digit n ≠ '=' := by decide

/-- The bits of three bytes, put together again. -/
theorem ofNat_bits {x y z : UInt8} :
    UInt8.ofNat (x.toNat / 4 * 4 + (x.toNat % 4 * 16 + y.toNat / 16) / 16) = x ∧
    UInt8.ofNat ((x.toNat % 4 * 16 + y.toNat / 16) % 16 * 16 + (y.toNat % 16 * 4 + z.toNat / 64) / 4) = y ∧
    UInt8.ofNat ((y.toNat % 16 * 4 + z.toNat / 64) % 4 * 64 + z.toNat % 64) = z := by
  have hx := x.toNat_lt
  have hy := y.toNat_lt
  have hz := z.toNat_lt
  refine ⟨?_, ?_, ?_⟩ <;> apply UInt8.toNat.inj <;> rw [UInt8.toNat_ofNat'] <;> omega

theorem decodePadded_one {a b : Char} {m n : Nat} (ha : value a = some m) (hb : value b = some n)
    (hn : n % 16 = 0) : decodePadded a b '=' = some [UInt8.ofNat (m * 4 + n / 16)] := by
  simp [decodePadded, ha, hb, hn]

theorem decodePadded_two {a b c : Char} {m n k : Nat} (ha : value a = some m) (hb : value b = some n)
    (hne : c ≠ '=') (hc : value c = some k) (hk : k % 4 = 0) :
    decodePadded a b c =
      some [UInt8.ofNat (m * 4 + n / 16), UInt8.ofNat (n % 16 * 16 + k / 4)] := by
  simp [decodePadded, ha, hb, hne, hc, hk]

/-- **Round trip.** -/
theorem decode_encode (bytes : List UInt8) : decode (encode bytes) = some bytes := by
  induction bytes using encode.induct with
  | case1 => rfl
  | case2 x =>
      have hx := x.toNat_lt
      obtain ⟨hbits, -, -⟩ := @ofNat_bits x 0 0
      rw [encode, decode, if_pos rfl, if_pos List.isEmpty_nil,
        decodePadded_one (value_digit _ (by omega)) (value_digit _ (by omega)) (by omega)]
      exact congrArg (fun b => some [b]) hbits
  | case3 x y =>
      have hx := x.toNat_lt
      have hy := y.toNat_lt
      obtain ⟨hfirst, hsecond, -⟩ := @ofNat_bits x y 0
      rw [encode, decode, if_pos rfl, if_pos List.isEmpty_nil,
        decodePadded_two (value_digit _ (by omega)) (value_digit _ (by omega))
          (digit_ne_pad _ (by omega)) (value_digit _ (by omega)) (by omega), hfirst]
      exact congrArg (fun b => some [x, b]) hsecond
  | case4 x y z rest ih =>
      have hx := x.toNat_lt
      have hy := y.toNat_lt
      have hz := z.toNat_lt
      obtain ⟨hfirst, hsecond, hthird⟩ := @ofNat_bits x y z
      rw [encode, decode, if_neg (digit_ne_pad _ (Nat.mod_lt _ (by decide))), value_digit _ (by omega),
        value_digit _ (by omega), value_digit _ (by omega), value_digit _ (by omega), ih]
      show some (_ :: _ :: _ :: rest) = _
      rw [hfirst, hsecond, hthird]

/-- Letters, figures, two more signs and the padding. -/
def InAlphabet (c : Char) : Prop := c.isAlphanum = true ∨ c = '+' ∨ c = '/' ∨ c = '='

instance (c : Char) : Decidable (InAlphabet c) := inferInstanceAs (Decidable (_ ∨ _))

theorem inAlphabet_digit : ∀ n < 64, InAlphabet (digit n) := by decide

theorem inAlphabet_encode (bytes : List UInt8) : ∀ c ∈ encode bytes, InAlphabet c := by
  have hpad : InAlphabet '=' := by decide
  induction bytes using encode.induct with
  | case1 => exact fun c hc => absurd hc List.not_mem_nil
  | case2 x =>
      have hx := x.toNat_lt
      simp only [encode, List.forall_mem_cons]
      exact ⟨inAlphabet_digit _ (by omega), inAlphabet_digit _ (by omega), hpad, hpad,
        fun c hc => absurd hc List.not_mem_nil⟩
  | case3 x y =>
      have hx := x.toNat_lt
      have hy := y.toNat_lt
      simp only [encode, List.forall_mem_cons]
      exact ⟨inAlphabet_digit _ (by omega), inAlphabet_digit _ (by omega),
        inAlphabet_digit _ (by omega), hpad, fun c hc => absurd hc List.not_mem_nil⟩
  | case4 x y z rest ih =>
      have hx := x.toNat_lt
      have hy := y.toNat_lt
      have hz := z.toNat_lt
      simp only [encode, List.forall_mem_cons]
      exact ⟨inAlphabet_digit _ (by omega), inAlphabet_digit _ (by omega),
        inAlphabet_digit _ (by omega), inAlphabet_digit _ (by omega), ih⟩

end Base64
