import TTLock.Core.Text

set_option autoImplicit false

/-! # What text is read as

Texts and the bytes they travel as, which numbers are read from which digits, and what trimming and
splitting leave of a text that was put together from its parts. -/

namespace TTLock

/-! ## UTF-8 -/

/-- Bytes are read as the text they are the bytes of. -/
theorem fromUtf8_eq_some_iff {bytes : List UInt8} {text : String} :
    fromUtf8 bytes = some text ↔ bytes = utf8Bytes text := by
  rw [fromUtf8, String.fromUTF8?, utf8Bytes, String.toUTF8_eq_toByteArray]
  constructor
  · intro h
    split at h
    · obtain rfl := Option.some.inj h
      show bytes = (bytes.toByteArray).data.toList
      rw [List.toList_data_toByteArray]
    · cases h
  · rintro rfl
    have hbytes : text.toByteArray.data.toList.toByteArray = text.toByteArray := by
      apply ByteArray.ext
      rw [List.data_toByteArray]
    have hvalid : text.toByteArray.data.toList.toByteArray.IsValidUTF8 := by
      rw [hbytes]
      exact text.isValidUTF8
    rw [dif_pos hvalid]
    exact congrArg some (String.toByteArray_inj.1 hbytes)

theorem fromUtf8_utf8Bytes (text : String) : fromUtf8 (utf8Bytes text) = some text :=
  fromUtf8_eq_some_iff.2 rfl

/-- An ASCII character is one byte. -/
theorem utf8Bytes_ofList_ascii {cs : List Char} (h : ∀ c ∈ cs, c.toNat < 128) :
    utf8Bytes (String.ofList cs) = cs.map fun c => UInt8.ofNat c.toNat := by
  rw [utf8Bytes, String.toUTF8_eq_toByteArray, String.toByteArray_ofList]
  induction cs with
  | nil => rfl
  | cons c cs ih =>
      obtain ⟨hc, hcs⟩ := List.forall_mem_cons.1 h
      have hchar : String.utf8EncodeChar c = [UInt8.ofNat c.toNat] := by
        rw [String.utf8EncodeChar_eq_singleton (Char.utf8Size_eq_one_iff.2 (UInt32.le_iff_toNat_le.2
          (Nat.le_of_lt_succ hc)))]
        rfl
      rw [List.utf8Encode_cons, List.utf8Encode_singleton, hchar, ByteArray.data_append,
        Array.toList_append, ih hcs, List.toList_data_toByteArray]
      rfl

/-! ## Numbers -/

/-- The number that digits spell. -/
def spelled (digits : List Char) : Nat :=
  digits.foldl (fun acc c => acc * 10 + (c.toNat - '0'.toNat)) 0

theorem spelled_toDigits (n : Nat) : spelled (Nat.toDigits 10 n) = n := by
  have h := Nat.ofDigitChars_ten_toDigits (n := n)
  rw [Nat.ofDigitChars_eq_foldl] at h
  simpa only [spelled, Nat.mul_comm] using h

/-- Without the plus sign that may stand before them. -/
def digitsOf : List Char → List Char
  | '+' :: rest => rest
  | chars => chars

/-- A number is read where there are digits, at least one and no more than fit. -/
theorem parseUnsigned_eq_some_iff {max : Nat} {cs : List Char} {n : Nat} :
    parseUnsigned max (String.ofList cs) = some n ↔
      digitsOf cs ≠ [] ∧ (∀ c ∈ digitsOf cs, c.isDigit = true) ∧ spelled (digitsOf cs) = n ∧ n ≤ max := by
  have hdef : parseUnsigned max (String.ofList cs) =
      if (digitsOf cs).isEmpty || !(digitsOf cs).all Char.isDigit then none
      else if spelled (digitsOf cs) ≤ max then some (spelled (digitsOf cs)) else none := by
    rw [parseUnsigned, String.toList_ofList]
    rfl
  rw [hdef]
  by_cases hdigits : (digitsOf cs).isEmpty || !(digitsOf cs).all Char.isDigit
  · rw [if_pos hdigits]
    refine iff_of_false (Option.some_ne_none n).symm ?_
    rintro ⟨hne, hall, -⟩
    rw [Bool.or_eq_true, List.isEmpty_iff, Bool.not_eq_true', List.all_eq_false] at hdigits
    rcases hdigits with hnil | ⟨c, hc, hnot⟩
    · exact hne hnil
    · exact hnot (hall c hc)
  · rw [if_neg hdigits]
    rw [Bool.or_eq_true, List.isEmpty_iff, Bool.not_eq_true', not_or, Bool.not_eq_false,
      List.all_eq_true] at hdigits
    obtain ⟨hne, hall⟩ := hdigits
    by_cases hmax : spelled (digitsOf cs) ≤ max
    · rw [if_pos hmax, Option.some.injEq]
      exact ⟨fun h => ⟨hne, hall, h, h ▸ hmax⟩, fun h => h.2.2.1⟩
    · rw [if_neg hmax]
      refine iff_of_false (Option.some_ne_none n).symm ?_
      rintro ⟨-, -, rfl, h⟩
      exact hmax h

/-- Digits are no sign. -/
theorem digitsOf_of_digits {cs : List Char} (h : ∀ c ∈ cs, c.isDigit = true) : digitsOf cs = cs := by
  cases cs with
  | nil => rfl
  | cons c cs =>
      have hc : c ≠ '+' := by
        rintro rfl
        exact absurd (h '+' List.mem_cons_self) (by decide)
      rw [digitsOf]
      rintro rest heq
      exact hc (List.cons.inj heq).1

theorem digitsOf_cases (cs : List Char) : cs = digitsOf cs ∨ cs = '+' :: digitsOf cs := by
  unfold digitsOf
  split
  · exact .inr rfl
  · exact .inl rfl

/-- The decimal form of a number is read as that number. -/
theorem parseUnsigned_repr {max n : Nat} (h : n ≤ max) : parseUnsigned max n.repr = some n := by
  have hdigits : ∀ c ∈ Nat.toDigits 10 n, c.isDigit = true := fun c hc =>
    Nat.isDigit_of_mem_toDigits (by decide) (by decide) hc
  rw [Nat.repr_eq_ofList_toDigits, parseUnsigned_eq_some_iff, digitsOf_of_digits hdigits]
  exact ⟨Nat.toDigits_ne_nil, hdigits, spelled_toDigits n, h⟩

/-! ## Trimming and splitting -/

/-- Of a text in front of which something droppable stands, the text is left. -/
theorem dropWhile_padded {p : Char → Bool} {before cs : List Char} (hbefore : ∀ c ∈ before, p c = true)
    (hcs : ∀ c ∈ cs, p c = false) (after : List Char) (hne : cs ≠ []) :
    (before ++ (cs ++ after)).dropWhile p = cs ++ after := by
  obtain ⟨c, cs, rfl⟩ := List.exists_cons_of_ne_nil hne
  rw [List.dropWhile_append_of_pos hbefore, List.cons_append,
    List.dropWhile_cons_of_neg (by simp [hcs c List.mem_cons_self])]

/-- Trimming leaves what is not whitespace. -/
theorem trim_padded {before cs after : List Char} (hbefore : ∀ c ∈ before, isWhitespace c = true)
    (hafter : ∀ c ∈ after, isWhitespace c = true) (hcs : ∀ c ∈ cs, isWhitespace c = false) :
    trim (String.ofList (before ++ (cs ++ after))) = cs := by
  rw [trim, String.toList_ofList]
  by_cases hne : cs = []
  · subst hne
    have hall : ∀ c ∈ before ++ ([] ++ after), isWhitespace c = true := by
      intro c hc
      rcases List.mem_append.1 hc with hc | hc
      · exact hbefore c hc
      · exact hafter c hc
    rw [List.dropWhile_eq_nil_iff.2 hall]
    rfl
  · have hback : ∀ c ∈ cs.reverse, isWhitespace c = false := fun c hc => hcs c (List.mem_reverse.1 hc)
    have hend : ∀ c ∈ after.reverse, isWhitespace c = true := fun c hc => hafter c (List.mem_reverse.1 hc)
    have hdrop := dropWhile_padded hend hback [] (by simpa using hne)
    rw [List.append_nil] at hdrop
    rw [dropWhile_padded hbefore hcs after hne, List.reverse_append, hdrop, List.reverse_reverse]

theorem trim_ofList {cs : List Char} (hcs : ∀ c ∈ cs, isWhitespace c = false) :
    trim (String.ofList cs) = cs := by
  have h := trim_padded (fun c (hc : c ∈ []) => absurd hc List.not_mem_nil)
    (fun c (hc : c ∈ []) => absurd hc List.not_mem_nil) hcs
  rwa [List.nil_append, List.append_nil] at h

theorem trimEndMatches_replicate {cs : List Char} {c : Char} (hcs : c ∉ cs) (n : Nat) :
    trimEndMatches (cs ++ List.replicate n c) c = cs := by
  induction n with
  | zero =>
      rw [List.replicate_zero, List.append_nil, trimEndMatches, List.rdropWhile_eq_self_iff]
      intro hne heq
      rw [beq_iff_eq] at heq
      exact hcs (heq ▸ List.getLast_mem hne)
  | succ n ih =>
      rw [List.replicate_succ', ← List.append_assoc, trimEndMatches,
        List.rdropWhile_concat_pos (· == c) _ _ (beq_self_eq_true c)]
      exact ih

theorem isAlphanum_toLower {c : Char} (h : c.isAlphanum = true) : c.toLower.isAlphanum = true := by
  unfold Char.toLower
  split
  · next hupper =>
      have hA : 'A'.val.toNat = 65 := rfl
      have hZ : 'Z'.val.toNat = 90 := rfl
      have ha : 'a'.val.toNat = 97 := rfl
      have hz : 'z'.val.toNat = 122 := rfl
      have hshift : ('a'.val - 'A'.val).toNat = 32 := rfl
      have hlower : 'a'.val ≤ c.val + ('a'.val - 'A'.val) ∧ c.val + ('a'.val - 'A'.val) ≤ 'z'.val := by
        simp only [ge_iff_le, UInt32.le_iff_toNat_le] at hupper
        simp only [UInt32.le_iff_toNat_le, UInt32.toNat_add]
        omega
      show ((_ || (decide _ && decide _)) || _) = true
      rw [decide_eq_true (show c.val + ('a'.val - 'A'.val) ≥ 'a'.val from hlower.1), decide_eq_true hlower.2,
        Bool.true_and, Bool.or_true, Bool.true_or]
  · exact h

theorem toLower_ne {c d : Char} (hc : c.isAlphanum = true) (hd : d.isAlphanum = false) :
    c.toLower ≠ d := by
  rintro rfl
  rw [isAlphanum_toLower hc] at hd
  cases hd

end TTLock
