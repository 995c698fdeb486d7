import TTLock.Core.Credential
import TTLock.Core.Proofs.Text
import TTLock.Lib.Base64

set_option autoImplicit false

/-! # What the vendor's credentials are read as

The form the vendor's app writes is read back whatever the seed. What is read are the texts of digits,
and one kind more: `str::parse` puts up with a plus sign in front of them. -/

namespace TTLock

/-! ## Digits as bytes -/

def IsAsciiDigit (byte : UInt8) : Prop := 48 ≤ byte.toNat ∧ byte.toNat ≤ 57

/-- The number that ASCII digits spell. -/
def spelledBytes (digits : List UInt8) : Nat :=
  digits.foldl (fun acc byte => acc * 10 + (byte.toNat - 48)) 0

/-- The byte of an ASCII character. -/
def byteOf (c : Char) : UInt8 := UInt8.ofNat c.toNat

theorem toNat_of_isDigit {c : Char} (h : c.isDigit = true) : 48 ≤ c.toNat ∧ c.toNat ≤ 57 := by
  rw [Char.isDigit, Bool.and_eq_true, decide_eq_true_iff, decide_eq_true_iff] at h
  exact h

theorem byteOf_toNat {c : Char} (h : c.toNat < 128) : (byteOf c).toNat = c.toNat := by
  rw [byteOf, UInt8.toNat_ofNat', Nat.mod_eq_of_lt (by omega)]

theorem isAsciiDigit_byteOf {c : Char} (h : c.isDigit = true) : IsAsciiDigit (byteOf c) := by
  have hc := toNat_of_isDigit h
  rw [IsAsciiDigit, byteOf_toNat (by omega)]
  exact hc

theorem spelledBytes_map_byteOf {cs : List Char} (h : ∀ c ∈ cs, c.isDigit = true) :
    spelledBytes (cs.map byteOf) = spelled cs := by
  rw [spelledBytes, spelled, List.foldl_map]
  refine List.foldl_ext _ _ _ fun acc c hc => ?_
  have hdigit := toNat_of_isDigit (h c hc)
  rw [byteOf_toNat (by omega)]
  rfl

/-- Digits are the bytes of characters that are digits. -/
theorem exists_chars_of_digits {digits : List UInt8} (h : ∀ byte ∈ digits, IsAsciiDigit byte) :
    ∃ cs : List Char, (∀ c ∈ cs, c.isDigit = true) ∧ digits = cs.map byteOf := by
  induction digits with
  | nil => exact ⟨[], fun c hc => absurd hc List.not_mem_nil, rfl⟩
  | cons byte digits ih =>
      obtain ⟨hbyte, hdigits⟩ := List.forall_mem_cons.1 h
      obtain ⟨cs, hcs, rfl⟩ := ih hdigits
      have hchar : ∀ n < 58, 48 ≤ n → (Char.ofNat n).isDigit = true ∧ (Char.ofNat n).toNat = n := by
        decide
      obtain ⟨hdigit, hnat⟩ := hchar byte.toNat (Nat.lt_succ_of_le hbyte.2) hbyte.1
      refine ⟨Char.ofNat byte.toNat :: cs, List.forall_mem_cons.2 ⟨hdigit, hcs⟩, ?_⟩
      rw [List.map_cons, byteOf, hnat, UInt8.ofNat_toNat]

/-- **Which bytes are read as a number**: digits, with or without a plus sign. -/
theorem parse_fromUtf8_iff {max : Nat} {bytes : List UInt8} {n : Nat} :
    (fromUtf8 bytes).bind (parseUnsigned max) = some n ↔
      ∃ digits, (bytes = digits ∨ bytes = 43 :: digits) ∧ digits ≠ [] ∧
        (∀ byte ∈ digits, IsAsciiDigit byte) ∧ spelledBytes digits = n ∧ n ≤ max := by
  have hascii : ∀ {cs : List Char}, (∀ c ∈ cs, c.isDigit = true) → ∀ c ∈ cs, c.toNat < 128 := by
    intro cs h c hc
    have := toNat_of_isDigit (h c hc)
    omega
  have hplus : ∀ {cs : List Char}, (∀ c ∈ cs, c.isDigit = true) → ∀ c ∈ '+' :: cs, c.toNat < 128 :=
    fun h => List.forall_mem_cons.2 ⟨by decide, hascii h⟩
  rw [Option.bind_eq_some_iff]
  constructor
  · rintro ⟨text, htext, hparse⟩
    obtain ⟨cs, rfl⟩ : ∃ cs, text = String.ofList cs := ⟨text.toList, (String.ofList_toList).symm⟩
    obtain rfl := fromUtf8_eq_some_iff.1 htext
    obtain ⟨hne, hdigits, hn, hmax⟩ := parseUnsigned_eq_some_iff.1 hparse
    refine ⟨(digitsOf cs).map byteOf, ?_, by simpa using hne, ?_, ?_, hmax⟩
    · rcases digitsOf_cases cs with hcs | hcs
      · left
        rw [← hcs] at hdigits ⊢
        exact utf8Bytes_ofList_ascii (hascii hdigits)
      · right
        generalize digitsOf cs = ds at hcs hdigits
        rw [hcs]
        exact utf8Bytes_ofList_ascii (hplus hdigits)
    · intro byte hbyte
      obtain ⟨c, hc, rfl⟩ := List.mem_map.1 hbyte
      exact isAsciiDigit_byteOf (hdigits c hc)
    · rw [spelledBytes_map_byteOf hdigits, hn]
  · rintro ⟨digits, hbytes, hne, hdigits, hn, hmax⟩
    obtain ⟨cs, hcs, rfl⟩ := exists_chars_of_digits hdigits
    rw [spelledBytes_map_byteOf hcs] at hn
    have hne' : cs ≠ [] := by simpa using hne
    rcases hbytes with rfl | rfl
    · refine ⟨String.ofList cs, fromUtf8_eq_some_iff.2 (utf8Bytes_ofList_ascii (hascii hcs)).symm, ?_⟩
      rw [parseUnsigned_eq_some_iff, digitsOf_of_digits hcs]
      exact ⟨hne', hcs, hn, hmax⟩
    · refine ⟨String.ofList ('+' :: cs),
        fromUtf8_eq_some_iff.2 (utf8Bytes_ofList_ascii (hplus hcs)).symm, ?_⟩
      rw [parseUnsigned_eq_some_iff]
      exact ⟨hne', hcs, hn, hmax⟩

/-! ## Which values are accepted -/

/-- The digits under the mask. -/
def unmask (values : List UInt8) : List UInt8 :=
  match values.getLast? with
  | none => []
  | some seed => values.dropLast.map (· ^^^ (tableValue values.dropLast.length ^^^ seed))

theorem length_unmask (values : List UInt8) : (unmask values).length = values.length - 1 := by
  rw [unmask]
  cases h : values.getLast? with
  | none =>
      rw [List.getLast?_eq_none_iff.1 h]
      rfl
  | some seed => simp only [List.length_map, List.length_dropLast]

/-- Decoding is reading what is under the mask. -/
theorem decodeCommaValues_eq (values : List UInt8) : decodeCommaValues values =
    ((fromUtf8 (unmask values)).bind (parseUnsigned 4294967295)).map UInt32.ofNat := by
  rw [decodeCommaValues, unmask]
  cases h : values.getLast? with
  | none =>
      have hempty : fromUtf8 [] = some "" := fromUtf8_utf8Bytes ""
      dsimp only
      rw [hempty]
      rfl
  | some seed =>
      dsimp only
      cases fromUtf8 (values.dropLast.map (· ^^^ (tableValue values.dropLast.length ^^^ seed))) <;> rfl

/-- At least one digit is masked and the digits spell the value. -/
def SpellsValue (values : List UInt8) (value : UInt32) : Prop :=
  2 ≤ values.length ∧ (∀ byte ∈ unmask values, IsAsciiDigit byte) ∧
    spelledBytes (unmask values) = value.toNat

/-- There is a plus sign under the mask, and digits behind it that spell a value. -/
def PlusSigned (values : List UInt8) : Prop :=
  ∃ digits, unmask values = 43 :: digits ∧ digits ≠ [] ∧ (∀ byte ∈ digits, IsAsciiDigit byte) ∧
    spelledBytes digits ≤ 4294967295

/-- What is decoded. -/
theorem decodeCommaValues_eq_some_iff {values : List UInt8} {value : UInt32} :
    decodeCommaValues values = some value ↔ SpellsValue values value ∨
      ∃ digits, unmask values = 43 :: digits ∧ digits ≠ [] ∧ (∀ byte ∈ digits, IsAsciiDigit byte) ∧
        spelledBytes digits = value.toNat := by
  have hvalue := value.toNat_lt
  have hlen := length_unmask values
  rw [decodeCommaValues_eq, Option.map_eq_some_iff]
  constructor
  · rintro ⟨n, hparse, rfl⟩
    obtain ⟨digits, hbytes, hne, hdigits, rfl, hmax⟩ := parse_fromUtf8_iff.1 hparse
    have hnat : spelledBytes digits = (UInt32.ofNat (spelledBytes digits)).toNat := by
      rw [UInt32.toNat_ofNat', Nat.mod_eq_of_lt (by omega)]
    rcases hbytes with hbytes | hbytes
    · have hpos := List.length_pos_iff.2 hne
      rw [hbytes] at hlen
      exact .inl ⟨by omega, hbytes ▸ hdigits, hbytes ▸ hnat⟩
    · exact .inr ⟨digits, hbytes, hne, hdigits, hnat⟩
  · rintro (⟨htwo, hdigits, hn⟩ | ⟨digits, hbytes, hne, hdigits, hn⟩)
    · refine ⟨value.toNat, parse_fromUtf8_iff.2 ⟨unmask values, .inl rfl, ?_, hdigits, hn, by omega⟩,
        UInt32.ofNat_toNat⟩
      rw [← List.length_pos_iff]
      omega
    · exact ⟨value.toNat, parse_fromUtf8_iff.2 ⟨digits, .inr hbytes, hne, hdigits, hn, by omega⟩,
        UInt32.ofNat_toNat⟩

/-- A plus sign is no digit. -/
theorem PlusSigned.not_spellsValue {values : List UInt8} {digits : List UInt8}
    (h : unmask values = 43 :: digits) (value : UInt32) : ¬SpellsValue values value := by
  rintro ⟨-, hdigits, -⟩
  have hplus := hdigits 43 (h ▸ List.mem_cons_self)
  exact absurd hplus.1 (by decide)

/-- **The decoder accepts exactly the texts of digits** unless there is a plus sign in front of them. -/
theorem decodeCommaValues_exact_iff (values : List UInt8) :
    (∀ value, decodeCommaValues values = some value ↔ SpellsValue values value) ↔
      ¬PlusSigned values := by
  constructor
  · rintro h ⟨digits, hbytes, hne, hdigits, hmax⟩
    have hnat : spelledBytes digits = (UInt32.ofNat (spelledBytes digits)).toNat := by
      rw [UInt32.toNat_ofNat', Nat.mod_eq_of_lt (by omega)]
    exact PlusSigned.not_spellsValue hbytes _
      ((h _).1 (decodeCommaValues_eq_some_iff.2 (.inr ⟨digits, hbytes, hne, hdigits, hnat⟩)))
  · intro hplus value
    rw [decodeCommaValues_eq_some_iff]
    refine or_iff_left ?_
    rintro ⟨digits, hbytes, hne, hdigits, hn⟩
    have hvalue := value.toNat_lt
    exact hplus ⟨digits, hbytes, hne, hdigits, by omega⟩

/-- Two bytes that unmask to `+7`. -/
theorem plus_seven_accepted : decodeCommaValues [43, 55, 188] = some 7 ∧
    ¬SpellsValue [43, 55, 188] 7 := by
  have hunmask : unmask [43, 55, 188] = [43, 55] := by decide
  refine ⟨decodeCommaValues_eq_some_iff.2 (.inr ⟨[55], hunmask, by decide, ?_, rfl⟩),
    PlusSigned.not_spellsValue hunmask 7⟩
  intro byte hbyte
  rw [List.mem_singleton.1 hbyte]
  exact ⟨by decide, by decide⟩

/-! ## Round trip -/

/-- The standard engine of the `base64` crate. -/
structure Base64Engine where
  encode : List UInt8 → String
  decode : String → Except String (List UInt8)

/-- It inverts its own encoding, which is a text over its alphabet. -/
structure Base64Engine.Lawful (engine : Base64Engine) : Prop where
  decode_encode : ∀ bytes, engine.decode (engine.encode bytes) = .ok bytes
  alphabet : ∀ bytes, ∀ c ∈ (engine.encode bytes).toList, Base64.InAlphabet c

/-- The real one, but for the texts of its errors. -/
def Base64Engine.standard (describe : String → String) : Base64Engine where
  encode bytes := String.ofList (Base64.encode bytes)
  decode text := match Base64.decode text.toList with
    | none => .error (describe text)
    | some bytes => .ok bytes

theorem Base64Engine.standard_lawful (describe : String → String) : (standard describe).Lawful where
  decode_encode bytes := by
    rw [standard]
    dsimp only
    rw [String.toList_ofList, Base64.decode_encode]
  alphabet bytes := by
    rw [standard]
    dsimp only
    rw [String.toList_ofList]
    exact Base64.inAlphabet_encode bytes

/-- The bytes of a value: its masked decimal digits and the seed. -/
def encodeCommaValues (value : UInt32) (seed : UInt8) : List UInt8 :=
  let text := utf8Bytes value.toNat.repr
  let mask := tableValue text.length ^^^ seed
  text.map (· ^^^ mask) ++ [seed]

/-- The comma list of bytes, in decimal. -/
def commaList (values : List UInt8) : List Char :=
  [','].intercalate (values.map fun byte => byte.toNat.repr.toList)

def encodeBase64Credential (base64Encode : List UInt8 → String) (value : UInt32) (seed : UInt8) :
    String :=
  base64Encode (utf8Bytes (String.ofList (commaList (encodeCommaValues value seed))))

theorem unmask_encodeCommaValues (value : UInt32) (seed : UInt8) :
    unmask (encodeCommaValues value seed) = utf8Bytes value.toNat.repr := by
  simp only [unmask, encodeCommaValues, List.getLast?_append_of_ne_nil _ (List.cons_ne_nil seed []),
    List.getLast?_singleton, List.dropLast_concat, List.length_map, List.map_map]
  refine (List.map_congr_left fun byte _ => ?_).trans (List.map_id _)
  show (byte ^^^ _) ^^^ _ = byte
  rw [UInt8.xor_assoc, UInt8.xor_self, UInt8.xor_zero]

/-- Masking is undone. -/
theorem decodeCommaValues_encode (value : UInt32) (seed : UInt8) :
    decodeCommaValues (encodeCommaValues value seed) = some value := by
  have hvalue := value.toNat_lt
  rw [decodeCommaValues_eq, unmask_encodeCommaValues, fromUtf8_utf8Bytes, Option.bind_some,
    parseUnsigned_repr (by omega)]
  exact congrArg some UInt32.ofNat_toNat

/-- What is printed on the keys of a typewriter is no whitespace. -/
theorem isWhitespace_of_printable {c : Char} (h : 0x21 ≤ c.toNat) (h' : c.toNat ≤ 0x7e) :
    isWhitespace c = false := by
  simp only [isWhitespace, Bool.or_eq_false_iff, Bool.and_eq_false_iff, decide_eq_false_iff_not,
    beq_eq_false_iff_ne]
  omega

theorem isDigit_of_mem_repr {n : Nat} {c : Char} (h : c ∈ n.repr.toList) : c.isDigit = true := by
  rw [Nat.toList_repr] at h
  exact Nat.isDigit_of_mem_toDigits (by decide) (by decide) h

/-- A comma list holds digits and commas. -/
theorem mem_commaList {values : List UInt8} {c : Char} (h : c ∈ commaList values) :
    c = ',' ∨ c.isDigit = true := by
  induction values with
  | nil => exact absurd h List.not_mem_nil
  | cons byte values ih =>
      cases values with
      | nil =>
          rw [commaList, List.map_cons, List.map_nil, List.intercalate_singleton] at h
          exact .inr (isDigit_of_mem_repr h)
      | cons byte' values =>
          rw [commaList, List.map_cons, List.map_cons, List.intercalate_cons_cons] at h
          rcases List.mem_append.1 h with h | h
          · rcases List.mem_append.1 h with h | h
            · exact .inr (isDigit_of_mem_repr h)
            · exact .inl (List.mem_singleton.1 h)
          · exact ih h

theorem isWhitespace_of_isDigit {c : Char} (h : c.isDigit = true) : isWhitespace c = false := by
  have hc := toNat_of_isDigit h
  exact isWhitespace_of_printable (by omega) (by omega)

/-- A comma list is split into the numbers it was put together from. -/
theorem split_commaList {values : List UInt8} (hne : values ≠ []) :
    (splitText (trim (String.ofList (commaList values))) ',').filter (fun part => part ≠ "") =
      values.map fun byte => byte.toNat.repr := by
  have htrim : trim (String.ofList (commaList values)) = commaList values := by
    refine trim_ofList fun c hc => ?_
    rcases mem_commaList hc with rfl | hdigit
    · decide
    · exact isWhitespace_of_isDigit hdigit
  have hsplit : (commaList values).splitOn ',' = values.map fun byte => byte.toNat.repr.toList := by
    refine List.splitOn_intercalate ',' ?_ (by simpa using hne)
    intro part hpart hcomma
    obtain ⟨byte, -, rfl⟩ := List.mem_map.1 hpart
    exact absurd (isDigit_of_mem_repr hcomma) (by decide)
  rw [htrim, splitText, hsplit, List.map_map, List.filter_eq_self.2]
  · exact List.map_congr_left fun byte _ => String.ofList_toList
  · intro part hpart
    obtain ⟨byte, -, rfl⟩ := List.mem_map.1 hpart
    rw [decide_eq_true_iff, Function.comp_apply, String.ofList_toList]
    exact Nat.repr_ne_empty

theorem mapM_parseCredentialByte (debug : String → String) (values : List UInt8) :
    (values.map fun byte => byte.toNat.repr).mapM (parseCredentialByte debug) = .ok values := by
  have hbyte : ∀ byte : UInt8, parseCredentialByte debug byte.toNat.repr = .ok byte := by
    intro byte
    have hlt := byte.toNat_lt
    rw [parseCredentialByte, parseUnsigned_repr (by omega)]
    exact congrArg Except.ok UInt8.ofNat_toNat
  induction values with
  | nil => rfl
  | cons byte values ih =>
      rw [List.map_cons, List.mapM_cons, hbyte, ih]
      rfl

/-- A character of the alphabet is neither whitespace nor a period. -/
theorem printable_of_inAlphabet {c : Char} (h : Base64.InAlphabet c) :
    isWhitespace c = false ∧ c ≠ '.' := by
  have hperiod : ¬Base64.InAlphabet '.' := by decide
  refine ⟨?_, fun hc => hperiod (hc ▸ h)⟩
  rcases h with h | rfl | rfl | rfl
  · change ((decide (65 ≤ c.val ∧ c.val ≤ 90) || (decide (97 ≤ c.val) && decide (c.val ≤ 122))) ||
      (decide (48 ≤ c.val) && decide (c.val ≤ 57))) = true at h
    simp only [Bool.or_eq_true, Bool.and_eq_true, decide_eq_true_iff] at h
    have hnat : ((65 ≤ c.toNat ∧ c.toNat ≤ 90) ∨ 97 ≤ c.toNat ∧ c.toNat ≤ 122) ∨
        48 ≤ c.toNat ∧ c.toNat ≤ 57 := h
    exact isWhitespace_of_printable (by omega) (by omega)
  · decide
  · decide
  · decide

/-- Where every step succeeds. -/
theorem decodeBase64Credential_eq_ok {base64Decode : String → Except String (List UInt8)}
    {debug : String → String} {utf8Error : List UInt8 → String} {text csv : String}
    {decoded values : List UInt8} {value : UInt32}
    (hdecoded : base64Decode (String.ofList (trimEndMatches (trim text) '.')) = .ok decoded)
    (hcsv : fromUtf8 decoded = some csv)
    (hvalues : ((splitText (trim csv) ',').filter fun part => part ≠ "").mapM
      (parseCredentialByte debug) = .ok values)
    (hvalue : decodeCommaValues values = some value) :
    decodeBase64Credential base64Decode debug utf8Error text = .ok value := by
  simp only [decodeBase64Credential, hdecoded, hcsv, hvalues, hvalue, Except.mapError, bind, Except.bind,
    pure, Except.pure]

/-- **Round trip.** A value is read back from what was written of it, whatever the seed, with any
    whitespace around it and any number of periods behind it. -/
theorem decodeBase64Credential_encode {engine : Base64Engine} (hengine : engine.Lawful)
    (debug : String → String) (utf8Error : List UInt8 → String) (value : UInt32) (seed : UInt8)
    {before after : List Char} (hbefore : ∀ c ∈ before, isWhitespace c = true)
    (hafter : ∀ c ∈ after, isWhitespace c = true) (periods : Nat) :
    decodeBase64Credential engine.decode debug utf8Error (String.ofList (before ++
      (((encodeBase64Credential engine.encode value seed).toList ++ List.replicate periods '.') ++
        after))) = .ok value := by
  have halphabet := hengine.alphabet (utf8Bytes (String.ofList (commaList (encodeCommaValues value seed))))
  have hvisible : ∀ c ∈ (encodeBase64Credential engine.encode value seed).toList ++
      List.replicate periods '.', isWhitespace c = false := by
    intro c hc
    rcases List.mem_append.1 hc with hc | hc
    · exact (printable_of_inAlphabet (halphabet c hc)).1
    · rw [List.eq_of_mem_replicate hc]
      decide
  have hperiod : '.' ∉ (encodeBase64Credential engine.encode value seed).toList := fun hc =>
    (printable_of_inAlphabet (halphabet '.' hc)).2 rfl
  have hne : encodeCommaValues value seed ≠ [] :=
    List.append_ne_nil_of_right_ne_nil _ (List.cons_ne_nil _ _)
  refine decodeBase64Credential_eq_ok ?_
    (fromUtf8_utf8Bytes (String.ofList (commaList (encodeCommaValues value seed)))) ?_
    (decodeCommaValues_encode value seed)
  · rw [trim_padded hbefore hafter hvisible, trimEndMatches_replicate hperiod, String.ofList_toList]
    exact hengine.decode_encode _
  · rw [split_commaList hne]
    exact mapM_parseCredentialByte debug _

/-- The publicly posted value of the source's own tests, which has a digit more than it needs. -/
example : decodeBase64Credential (Base64Engine.standard id).decode id (fun _ => "")
    "  NjgsNjYsNjUsNzcsNjUsNzAsNjUsNjgsNjQsNjYsMTA=.  " = .ok 659525046 := by decide +kernel

theorem public_admin_ps_read :
    decodeBase64Credential (Base64Engine.standard id).decode id (fun _ => "")
      (String.ofList ([' ', ' '] ++
        (((encodeBase64Credential (Base64Engine.standard id).encode 659525046 0x74).toList ++
          List.replicate 1 '.') ++ [' ', ' ']))) = .ok 659525046 := by
  have hspaces : ∀ c ∈ [' ', ' '], isWhitespace c = true := by
    intro c hc
    rw [List.eq_of_mem_replicate (n := 2) hc]
    decide
  exact decodeBase64Credential_encode (Base64Engine.standard_lawful id) id (fun _ => "") 659525046 0x74
    hspaces hspaces 1

end TTLock
