import Mathlib.Data.List.TakeWhile
import TTLock.Lib.Hex

set_option autoImplicit false

/-! # JSON

Values, the text they are written as (an item a line, two spaces of indentation for each level) and a
reader of JSON text. A value without floating-point numbers is read back as it was written. -/

inductive Json where
  | null
  | bool (value : Bool)
  | int (value : Int)
  /-- A number with a fraction or an exponent, or minus zero, as it is spelled. -/
  | float (spelling : List Char)
  | text (value : String)
  | array (values : List Json)
  /-- The members in the order they are written; a key may occur more than once. -/
  | object (members : List (String × Json))

namespace Json

mutual

/-- How many arrays and objects are open at once at the most. -/
def depth : Json → Nat
  | .null | .bool _ | .int _ | .float _ | .text _ => 0
  | .array values => depthItems values + 1
  | .object members => depthMembers members + 1

def depthItems : List Json → Nat
  | [] => 0
  | value :: values => max value.depth (depthItems values)

def depthMembers : List (String × Json) → Nat
  | [] => 0
  | (_, value) :: members => max value.depth (depthMembers members)

end

/-! ## Text -/

def quote : Char := Char.ofNat 34
def backslash : Char := Char.ofNat 92

/-- The letter that stands for a control character after a backslash. -/
def shortEscape (n : Nat) : Option Char :=
  if n = 8 then some 'b'
  else if n = 9 then some 't'
  else if n = 10 then some 'n'
  else if n = 12 then some 'f'
  else if n = 13 then some 'r'
  else none

/-- A character within quotes. -/
def escape (c : Char) : List Char :=
  if c = quote ∨ c = backslash then [backslash, c]
  else match shortEscape c.toNat with
    | some letter => [backslash, letter]
    | none =>
        if c.toNat < 32 then
          [backslash, 'u', '0', '0', Hex.digit (c.toNat / 16), Hex.digit (c.toNat % 16)]
        else [c]

def writeText (cs : List Char) : List Char := quote :: (cs.flatMap escape ++ [quote])

/-- The number that four hexadecimal digits spell. -/
def fourDigits : List Char → Option (Nat × List Char)
  | a :: b :: c :: d :: rest => do
      let a ← Hex.value a
      let b ← Hex.value b
      let c ← Hex.value c
      let d ← Hex.value d
      return (((a * 16 + b) * 16 + c) * 16 + d, rest)
  | _ => none

/-- The second half of a surrogate pair. -/
def lowSurrogate : List Char → Option (Nat × List Char)
  | slash :: u :: rest =>
      if slash = backslash ∧ u = 'u' then
        (fourDigits rest).filter fun low => 0xdc00 ≤ low.1 && low.1 ≤ 0xdfff
      else none
  | _ => none

/-- What follows `\u`. -/
def readUnicode (cs : List Char) : Option (Char × List Char) := do
  let (unit, rest) ← fourDigits cs
  if unit < 0xd800 ∨ 0xdfff < unit then return (Char.ofNat unit, rest)
  else if unit < 0xdc00 then
    -- the first half of a pair is nothing by itself
    let (low, rest) ← lowSurrogate rest
    return (Char.ofNat (0x10000 + (unit - 0xd800) * 0x400 + (low - 0xdc00)), rest)
  else none

/-- What follows a backslash. -/
def readEscape : List Char → Option (Char × List Char)
  | [] => none
  | c :: rest =>
      if c = quote ∨ c = backslash ∨ c = '/' then some (c, rest)
      else if c = 'b' then some (Char.ofNat 8, rest)
      else if c = 't' then some (Char.ofNat 9, rest)
      else if c = 'n' then some (Char.ofNat 10, rest)
      else if c = 'f' then some (Char.ofNat 12, rest)
      else if c = 'r' then some (Char.ofNat 13, rest)
      else if c = 'u' then readUnicode rest
      else none

/-- What follows the opening quote: the text and what comes after the closing one. -/
def readText : (fuel : Nat) → List Char → Option (List Char × List Char)
  | 0, _ | _, [] => none
  | fuel + 1, c :: rest =>
      if c = quote then some ([], rest)
      else do
        let (c, rest) ← if c = backslash then readEscape rest
          else if c.toNat < 32 then none
          else some (c, rest)
        let (cs, rest) ← readText fuel rest
        return (c :: cs, rest)

/-! ## Numbers -/

def writeInt : Int → List Char
  | .ofNat n => Nat.toDigits 10 n
  | .negSucc n => '-' :: Nat.toDigits 10 (n + 1)

/-- A character that may be part of a number. -/
def isNumeral (c : Char) : Bool := c.isDigit || c = '-' || c = '+' || c = '.' || c = 'e' || c = 'E'

/-- Digits, without a zero in front of others. -/
def isWhole (digits : List Char) : Bool :=
  digits.all Char.isDigit && (digits.length = 1 || digits.head?.any (· ≠ '0'))

def isExponent : List Char → Bool
  | [] => true
  | e :: rest =>
      let digits := if rest.head?.any fun c => c = '+' || c = '-' then rest.tail else rest
      (e = 'e' || e = 'E') && digits ≠ [] && digits.all Char.isDigit

/-- A fraction and an exponent, either of which may be missing. -/
def isFraction : List Char → Bool
  | [] => true
  | c :: rest =>
      if c = '.' then
        rest.takeWhile Char.isDigit ≠ [] && isExponent (rest.dropWhile Char.isDigit)
      else isExponent (c :: rest)

def number (token : List Char) : Option Json :=
  let negative := token.head? = some '-'
  let digits := if negative then token.tail else token
  -- no integer is minus zero
  if negative && digits = ['0'] then some (.float token)
  else if isWhole digits then
    let value : Int := Nat.ofDigitChars 10 digits 0
    some (.int (if negative then -value else value))
  else if isWhole (digits.takeWhile Char.isDigit) && isFraction (digits.dropWhile Char.isDigit) then
    some (.float token)
  else none

/-! ## Values -/

def newline (depth : Nat) : List Char := Char.ofNat 10 :: List.replicate (2 * depth) ' '

mutual

def write (depth : Nat) : Json → List Char
  | .null => ['n', 'u', 'l', 'l']
  | .bool true => ['t', 'r', 'u', 'e']
  | .bool false => ['f', 'a', 'l', 's', 'e']
  | .int value => writeInt value
  | .float spelling => spelling
  | .text value => writeText value.toList
  | .array [] => ['[', ']']
  | .array (value :: values) =>
      '[' :: (newline (depth + 1) ++ write (depth + 1) value ++ writeItems (depth + 1) values ++
        newline depth ++ [']'])
  | .object [] => ['{', '}']
  | .object ((key, value) :: members) =>
      '{' :: (newline (depth + 1) ++ writeText key.toList ++ ':' :: ' ' :: write (depth + 1) value ++
        writeMembers (depth + 1) members ++ newline depth ++ ['}'])

def writeItems (depth : Nat) : List Json → List Char
  | [] => []
  | value :: values => ',' :: (newline depth ++ write depth value ++ writeItems depth values)

def writeMembers (depth : Nat) : List (String × Json) → List Char
  | [] => []
  | (key, value) :: members =>
      ',' :: (newline depth ++ writeText key.toList ++ ':' :: ' ' :: write depth value ++
        writeMembers depth members)

end

/-- Whitespace between tokens. -/
def isSpace (c : Char) : Bool := c = ' ' || c.toNat = 9 || c.toNat = 10 || c.toNat = 13

def skip (cs : List Char) : List Char := cs.dropWhile isSpace

/-- `cs` after this token. -/
def expect (token cs : List Char) : Option (List Char) :=
  if token.isPrefixOf cs then some (cs.drop token.length) else none

/-- Whether this character is next. -/
def next? (c : Char) (cs : List Char) : Option (List Char) :=
  match skip cs with
  | [] => none
  | c' :: rest => if c' = c then some rest else none

/-- A key and the colon after it. -/
def readKey (cs : List Char) : Option (String × List Char) := do
  let cs ← next? quote cs
  let (key, cs) ← readText cs.length cs
  let cs ← next? ':' cs
  return (String.ofList key, cs)

/-- What is no array and no object. -/
def readScalar : List Char → Option (Json × List Char)
  | [] => none
  | c :: rest =>
      if c = quote then (readText rest.length rest).map fun (cs, rest) => (.text (String.ofList cs), rest)
      else if c = 'n' then (expect ['u', 'l', 'l'] rest).map fun rest => (.null, rest)
      else if c = 't' then (expect ['r', 'u', 'e'] rest).map fun rest => (.bool true, rest)
      else if c = 'f' then (expect ['a', 'l', 's', 'e'] rest).map fun rest => (.bool false, rest)
      else (number ((c :: rest).takeWhile isNumeral)).map fun value =>
        (value, (c :: rest).dropWhile isNumeral)

mutual

def read : (fuel : Nat) → List Char → Option (Json × List Char)
  | 0, _ => none
  | fuel + 1, cs => match next? '[' cs with
    | some cs => match next? ']' cs with
      | some cs => some (.array [], cs)
      | none => do
          let (value, cs) ← read fuel cs
          let (values, cs) ← readItems fuel cs
          return (.array (value :: values), cs)
    | none => match next? '{' cs with
      | some cs => match next? '}' cs with
        | some cs => some (.object [], cs)
        | none => do
            let (key, cs) ← readKey cs
            let (value, cs) ← read fuel cs
            let (members, cs) ← readMembers fuel cs
            return (.object ((key, value) :: members), cs)
      | none => readScalar (skip cs)

/-- What follows an item of an array. -/
def readItems : (fuel : Nat) → List Char → Option (List Json × List Char)
  | 0, _ => none
  | fuel + 1, cs => match next? ']' cs with
    | some cs => some ([], cs)
    | none => do
        let cs ← next? ',' cs
        let (value, cs) ← read fuel cs
        let (values, cs) ← readItems fuel cs
        return (value :: values, cs)

/-- What follows a member of an object. -/
def readMembers : (fuel : Nat) → List Char → Option (List (String × Json) × List Char)
  | 0, _ => none
  | fuel + 1, cs => match next? '}' cs with
    | some cs => some ([], cs)
    | none => do
        let cs ← next? ',' cs
        let (key, cs) ← readKey cs
        let (value, cs) ← read fuel cs
        let (members, cs) ← readMembers fuel cs
        return ((key, value) :: members, cs)

end

def encode (value : Json) : List Char := write 0 value

/-- The value a text is, with nothing but whitespace around it. -/
def decode (cs : List Char) : Option Json := do
  let (value, rest) ← read cs.length cs
  if skip rest = [] then return value else none

/-! ## Round trip: text -/

theorem backslash_ne_quote : backslash ≠ quote := by decide

theorem readEscape_short {n : Nat} {letter : Char} (h : shortEscape n = some letter)
    (rest : List Char) : readEscape (letter :: rest) = some (Char.ofNat n, rest) := by
  unfold shortEscape at h
  split at h
  · next hn => cases h; rw [hn]; rfl
  · split at h
    · next hn => cases h; rw [hn]; rfl
    · split at h
      · next hn => cases h; rw [hn]; rfl
      · split at h
        · next hn => cases h; rw [hn]; rfl
        · split at h
          · next hn => cases h; rw [hn]; rfl
          · cases h

theorem readEscape_unicode {n : Nat} (hn : n < 256) (rest : List Char) :
    readEscape ('u' :: '0' :: '0' :: Hex.digit (n / 16) :: Hex.digit (n % 16) :: rest) =
      some (Char.ofNat n, rest) := by
  have hdigits : fourDigits ('0' :: '0' :: Hex.digit (n / 16) :: Hex.digit (n % 16) :: rest) =
      some (n, rest) := by
    have hhigh := Hex.value_digit (n / 16) (by omega)
    have hlow := Hex.value_digit (n % 16) (by omega)
    have hzero : Hex.value '0' = some 0 := by decide
    have hspelled : ((0 * 16 + 0) * 16 + n / 16) * 16 + n % 16 = n := by omega
    rw [fourDigits, hhigh, hlow, hzero]
    show some (((0 * 16 + 0) * 16 + n / 16) * 16 + n % 16, rest) = _
    rw [hspelled]
  show readUnicode _ = _
  rw [readUnicode, hdigits]
  exact if_pos (.inl (by omega))

/-- A character that is escaped is read back, and takes one step. -/
theorem readText_escape (fuel : Nat) (c : Char) (rest : List Char) :
    readText (fuel + 1) (escape c ++ rest) =
      (readText fuel rest).bind fun (cs, rest) => some (c :: cs, rest) := by
  have hslash : ∀ (letter : Char) (more : List Char), readEscape (letter :: more) = some (c, rest) →
      readText (fuel + 1) (backslash :: letter :: more) =
        (readText fuel rest).bind fun (cs, rest) => some (c :: cs, rest) := by
    intro letter more h
    rw [readText, if_neg backslash_ne_quote, if_pos rfl, h]
    rfl
  unfold escape
  split
  · next hspecial =>
      refine hslash c rest ?_
      rw [readEscape]
      exact if_pos (by tauto)
  · next hplain =>
      rw [not_or] at hplain
      split
      · next letter hletter =>
          refine hslash letter rest ?_
          rw [readEscape_short hletter, Char.ofNat_toNat]
      · split
        · next hcontrol =>
            refine hslash 'u' _ ?_
            exact (readEscape_unicode (by omega) rest).trans (by rw [Char.ofNat_toNat])
        · next hlarge =>
            rw [List.singleton_append, readText, if_neg hplain.1, if_neg hplain.2, if_neg hlarge]
            rfl

/-- **Text is read back.** -/
theorem readText_write {fuel : Nat} {cs : List Char} (h : cs.length < fuel) (rest : List Char) :
    readText fuel (cs.flatMap escape ++ quote :: rest) = some (cs, rest) := by
  induction cs generalizing fuel with
  | nil =>
      obtain ⟨fuel, rfl⟩ := Nat.exists_eq_succ_of_ne_zero (Nat.ne_of_gt h)
      exact if_pos rfl
  | cons c cs ih =>
      obtain ⟨fuel, rfl⟩ := Nat.exists_eq_succ_of_ne_zero (Nat.ne_of_gt (Nat.zero_lt_of_lt h))
      rw [List.flatMap_cons, List.append_assoc, readText_escape, ih (Nat.lt_of_succ_lt_succ h)]
      rfl

theorem length_le_flatMap_escape (cs : List Char) : cs.length ≤ (cs.flatMap escape).length := by
  induction cs with
  | nil => exact Nat.le_refl _
  | cons c cs ih =>
      have hc : 1 ≤ (escape c).length := by
        unfold escape
        split
        · exact Nat.le_add_left 1 1
        · split
          · exact Nat.le_add_left 1 1
          · split <;> simp
      rw [List.flatMap_cons, List.length_append, List.length_cons]
      omega

/-! ## Round trip: numbers -/

theorem head?_toDigits {n : Nat} (hn : 0 < n) : ∃ c, (Nat.toDigits 10 n).head? = some c ∧ c ≠ '0' := by
  induction n using Nat.strongRecOn with
  | ind n ih =>
      by_cases hsmall : n < 10
      · refine ⟨n.digitChar, by rw [Nat.toDigits_of_lt_base hsmall]; rfl, ?_⟩
        have hdigit : ∀ m < 10, 0 < m → m.digitChar ≠ '0' := by decide
        exact hdigit n hsmall hn
      · obtain ⟨c, hc, hne⟩ := ih (n / 10) (by omega) (by omega)
        refine ⟨c, ?_, hne⟩
        rw [Nat.toDigits_of_base_le (by decide) (by omega), List.head?_append, hc]
        rfl

theorem isWhole_toDigits (n : Nat) : isWhole (Nat.toDigits 10 n) = true := by
  have hdigits : (Nat.toDigits 10 n).all Char.isDigit = true :=
    List.all_eq_true.2 fun c hc => Nat.isDigit_of_mem_toDigits (by decide) (by decide) hc
  rw [isWhole, hdigits, Bool.true_and, Bool.or_eq_true]
  by_cases hn : n = 0
  · subst hn
    exact .inl (by decide)
  · obtain ⟨c, hc, hne⟩ := head?_toDigits (Nat.pos_of_ne_zero hn)
    refine .inr ?_
    rw [hc]
    simpa using hne

theorem number_writeInt (value : Int) : number (writeInt value) = some (.int value) := by
  cases value with
  | ofNat n =>
      have hsign : (Nat.toDigits 10 n).head? ≠ some '-' := by
        intro h
        have hdigit := Nat.isDigit_of_mem_toDigits (by decide) (by decide) (List.mem_of_mem_head? h)
        exact absurd hdigit (by decide)
      simp [number, writeInt, hsign, isWhole_toDigits, Nat.ofDigitChars_ten_toDigits]
  | negSucc n =>
      obtain ⟨c, hc, hne⟩ := head?_toDigits n.succ_pos
      have hzero : Nat.toDigits 10 (n + 1) ≠ ['0'] := by
        intro h
        rw [h] at hc
        exact hne (Option.some.inj hc).symm
      simp only [number, writeInt, List.head?_cons, List.tail_cons, hzero, isWhole_toDigits,
        Nat.ofDigitChars_ten_toDigits, decide_true, decide_false, Bool.and_false, Bool.false_eq_true,
        if_true, if_false]
      rfl

theorem isNumeral_of_mem_writeInt {value : Int} {c : Char} (h : c ∈ writeInt value) :
    isNumeral c = true := by
  have hdigit : ∀ n, c ∈ Nat.toDigits 10 n → isNumeral c = true := fun n hc => by
    rw [isNumeral, Nat.isDigit_of_mem_toDigits (by decide) (by decide) hc]
    rfl
  cases value with
  | ofNat n => exact hdigit n h
  | negSucc n =>
      rcases List.mem_cons.1 h with rfl | h
      · rfl
      · exact hdigit _ h

/-! ## Round trip: values -/

@[simp] theorem skip_newline (depth : Nat) (cs : List Char) : skip (newline depth ++ cs) = skip cs := by
  have hspaces : ∀ c ∈ newline depth, isSpace c = true := by
    intro c hc
    rcases List.mem_cons.1 hc with rfl | hc
    · decide
    · rw [(List.mem_replicate.1 hc).2]
      decide
  exact List.dropWhile_append_of_pos hspaces

theorem skip_cons {c : Char} (hc : isSpace c = false) (cs : List Char) : skip (c :: cs) = c :: cs :=
  List.dropWhile_cons_of_neg (by simp [hc])

@[simp] theorem next?_newline (c : Char) (depth : Nat) (cs : List Char) :
    next? c (newline depth ++ cs) = next? c cs := by
  rw [next?, skip_newline, next?]

theorem next?_self {c : Char} (hc : isSpace c = false) (cs : List Char) : next? c (c :: cs) = some cs := by
  rw [next?, skip_cons hc]
  exact if_pos rfl

theorem next?_ne {c c' : Char} (hc : isSpace c' = false) (hne : c' ≠ c) (cs : List Char) :
    next? c (c' :: cs) = none := by
  rw [next?, skip_cons hc]
  exact if_neg hne

/-- Whitespace in front makes no difference. -/
theorem read_newline (fuel depth : Nat) (cs : List Char) :
    read fuel (newline depth ++ cs) = read fuel cs := by
  cases fuel with
  | zero => rfl
  | succ fuel => rw [read, read, next?_newline, next?_newline, skip_newline]

/-- No number goes on here. -/
def Ends (cs : List Char) : Prop := ∀ c rest, cs = c :: rest → isNumeral c = false

theorem ends_cons {c : Char} (h : isNumeral c = false) (cs : List Char) : Ends (c :: cs) := by
  rintro _ _ ⟨⟩
  exact h

theorem ends_newline (depth : Nat) (cs : List Char) : Ends (newline depth ++ cs) :=
  ends_cons (by decide) _

theorem readKey_write (key : String) (rest : List Char) :
    readKey (writeText key.toList ++ ':' :: rest) = some (key, rest) := by
  have hopen : writeText key.toList ++ ':' :: rest =
      quote :: (key.toList.flatMap escape ++ quote :: ':' :: rest) := by
    simp [writeText]
  have hfuel : key.toList.length < (key.toList.flatMap escape ++ quote :: ':' :: rest).length := by
    have hlen := length_le_flatMap_escape key.toList
    rw [List.length_append, List.length_cons]
    omega
  rw [readKey, hopen, next?_self (by decide)]
  show (readText _ _).bind _ = _
  rw [readText_write hfuel, Option.bind_some]
  dsimp only
  rw [next?_self (by decide)]
  show some (String.ofList key.toList, rest) = _
  rw [String.ofList_toList]

/-! No floating-point numbers, and integers within a range. -/

mutual

def Plain (range : Int → Prop) : Json → Prop
  | .null | .bool _ | .text _ => True
  | .int value => range value
  | .float _ => False
  | .array values => PlainItems range values
  | .object members => PlainMembers range members

def PlainItems (range : Int → Prop) : List Json → Prop
  | [] => True
  | value :: values => value.Plain range ∧ PlainItems range values

def PlainMembers (range : Int → Prop) : List (String × Json) → Prop
  | [] => True
  | (_, value) :: members => value.Plain range ∧ PlainMembers range members

end

/-! The members of an object are like the items of the array of their values. -/

theorem plainMembers_iff {range : Int → Prop} {members : List (String × Json)} :
    PlainMembers range members ↔ PlainItems range (members.map Prod.snd) := by
  induction members with
  | nil => exact Iff.rfl
  | cons member members ih => exact and_congr_right fun _ => ih

theorem depthMembers_eq (members : List (String × Json)) :
    depthMembers members = depthItems (members.map Prod.snd) := by
  induction members with
  | nil => rfl
  | cons member members ih => rw [depthMembers, List.map_cons, depthItems, ih]

theorem ne_of_isNumeral {c c' : Char} (h : isNumeral c = true) (hc' : isNumeral c' = false) : c ≠ c' := by
  rintro rfl
  rw [h] at hc'
  cases hc'

theorem isSpace_of_isNumeral {c : Char} (h : isNumeral c = true) : isSpace c = false := by
  have hne : ∀ n, isNumeral (Char.ofNat n) = false → c.toNat ≠ n := by
    rintro n hn rfl
    rw [Char.ofNat_toNat, h] at hn
    cases hn
  have hblank : c ≠ ' ' := ne_of_isNumeral h (by decide)
  simp [isSpace, hblank, hne 9 (by decide), hne 10 (by decide), hne 13 (by decide)]

theorem writeInt_head (value : Int) : ∃ c cs, writeInt value = c :: cs ∧ isNumeral c = true := by
  have hne : writeInt value ≠ [] := by
    cases value with
    | ofNat n => exact Nat.toDigits_ne_nil
    | negSucc n => exact List.cons_ne_nil _ _
  obtain ⟨c, cs, heq⟩ := List.exists_cons_of_ne_nil hne
  exact ⟨c, cs, heq, isNumeral_of_mem_writeInt (heq ▸ List.mem_cons_self)⟩

/-- What a value begins with: no whitespace, and nothing that ends an array or an object. -/
theorem write_head {range : Int → Prop} (depth : Nat) {value : Json} (h : value.Plain range) :
    ∃ c cs, write depth value = c :: cs ∧ isSpace c = false ∧ c ≠ ']' ∧ c ≠ '}' := by
  cases value with
  | null => exact ⟨'n', _, rfl, by decide⟩
  | bool value => cases value with
    | false => exact ⟨'f', _, rfl, by decide⟩
    | true => exact ⟨'t', _, rfl, by decide⟩
  | int value =>
      obtain ⟨c, cs, heq, hc⟩ := writeInt_head value
      exact ⟨c, cs, heq, isSpace_of_isNumeral hc, ne_of_isNumeral hc (by decide),
        ne_of_isNumeral hc (by decide)⟩
  | float spelling => exact h.elim
  | text value => exact ⟨quote, _, rfl, by decide⟩
  | array values => cases values with
    | nil => exact ⟨'[', _, rfl, by decide⟩
    | cons value values => exact ⟨'[', _, rfl, by decide⟩
  | object members => cases members with
    | nil => exact ⟨'{', _, rfl, by decide⟩
    | cons member members => exact ⟨'{', _, rfl, by decide⟩

theorem read_scalar {fuel : Nat} {c : Char} {cs rest : List Char} {value : Json}
    (hspace : isSpace c = false) (harray : c ≠ '[') (hobject : c ≠ '{')
    (h : readScalar (c :: cs) = some (value, rest)) : read (fuel + 1) (c :: cs) = some (value, rest) := by
  rw [read, next?_ne hspace harray, next?_ne hspace hobject, skip_cons hspace]
  exact h

/-- A number ends where no numeral follows. -/
theorem span_numerals {cs rest : List Char} (hcs : ∀ c ∈ cs, isNumeral c = true) (hrest : Ends rest) :
    (cs ++ rest).takeWhile isNumeral = cs ∧ (cs ++ rest).dropWhile isNumeral = rest := by
  rw [List.takeWhile_append_of_pos hcs, List.dropWhile_append_of_pos hcs]
  cases rest with
  | nil => exact ⟨List.append_nil cs, rfl⟩
  | cons c rest =>
      have hc := hrest c rest rfl
      rw [List.takeWhile_cons_of_neg (by simp [hc]), List.dropWhile_cons_of_neg (by simp [hc]),
        List.append_nil]
      exact ⟨rfl, rfl⟩

theorem read_writeInt (fuel : Nat) (value : Int) {rest : List Char} (hrest : Ends rest) :
    read (fuel + 1) (writeInt value ++ rest) = some (.int value, rest) := by
  obtain ⟨htake, hdrop⟩ := span_numerals (fun c hc => isNumeral_of_mem_writeInt hc) hrest
  obtain ⟨c, cs, heq, hc⟩ := writeInt_head value
  rw [heq, List.cons_append] at htake hdrop
  rw [heq, List.cons_append]
  refine read_scalar (isSpace_of_isNumeral hc) (ne_of_isNumeral hc (by decide))
    (ne_of_isNumeral hc (by decide)) ?_
  rw [readScalar, if_neg (ne_of_isNumeral hc (by decide)), if_neg (ne_of_isNumeral hc (by decide)),
    if_neg (ne_of_isNumeral hc (by decide)), if_neg (ne_of_isNumeral hc (by decide)), htake, hdrop, ← heq,
    number_writeInt]
  rfl

theorem read_writeText (fuel : Nat) (text : String) (rest : List Char) :
    read (fuel + 1) (writeText text.toList ++ rest) = some (.text text, rest) := by
  have hopen : writeText text.toList ++ rest = quote :: (text.toList.flatMap escape ++ quote :: rest) := by
    simp [writeText]
  have hfuel : text.toList.length < (text.toList.flatMap escape ++ quote :: rest).length := by
    have hlen := length_le_flatMap_escape text.toList
    rw [List.length_append, List.length_cons]
    omega
  rw [hopen]
  refine read_scalar (by decide) (by decide) (by decide) ?_
  rw [readScalar, if_pos rfl, readText_write hfuel]
  show some (Json.text (String.ofList text.toList), rest) = _
  rw [String.ofList_toList]

/-- What follows a value in an array or an object ends a number. -/
theorem ends_writeItems (depth depth' : Nat) (values : List Json) (rest : List Char) :
    Ends (writeItems depth values ++ (newline depth' ++ rest)) := by
  cases values with
  | nil => exact ends_newline depth' rest
  | cons value values => exact ends_cons (by decide) _

theorem ends_writeMembers (depth depth' : Nat) (members : List (String × Json)) (rest : List Char) :
    Ends (writeMembers depth members ++ (newline depth' ++ rest)) := by
  cases members with
  | nil => exact ends_newline depth' rest
  | cons member members => exact ends_cons (by decide) _

theorem next?_write {range : Int → Prop} (depth : Nat) {value : Json} (hplain : value.Plain range)
    {c : Char} (hc : c = ']' ∨ c = '}') (rest : List Char) :
    next? c (write depth value ++ rest) = none := by
  obtain ⟨c', cs, heq, hspace, harray, hobject⟩ := write_head depth hplain
  rw [heq, List.cons_append]
  rcases hc with rfl | rfl
  · exact next?_ne hspace harray _
  · exact next?_ne hspace hobject _

theorem next?_writeText {c : Char} (hc : quote ≠ c) (text rest : List Char) :
    next? c (writeText text ++ rest) = none :=
  next?_ne (by decide) hc _

theorem readKey_newline (depth : Nat) (cs : List Char) : readKey (newline depth ++ cs) = readKey cs := by
  rw [readKey, next?_newline, readKey]

/-- A blank in front makes no difference either. -/
theorem read_blank (fuel : Nat) (cs : List Char) : read fuel (' ' :: cs) = read fuel cs := by
  cases fuel with
  | zero => rfl
  | succ fuel => rfl

mutual

theorem read_write (range : Int → Prop) : ∀ (fuel depth : Nat) (value : Json) (rest : List Char),
    value.Plain range → Ends rest → (write depth value).length ≤ fuel →
    read fuel (write depth value ++ rest) = some (value, rest)
  | fuel + 1, depth, .null, rest, _, _, _ => read_scalar (by decide) (by decide) (by decide) rfl
  | fuel + 1, depth, .bool false, rest, _, _, _ => read_scalar (by decide) (by decide) (by decide) rfl
  | fuel + 1, depth, .bool true, rest, _, _, _ => read_scalar (by decide) (by decide) (by decide) rfl
  | fuel + 1, depth, .int value, rest, _, hrest, _ => read_writeInt fuel value hrest
  | fuel, depth, .float spelling, rest, hplain, _, _ => hplain.elim
  | fuel + 1, depth, .text value, rest, _, _, _ => read_writeText fuel value rest
  | fuel + 1, depth, .array [], rest, _, _, _ => by
      rw [write, List.cons_append, read, next?_self (by decide)]
      dsimp only
      rw [List.singleton_append, next?_self (by decide)]
  | fuel + 1, depth, .array (value :: values), rest, hplain, _, hfuel => by
      have htext : write depth (.array (value :: values)) ++ rest = '[' :: (newline (depth + 1) ++
          (write (depth + 1) value ++
            (writeItems (depth + 1) values ++ (newline depth ++ ']' :: rest)))) := by
        simp [write]
      simp only [write, List.length_cons, List.length_append] at hfuel
      have hvalue := read_write range fuel (depth + 1) value
        (writeItems (depth + 1) values ++ (newline depth ++ ']' :: rest)) hplain.1
        (ends_writeItems _ _ _ _) (by omega)
      have hitems := readItems_write range fuel (depth + 1) depth values rest hplain.2 (by omega)
      rw [htext, read, next?_self (by decide)]
      dsimp only
      rw [next?_newline, next?_write depth.succ hplain.1 (.inl rfl), read_newline]
      simp only [hvalue, hitems, Option.bind_eq_bind, Option.bind_some, Option.pure_def]
  | fuel + 1, depth, .object [], rest, _, _, _ => by
      rw [write, List.cons_append, read, next?_ne (by decide) (by decide), next?_self (by decide)]
      dsimp only
      rw [List.singleton_append, next?_self (by decide)]
  | fuel + 1, depth, .object ((key, value) :: members), rest, hplain, _, hfuel => by
      have htext : write depth (.object ((key, value) :: members)) ++ rest = '{' :: (newline (depth + 1) ++
          (writeText key.toList ++ ':' :: ' ' :: (write (depth + 1) value ++
            (writeMembers (depth + 1) members ++ (newline depth ++ '}' :: rest))))) := by
        simp [write]
      simp only [write, List.length_cons, List.length_append] at hfuel
      have hvalue := read_write range fuel (depth + 1) value
        (writeMembers (depth + 1) members ++ (newline depth ++ '}' :: rest)) hplain.1
        (ends_writeMembers _ _ _ _) (by omega)
      have hmembers := readMembers_write range fuel (depth + 1) depth members rest hplain.2 (by omega)
      rw [htext, read, next?_ne (by decide) (by decide), next?_self (by decide)]
      dsimp only
      rw [next?_newline, next?_writeText (by decide), readKey_newline, readKey_write]
      simp only [read_blank, hvalue, hmembers, Option.bind_eq_bind, Option.bind_some, Option.pure_def]
  | 0, depth, value, rest, hplain, _, hfuel => by
      obtain ⟨c, cs, heq, -⟩ := write_head depth hplain
      rw [heq] at hfuel
      cases hfuel

theorem readItems_write (range : Int → Prop) : ∀ (fuel depth depth' : Nat) (values : List Json)
    (rest : List Char), PlainItems range values → (writeItems depth values).length + 1 ≤ fuel →
    readItems fuel (writeItems depth values ++ (newline depth' ++ ']' :: rest)) = some (values, rest)
  | fuel + 1, depth, depth', [], rest, _, _ => by
      rw [writeItems, List.nil_append, readItems, next?_newline, next?_self (by decide)]
  | fuel + 1, depth, depth', value :: values, rest, hplain, hfuel => by
      have htext : writeItems depth (value :: values) ++ (newline depth' ++ ']' :: rest) =
          ',' :: (newline depth ++ (write depth value ++
            (writeItems depth values ++ (newline depth' ++ ']' :: rest)))) := by
        simp [writeItems]
      simp only [writeItems, List.length_cons, List.length_append] at hfuel
      have hvalue := read_write range fuel depth value
        (writeItems depth values ++ (newline depth' ++ ']' :: rest)) hplain.1 (ends_writeItems _ _ _ _)
        (by omega)
      have hitems := readItems_write range fuel depth depth' values rest hplain.2 (by omega)
      rw [htext, readItems, next?_ne (by decide) (by decide)]
      simp only [next?_self (show isSpace ',' = false by decide), read_newline, hvalue, hitems,
        Option.bind_eq_bind, Option.bind_some, Option.pure_def]

theorem readMembers_write (range : Int → Prop) : ∀ (fuel depth depth' : Nat)
    (members : List (String × Json)) (rest : List Char), PlainMembers range members →
    (writeMembers depth members).length + 1 ≤ fuel →
    readMembers fuel (writeMembers depth members ++ (newline depth' ++ '}' :: rest)) =
      some (members, rest)
  | fuel + 1, depth, depth', [], rest, _, _ => by
      rw [writeMembers, List.nil_append, readMembers, next?_newline, next?_self (by decide)]
  | fuel + 1, depth, depth', (key, value) :: members, rest, hplain, hfuel => by
      have htext : writeMembers depth ((key, value) :: members) ++ (newline depth' ++ '}' :: rest) =
          ',' :: (newline depth ++ (writeText key.toList ++ ':' :: ' ' :: (write depth value ++
            (writeMembers depth members ++ (newline depth' ++ '}' :: rest))))) := by
        simp [writeMembers]
      simp only [writeMembers, List.length_cons, List.length_append] at hfuel
      have hvalue := read_write range fuel depth value
        (writeMembers depth members ++ (newline depth' ++ '}' :: rest)) hplain.1
        (ends_writeMembers _ _ _ _) (by omega)
      have hmembers := readMembers_write range fuel depth depth' members rest hplain.2 (by omega)
      rw [htext, readMembers, next?_ne (by decide) (by decide)]
      simp only [next?_self (show isSpace ',' = false by decide), readKey_newline, readKey_write,
        read_blank, hvalue, hmembers, Option.bind_eq_bind, Option.bind_some, Option.pure_def]

end

/-- **What is written is read back**, with any whitespace after it. -/
theorem decode_encode (range : Int → Prop) {value : Json} (hplain : value.Plain range) {rest : List Char}
    (hrest : ∀ c ∈ rest, isSpace c = true) : decode (encode value ++ rest) = some value := by
  have hends : Ends rest := by
    rintro c cs rfl
    have hspace := hrest c List.mem_cons_self
    cases hnumeral : isNumeral c with
    | false => rfl
    | true =>
        rw [isSpace_of_isNumeral hnumeral] at hspace
        cases hspace
  have hread := read_write range (encode value ++ rest).length 0 value rest hplain hends
    (by rw [encode, List.length_append]; omega)
  have hskip : skip rest = [] := List.dropWhile_eq_nil_iff.2 hrest
  rw [encode] at hread ⊢
  rw [decode, hread]
  exact if_pos hskip

/-- An array is written as one. -/
theorem encode_array (values : List Json) : ∃ cs, encode (.array values) = '[' :: cs := by
  cases values with
  | nil => exact ⟨_, rfl⟩
  | cons value values => exact ⟨_, rfl⟩

theorem encode_object (members : List (String × Json)) : ∃ cs, encode (.object members) = '{' :: cs := by
  cases members with
  | nil => exact ⟨_, rfl⟩
  | cons member members => exact ⟨_, rfl⟩

end Json
