import Mathlib.Data.List.DropRight

set_option autoImplicit false

/-! # Text

What the program uses of Rust's `char` and `str`: whitespace, ASCII case, number parsing, trimming,
splitting and UTF-8. Case is the ASCII case only, as in the `_ascii_` methods; `Char.toLower` is exactly
that. -/

namespace TTLock

/-- `char::is_whitespace`: the Unicode `White_Space` property. -/
def isWhitespace (c : Char) : Bool :=
  let n := c.toNat
  (0x09 ≤ n && n ≤ 0x0d) || n == 0x20 || n == 0x85 || n == 0xa0 || n == 0x1680 ||
    (0x2000 ≤ n && n ≤ 0x200a) || n == 0x2028 || n == 0x2029 || n == 0x202f || n == 0x205f ||
    n == 0x3000

/-- `str::to_ascii_lowercase`, as characters. -/
def toAsciiLowercase (s : String) : List Char := s.toList.map Char.toLower

/-- `str::eq_ignore_ascii_case`. -/
def eqIgnoreAsciiCase (a b : String) : Bool := toAsciiLowercase a == toAsciiLowercase b

/-- `str::parse` for an unsigned type whose largest value is `max`: an optional plus sign, then at
    least one decimal digit and nothing else. -/
def parseUnsigned (max : Nat) (text : String) : Option Nat :=
  let digits := match text.toList with
    | '+' :: rest => rest
    | chars => chars
  if digits.isEmpty || !digits.all Char.isDigit then none
  else
    let value := digits.foldl (fun acc c => acc * 10 + (c.toNat - '0'.toNat)) 0
    if value ≤ max then some value else none

/-- The text of the error of a number that `parseUnsigned` refuses. The digits are looked at one by one,
    so that the first that is none, or that is one too many, decides. -/
def parseIntError (max : Nat) (text : String) : String :=
  match text.toList with
  | [] => "cannot parse integer from empty string"
  | ['+'] => "invalid digit found in string"
  | '+' :: digits => scan 0 digits
  | digits => scan 0 digits
where
  scan (value : Nat) : List Char → String
    | [] => "number too large to fit in target type"
    | c :: rest =>
        if !c.isDigit then "invalid digit found in string"
        else if max < value * 10 + (c.toNat - '0'.toNat) then "number too large to fit in target type"
        else scan (value * 10 + (c.toNat - '0'.toNat)) rest

/-- `str::trim`, as characters. -/
def trim (text : String) : List Char :=
  ((text.toList.dropWhile isWhitespace).reverse.dropWhile isWhitespace).reverse

/-- `str::trim_end_matches` with one character, as characters. -/
def trimEndMatches (text : List Char) (c : Char) : List Char := text.rdropWhile (· == c)

/-- `str::split` with one character. -/
def splitText (text : List Char) (c : Char) : List String := (text.splitOn c).map String.ofList

/-- `str::as_bytes`. -/
def utf8Bytes (text : String) : List UInt8 := text.toUTF8.data.toList

/-- `String::from_utf8`. -/
def fromUtf8 (bytes : List UInt8) : Option String := String.fromUTF8? bytes.toByteArray

end TTLock
