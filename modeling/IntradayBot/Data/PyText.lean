import Mathlib.Data.String.Basic
import IntradayBot.Data.Json

/-!
# Texts, as Python reads them

What the Python services do to texts: `str.strip`, which drops the white space around a
text, and `Decimal`, which reads a number.
-/

namespace IntradayBot.PyText

/-- `c.isspace()` -/
def isSpace (c : Char) : Bool :=
  let n := c.toNat
  (9 ≤ n ∧ n ≤ 13) ∨ (28 ≤ n ∧ n ≤ 32) ∨ n = 0x85 ∨ n = 0xa0 ∨ n = 0x1680 ∨
    (0x2000 ≤ n ∧ n ≤ 0x200a) ∨ n = 0x2028 ∨ n = 0x2029 ∨ n = 0x202f ∨ n = 0x205f ∨ n = 0x3000

/-- The characters of a text without the white space around it. -/
def stripChars (l : List Char) : List Char :=
  ((l.dropWhile isSpace).reverse.dropWhile isSpace).reverse

/-- `text.strip()` -/
def strip (text : String) : String := String.ofList (stripChars text.toList)

/-! ## Numbers -/

/-- The zeros of the decimal digits of Unicode. -/
def zeros : List ℕ :=
  [0x30, 0x660, 0x6f0, 0x7c0, 0x966, 0x9e6, 0xa66, 0xae6, 0xb66, 0xbe6, 0xc66, 0xce6, 0xd66, 0xde6,
    0xe50, 0xed0, 0xf20, 0x1040, 0x1090, 0x17e0, 0x1810, 0x1946, 0x19d0, 0x1a80, 0x1a90, 0x1b50,
    0x1bb0, 0x1c40, 0x1c50, 0xa620, 0xa8d0, 0xa900, 0xa9d0, 0xa9f0, 0xaa50, 0xabf0, 0xff10, 0x104a0,
    0x10d30, 0x11066, 0x110f0, 0x11136, 0x111d0, 0x112f0, 0x11450, 0x114d0, 0x11650, 0x116c0,
    0x11730, 0x118e0, 0x11950, 0x11c50, 0x11d50, 0x11da0, 0x11f50, 0x16a60, 0x16ac0, 0x16b50,
    0x1d7ce, 0x1d7d8, 0x1d7e2, 0x1d7ec, 0x1d7f6, 0x1e140, 0x1e2f0, 0x1e4f0, 0x1e950, 0x1fbf0]

/-- A decimal digit of any script as one of ASCII. -/
def asciiDigit (c : Char) : Char :=
  match zeros.find? fun z => z ≤ c.toNat ∧ c.toNat < z + 10 with
  | some z => Char.ofNat ('0'.toNat + (c.toNat - z))
  | none => c

/-- `Decimal(text)`: `none` is no number, and `some none` no finite one. -/
def decimalOfText (text : String) : Option (Option ℚ) :=
  let (sign, l) := Json.signed (((stripChars text.toList).filter (· ≠ '_')).map asciiDigit)
  let lower := l.map Char.toLower
  if lower ∈ ["inf".toList, "infinity".toList] ∨ lower.takeWhile Char.isAlpha = "nan".toList ∨
      lower.takeWhile Char.isAlpha = "snan".toList then some none
  else (Json.scientific l).map fun q => some (sign * q)

/-! ## Floats -/

/-- A `float`. The finite ones are exact, but for the range of a double. -/
inductive Double
  | finite (q : ℚ)
  | inf (negative : Bool)
  | nan
  deriving DecidableEq

/-- The double that a number is read as. -/
def ofRat (q : ℚ) : Double :=
  match Json.asDouble q with
  | some q => .finite q
  | none => .inf (q < 0)

/-- `x > 0` -/
def Double.positive : Double → Bool
  | .finite q => 0 < q
  | .inf negative => !negative
  | .nan => false

/-- The text without its underscores, which stand between digits. -/
def dropUnderscores (previous : Char) : List Char → Option (List Char)
  | [] => if previous = '_' then none else some []
  | '_' :: l => if previous.isDigit then dropUnderscores '_' l else none
  | c :: l =>
    if previous = '_' ∧ ¬c.isDigit then none else (dropUnderscores c l).map (c :: ·)

/-- The blanks that `float` skips: those of `isSpace`, but for the ASCII separators. -/
def isFloatSpace (c : Char) : Bool := isSpace c ∧ ¬(28 ≤ c.toNat ∧ c.toNat ≤ 31)

/-- `float(text)` -/
def floatOfText (text : String) : Option Double := do
  let l := ((text.toList.dropWhile isFloatSpace).reverse.dropWhile isFloatSpace).reverse
  let l ← dropUnderscores ' ' (l.map asciiDigit)
  let (sign, l) := Json.signed l
  let lower := l.map Char.toLower
  if lower ∈ ["inf".toList, "infinity".toList] then return .inf (sign < 0)
  else if lower = "nan".toList then return .nan
  else return ofRat (sign * (← Json.scientific l))

example : floatOfText " 1_000.5e-1 " = some (.finite (2001 / 20)) := by decide +kernel

end IntradayBot.PyText
