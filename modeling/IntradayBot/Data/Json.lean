import Mathlib.Data.Int.Log
import Mathlib.Data.Rat.Floor
import Mathlib.Data.List.Sort
import Mathlib.Order.WithBot

/-!
# JSON values

The payloads that travel between the services are JSON values. They are read
as JavaScript reads them: a property that is missing is `undefined` (`none`
here), and values convert to booleans (`truthy`), numbers (`toNumber`) and text
(`toText`).

Numbers are exact rationals. What is not a finite number (`NaN`, an infinity)
is `none`. Where the program compares a number that may be `Infinity` without
testing it with `Number.isFinite`, the number is read as a limit (`toLimit`).

`canonical` writes a value with the keys of its objects sorted, as the list of
the tokens of the text.
-/

namespace IntradayBot

/-- A JSON value. -/
inductive Json
  | null
  | bool (b : Bool)
  | num (q : ℚ)
  | str (s : String)
  | arr (l : List Json)
  | obj (l : List (String × Json))

namespace Json

/-! ## Properties -/

/-- The value of the key `k` among the properties `l`. -/
def lookup (k : String) : List (String × Json) → Option Json
  | [] => none
  | (k', v) :: l => if k' = k then some v else lookup k l

/-- The properties `l` with `k` set to `v`. -/
def assign (k : String) (v : Json) : List (String × Json) → List (String × Json)
  | [] => [(k, v)]
  | (k', v') :: l => if k' = k then (k, v) :: l else (k', v') :: assign k v l

/-- The properties of a value. -/
def props : Json → List (String × Json)
  | .obj l => l
  | _ => []

/-- The property `k`, `none` if it is undefined. -/
def get (j : Json) (k : String) : Option Json := lookup k j.props

/-- `{...j, k: v}`. -/
def set (j : Json) (k : String) (v : Json) : Json := .obj (assign k v j.props)

/-- `{...j, ...l}`. -/
def setAll (j : Json) (l : List (String × Json)) : Json := l.foldl (fun j p => j.set p.1 p.2) j

theorem lookup_assign (k k' : String) (v : Json) (l : List (String × Json)) :
    lookup k' (assign k v l) = if k' = k then some v else lookup k' l := by
  induction l with
  | nil => simp [assign, lookup, eq_comm]
  | cons p l ih =>
    unfold assign
    split
    · rename_i h
      by_cases hk : k' = k
      · simp [lookup, hk]
      · simp [lookup, h, hk, Ne.symm hk]
    · rename_i h
      by_cases hk : p.1 = k'
      · simp [lookup, hk, show k' ≠ k from fun h' => h (hk.trans h')]
      · simp [lookup, hk, ih]

@[simp] theorem get_set (j : Json) (k k' : String) (v : Json) :
    (j.set k v).get k' = if k' = k then some v else j.get k' :=
  lookup_assign k k' v j.props

@[simp] theorem setAll_nil (j : Json) : j.setAll [] = j := rfl

@[simp] theorem setAll_cons (j : Json) (p : String × Json) (l : List (String × Json)) :
    j.setAll (p :: l) = (j.set p.1 p.2).setAll l := rfl

/-! ## Conversions -/

/-- Whether a value counts as true. -/
def truthy : Option Json → Bool
  | none | some .null | some (.bool false) => false
  | some (.num q) => q ≠ 0
  | some (.str s) => s ≠ ""
  | some _ => true

/-- `a || b`. -/
def orElse (a b : Option Json) : Option Json := if truthy a then a else b

/-- `a ?? b`. -/
def coalesce : Option Json → Option Json → Option Json
  | none, b | some .null, b => b
  | a, _ => a

/-- The blanks that `trim` and `Number` skip. -/
def isBlank (c : Char) : Bool :=
  let n := c.toNat
  (9 ≤ n ∧ n ≤ 13) ∨ n = 32 ∨ n = 0xa0 ∨ n = 0x1680 ∨ (0x2000 ≤ n ∧ n ≤ 0x200a) ∨ n = 0x2028 ∨
    n = 0x2029 ∨ n = 0x202f ∨ n = 0x205f ∨ n = 0x3000 ∨ n = 0xfeff

/-- The characters of a text without the blanks around it. -/
def trimChars (l : List Char) : List Char :=
  ((l.dropWhile isBlank).reverse.dropWhile isBlank).reverse

/-- `s.trim()`. -/
def trim (s : String) : String := String.ofList (trimChars s.toList)

/-- The number written by the digits `l`, after those of `acc`. -/
def digits : ℕ → List Char → Option ℕ
  | acc, [] => some acc
  | acc, c :: l => if c.isDigit then digits (10 * acc + (c.toNat - '0'.toNat)) l else none

/-- The number written by a decimal text without sign. -/
def unsigned (l : List Char) : Option ℚ :=
  let whole := l.takeWhile (· ≠ '.')
  match l.dropWhile (· ≠ '.') with
  | [] => if whole = [] then none else (digits 0 whole).map (↑)
  | _ :: fraction =>
    if whole = [] ∧ fraction = [] then none
    else (digits 0 (whole ++ fraction)).map fun n => (n : ℚ) / 10 ^ fraction.length

/-- The exponent of a number, without its sign. -/
def exponent (l : List Char) : Option ℕ := if l = [] then none else digits 0 l

/-- The number written by a decimal text without sign, with its exponent. -/
def scientific (l : List Char) : Option ℚ :=
  let isE (c : Char) : Bool := c = 'e' || c = 'E'
  let mantissa := unsigned (l.takeWhile (!isE ·))
  match l.dropWhile (!isE ·) with
  | [] => mantissa
  | _ :: '-' :: e => do return (← mantissa) / 10 ^ (← exponent e)
  | _ :: '+' :: e => do return (← mantissa) * 10 ^ (← exponent e)
  | _ :: e => do return (← mantissa) * 10 ^ (← exponent e)

/-- The sign of a number, and the rest of its text. -/
def signed : List Char → ℚ × List Char
  | '-' :: l => (-1, l)
  | '+' :: l => (1, l)
  | l => (1, l)

/-- The finite double that a number is read as, exact but for the range of the doubles. -/
def asDouble (q : ℚ) : Option ℚ :=
  if 2 ^ 1024 - 2 ^ 970 ≤ |q| then none else some (if |q| ≤ 1 / 2 ^ 1075 then 0 else q)

/-- The base of a number written with a prefix, and its digits. -/
def radix : List Char → Option (ℕ × List Char)
  | '0' :: 'x' :: l | '0' :: 'X' :: l => some (16, l)
  | '0' :: 'o' :: l | '0' :: 'O' :: l => some (8, l)
  | '0' :: 'b' :: l | '0' :: 'B' :: l => some (2, l)
  | _ => none

/-- The number written by the digits `l` of a base, after those of `acc`. -/
def radixDigits (base : ℕ) : ℕ → List Char → Option ℕ
  | acc, [] => some acc
  | acc, c :: l =>
    let value := if c.isDigit then c.toNat - '0'.toNat else c.toLower.toNat - 'a'.toNat + 10
    if c.isAlphanum ∧ value < base then radixDigits base (base * acc + value) l else none

/-- The number written by a text, with blanks around it; the empty text is `0`. -/
def parseNumber (s : String) : Option ℚ :=
  let l := trimChars s.toList
  if l = [] then some 0
  else match radix l with
    | some (base, l) => if l = [] then none else (radixDigits base 0 l).bind fun n => asDouble n
    | none => (scientific (signed l).2).bind fun q => asDouble ((signed l).1 * q)

/-! ## Texts of numbers -/

/-- The decimals that the number needs, if it has an end. -/
def decimalsOf (q : ℚ) : Option ℕ := (List.range 400).find? fun d => q.den ∣ 10 ^ d

/-- `n` on `d` digits at least. -/
def padded (d n : ℕ) : String :=
  let digits := Nat.toDigits 10 n
  String.ofList (List.replicate (d - digits.length) '0' ++ digits)

/-- A number without sign in decimal; as a fraction when it has no end. -/
def decimalText (q : ℚ) : String :=
  match decimalsOf q with
  | none => s!"{q.num}/{q.den}"
  | some 0 => toString q.num
  | some d =>
    let units := q.num.natAbs * 10 ^ d / q.den
    padded 1 (units / 10 ^ d) ++ "." ++ padded d (units % 10 ^ d)

/-- The number is small or large enough to be written with an exponent. -/
def HasExponent (q : ℚ) : Prop := q ≠ 0 ∧ (|q| < 1 / 10 ^ 6 ∨ 10 ^ 21 ≤ |q|)

instance (q : ℚ) : Decidable (HasExponent q) := inferInstanceAs (Decidable (_ ∧ _))

/-- `String(q)`. -/
def numberText (q : ℚ) : String :=
  (if q < 0 then "-" else "") ++
    if HasExponent q then
      let e := Int.log 10 |q|
      decimalText (|q| / 10 ^ e) ++ (if e < 0 then "e-" else "e+") ++ toString e.natAbs
    else decimalText |q|

example : [1 / 10 ^ 7, -(5 / 2) / 10 ^ 7, 10 ^ 21, 3 / 2, -2].map numberText =
    ["1e-7", "-2.5e-7", "1e+21", "1.5", "-2"] := by decide +kernel

/-! ## Conversions to texts and numbers -/

mutual

/-- `String(j)`. An array is the texts of its elements, with commas between them. -/
def text : Json → String
  | .null => "null"
  | .bool b => if b then "true" else "false"
  | .num q => numberText q
  | .str s => s
  | .arr l => ",".intercalate (elementTexts l)
  | .obj _ => "[object Object]"

/-- The texts of the elements of an array; that of `null` is empty. -/
def elementTexts : List Json → List String
  | [] => []
  | .null :: l => "" :: elementTexts l
  | j :: l => text j :: elementTexts l

end

/-- `String(x)`. -/
def toText : Option Json → String
  | none => "undefined"
  | some j => text j

@[simp] theorem toText_str (s : String) : toText (some (.str s)) = s := rfl

/-- `Number(x)`, where it is finite: an array is read as its text. -/
def toNumber : Option Json → Option ℚ
  | none | some (.obj _) => none
  | some .null => some 0
  | some (.bool b) => some (if b then 1 else 0)
  | some (.num q) => some q
  | some (.str s) => parseNumber s
  | some (.arr l) => parseNumber (text (.arr l))

/-- `Number(x || 0)`. -/
def numberOrZero (x : Option Json) : Option ℚ := toNumber (orElse x (some (.num 0)))

/-- The number written by `String(x)`, if it writes one. -/
def written : Option Json → Option ℚ
  | some (.num q) => some q
  | some (.str s) => parseNumber s
  | some (.arr l) => parseNumber (text (.arr l))
  | _ => none

/-- `Number(s) === Infinity`. -/
def readsInfinity (s : String) : Bool :=
  let l := trimChars s.toList
  match radix l with
  | some (base, l) => l ≠ [] && (radixDigits base 0 l).any fun n => (asDouble n).isNone
  | none =>
    (signed l).1 = 1 && ((signed l).2 = "Infinity".toList ||
      (scientific (signed l).2).any fun q => (asDouble q).isNone)

example : [" Infinity", "1e400", "-Infinity", "1"].map readsInfinity = [true, true, false, false] := by
  decide +kernel

/-- `Number(x) === Infinity`. -/
def isInfinity : Option Json → Bool
  | some (.str s) => readsInfinity s
  | some (.arr l) => readsInfinity (text (.arr l))
  | _ => false

/-- `Number(x)` where it is only compared: `Infinity` is above every number, and what is no
    number, or `-Infinity`, is `none`. -/
def toLimit (x : Option Json) : Option (WithTop ℚ) :=
  if isInfinity x then some ⊤ else (toNumber x).map WithTop.some

/-- `Number(x || 0)` where it is only compared. -/
def limitOrZero (x : Option Json) : Option (WithTop ℚ) := toLimit (orElse x (some (.num 0)))

theorem toLimit_of_toNumber {x : Option Json} {q : ℚ} (hx : isInfinity x = false)
    (h : toNumber x = some q) : toLimit x = some (WithTop.some q) := by
  rw [toLimit, hx, h]
  rfl

/-- What is a positive number is a positive limit. -/
theorem toLimit_pos {x : Option Json} (h : (toNumber x).any (0 < ·)) :
    (toLimit x).any (0 < ·) := by
  unfold toLimit
  split
  · exact decide_eq_true (WithTop.coe_lt_top 0)
  · obtain ⟨q, hq, hpos⟩ := (Option.any_eq_true _ _).1 h
    rw [hq]
    exact decide_eq_true (WithTop.coe_pos.2 (of_decide_eq_true hpos))

/-- A limit that is a number is the number. -/
theorem toNumber_of_toLimit {x : Option Json} {q : ℚ} (h : toLimit x = some (WithTop.some q)) :
    toNumber x = some q := by
  unfold toLimit at h
  split at h
  · exact absurd (Option.some.inj h) (WithTop.top_ne_coe)
  · obtain ⟨r, hr, hq⟩ := Option.map_eq_some_iff.1 h
    rw [hr, WithTop.coe_injective hq]

/-- `String(x || '')`. -/
def textOrEmpty (x : Option Json) : String := if truthy x then toText x else ""

/-- The upper-case form of an ASCII text. -/
def upperCase (s : String) : String := String.ofList (s.toList.map Char.toUpper)

/-- `x === true`. -/
def isTrue : Option Json → Bool
  | some (.bool true) => true
  | _ => false

/-- `x === false`. -/
def isFalse : Option Json → Bool
  | some (.bool false) => true
  | _ => false

/-- `x === s`. -/
def isText (s : String) : Option Json → Bool
  | some (.str t) => t = s
  | _ => false

/-! ## Canonical text -/

/-- A token of the text of a value. -/
inductive Token
  | punct (c : Char)
  | null
  | bool (b : Bool)
  | num (q : ℚ)
  | str (s : String)
  deriving DecidableEq

/-- The texts `l`, with a comma between them. -/
def commaSeparated : List (List Token) → List Token
  | [] => []
  | [t] => t
  | t :: l => t ++ .punct ',' :: commaSeparated l

mutual

/-- The text of a value, with the keys of its objects sorted. -/
def canonical : Json → List Token
  | .null => [.null]
  | .bool b => [.bool b]
  | .num q => [.num q]
  | .str s => [.str s]
  | .arr l => .punct '[' :: (commaSeparated (canonicalElems l) ++ [.punct ']'])
  | .obj l =>
    let fields := (canonicalFields l).insertionSort fun a b => a.1 ≤ b.1
    .punct '{' ::
      (commaSeparated (fields.map fun f => .str f.1 :: .punct ':' :: f.2) ++ [.punct '}'])

/-- The texts of the elements of an array. -/
def canonicalElems : List Json → List (List Token)
  | [] => []
  | j :: l => canonical j :: canonicalElems l

/-- The keys of an object, each with the text of its value. -/
def canonicalFields : List (String × Json) → List (String × List Token)
  | [] => []
  | (k, v) :: l => (k, canonical v) :: canonicalFields l

end

end Json

end IntradayBot
