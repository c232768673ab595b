import IntradayBot.Data.PyValue

/-!
# JSON, as Python writes and reads it

`json.dumps` writes a value (`dumps`), its texts between quotes, with escapes for all that is not a
printable character of ASCII (`quote`). `json.loads` reads any JSON, and the names of the numbers
that are not finite (`loads`). What is written for a list of an integer and a text is read back
(`loads_pair`).

A text cannot hold half of a surrogate pair here: reading one fails.
-/

namespace IntradayBot.PyJson

open PyText

/-! ## Writing -/

/-- A hexadecimal digit. -/
def hexDigit (n : ℕ) : Char := if n < 10 then Char.ofNat (48 + n) else Char.ofNat (87 + n)

/-- `\\u{n:04x}` -/
def unicodeEscape (n : ℕ) : List Char :=
  ['\\', 'u', hexDigit (n / 4096), hexDigit (n / 256 % 16), hexDigit (n / 16 % 16),
    hexDigit (n % 16)]

/-- A character within quotes. -/
def escape (c : Char) : List Char :=
  if c = '\\' then ['\\', '\\']
  else if c = '"' then ['\\', '"']
  else if c = '\x08' then ['\\', 'b']
  else if c = '\x0c' then ['\\', 'f']
  else if c = '\n' then ['\\', 'n']
  else if c = '\r' then ['\\', 'r']
  else if c = '\t' then ['\\', 't']
  else if 32 ≤ c.toNat ∧ c.toNat ≤ 126 then [c]
  else if c.toNat < 0x10000 then unicodeEscape c.toNat
  else unicodeEscape (0xd800 + (c.toNat - 0x10000) / 0x400) ++
    unicodeEscape (0xdc00 + (c.toNat - 0x10000) % 0x400)

/-- `json.dumps(text)` -/
def quote (text : List Char) : List Char := '"' :: (text.flatMap escape ++ ['"'])

/-- `json.dumps([n, text], separators=(",", ":"))` -/
def dumpsPair (n : ℤ) (text : String) : List Char :=
  '[' :: ((toString n).toList ++ ',' :: (quote text.toList ++ [']']))

/-- The texts, with commas in between. -/
def commaSeparated : List (List Char) → List Char
  | [] => []
  | [text] => text
  | text :: texts => text ++ ',' :: commaSeparated texts

mutual

/-- `json.dumps(value, sort_keys=True, separators=(",", ":"))`, where `repr` writes a number that is
    no integer. -/
def dumps (repr : PyValue → String) : PyValue → List Char
  | .none => "null".toList
  | .bool b => (if b then "true" else "false").toList
  | .int n => (toString n).toList
  | .float .nan => "NaN".toList
  | .float (.inf negative) => (if negative then "-Infinity" else "Infinity").toList
  | .float (.finite q) => (repr (.float (.finite q))).toList
  | .str s => quote s.toList
  | .list l => '[' :: (commaSeparated (dumpsElems repr l) ++ [']'])
  | .dict l =>
    let fields := (dumpsFields repr l).insertionSort fun p q => p.1 ≤ q.1
    '{' :: (commaSeparated (fields.map fun p => quote p.1.toList ++ ':' :: p.2) ++ ['}'])

/-- The texts of the elements of a list. -/
def dumpsElems (repr : PyValue → String) : List PyValue → List (List Char)
  | [] => []
  | x :: l => dumps repr x :: dumpsElems repr l

/-- The fields of a dictionary, with the texts of their values. -/
def dumpsFields (repr : PyValue → String) : List (String × PyValue) → List (String × List Char)
  | [] => []
  | (k, x) :: l => (k, dumps repr x) :: dumpsFields repr l

end

/-! ## Reading -/

/-- The white space of JSON. -/
def isBlank (c : Char) : Bool := c = ' ' ∨ c = '\t' ∨ c = '\n' ∨ c = '\r'

/-- The text without the white space at its start. -/
def skip (l : List Char) : List Char := l.dropWhile isBlank

/-- The value of a hexadecimal digit. -/
def hexValue (c : Char) : Option ℕ :=
  let n := c.toNat
  if 48 ≤ n ∧ n ≤ 57 then some (n - 48)
  else if 97 ≤ n ∧ n ≤ 102 then some (n - 87)
  else if 65 ≤ n ∧ n ≤ 70 then some (n - 55)
  else none

/-- The four hexadecimal digits at the start of a text. -/
def hex4 : List Char → Option (ℕ × List Char)
  | a :: b :: c :: d :: l => do
    return (((← hexValue a) * 16 + (← hexValue b)) * 256 + (← hexValue c) * 16 + (← hexValue d), l)
  | _ => none

/-- The character of an escape of four digits, or of two of them. -/
def unicodeChar (l : List Char) : Option (Char × List Char) := do
  let (n, l) ← hex4 l
  if 0xd800 ≤ n ∧ n ≤ 0xdbff then
    match l with
    | '\\' :: 'u' :: l =>
      let (m, l) ← hex4 l
      if 0xdc00 ≤ m ∧ m ≤ 0xdfff then
        return (Char.ofNat (0x10000 + (n - 0xd800) * 0x400 + (m - 0xdc00)), l)
      else none
    | _ => none
  else if 0xdc00 ≤ n ∧ n ≤ 0xdfff then none
  else return (Char.ofNat n, l)

/-- The character of an escape, after its backslash. -/
def escaped : List Char → Option (Char × List Char)
  | [] => none
  | c :: l =>
    if c = 'u' then unicodeChar l
    else if c = '"' ∨ c = '\\' ∨ c = '/' then some (c, l)
    else if c = 'b' then some ('\x08', l)
    else if c = 'f' then some ('\x0c', l)
    else if c = 'n' then some ('\n', l)
    else if c = 'r' then some ('\r', l)
    else if c = 't' then some ('\t', l)
    else none

/-- The characters up to the closing quote. -/
def stringBody : ℕ → List Char → Option (List Char × List Char)
  | 0, _ | _, [] => none
  | fuel + 1, c :: l =>
    if c = '"' then some ([], l)
    else if c = '\\' then
      (escaped l).bind fun (c, l) => (stringBody fuel l).map fun (text, l) => (c :: text, l)
    else if c.toNat < 32 then none
    else (stringBody fuel l).map fun (text, l) => (c :: text, l)

/-- The digits before the point of a number: a zero, or digits that do not start with one. -/
def wholeDigits : List Char → Option (List Char × List Char)
  | [] => none
  | c :: l =>
    if c = '0' then some (['0'], l)
    else if c.isDigit then some ((c :: l).takeWhile Char.isDigit, (c :: l).dropWhile Char.isDigit)
    else none

/-- The digits after the point of a number, if there are any. -/
def fractionDigits : List Char → List Char × List Char
  | '.' :: l =>
    if l.takeWhile Char.isDigit = [] then ([], '.' :: l)
    else (l.takeWhile Char.isDigit, l.dropWhile Char.isDigit)
  | l => ([], l)

/-- The exponent of a number, if there is one. -/
def exponentPart (l : List Char) : Option ℤ × List Char :=
  match l with
  | c :: rest =>
    if c = 'e' ∨ c = 'E' then
      let (sign, digits) := match rest with
        | '-' :: digits => ((-1 : ℤ), digits)
        | '+' :: digits => (1, digits)
        | digits => (1, digits)
      if digits.takeWhile Char.isDigit = [] then (none, l)
      else (some (sign * Nat.ofDigitChars 10 (digits.takeWhile Char.isDigit) 0),
        digits.dropWhile Char.isDigit)
    else (none, l)
  | [] => (none, l)

/-- A number without its sign. -/
def number (sign : ℤ) (l : List Char) : Option (PyValue × List Char) := do
  let (whole, l) ← wholeDigits l
  let (fraction, l) := fractionDigits l
  let (exponent, l) := exponentPart l
  if fraction = [] ∧ exponent = none then
    return (.int (sign * Nat.ofDigitChars 10 whole 0), l)
  else
    let mantissa := (Nat.ofDigitChars 10 (whole ++ fraction) 0 : ℚ) / 10 ^ fraction.length
    return (.float (ofRat (sign * mantissa * 10 ^ exponent.getD 0)), l)

/-- The names of JSON, and of the numbers that are not finite. -/
def names : List (List Char × PyValue) :=
  [("null".toList, .none), ("true".toList, .bool true), ("false".toList, .bool false),
    ("NaN".toList, .float .nan), ("Infinity".toList, .float (.inf false)),
    ("-Infinity".toList, .float (.inf true))]

/-- What is not within brackets or quotes. -/
def scalar (l : List Char) : Option (PyValue × List Char) :=
  match names.find? fun p => p.1.isPrefixOf l with
  | some (name, value) => some (value, l.drop name.length)
  | none => match l with
    | '-' :: l => number (-1) l
    | l => number 1 l

mutual

/-- `scan_once(text, idx)` -/
def value : ℕ → List Char → Option (PyValue × List Char)
  | 0, _ | _, [] => none
  | fuel + 1, c :: l =>
    if c = '"' then (stringBody (l.length + 1) l).map fun (s, l) => (.str (String.ofList s), l)
    else if c = '[' then
      match skip l with
      | ']' :: l => some (.list [], l)
      | l => (elements fuel l).map fun (values, l) => (.list values, l)
    else if c = '{' then
      match skip l with
      | '}' :: l => some (.dict [], l)
      | l => (members fuel [] l).map fun (d, l) => (.dict d, l)
    else scalar (c :: l)

/-- The elements of a list that is not empty. -/
def elements : ℕ → List Char → Option (List PyValue × List Char)
  | 0, _ => none
  | fuel + 1, l => do
    let (v, l) ← value fuel l
    match skip l with
    | ']' :: l => return ([v], l)
    | ',' :: l =>
      let (values, l) ← elements fuel (skip l)
      return (v :: values, l)
    | _ => none

/-- The members of an object that is not empty, after those that are read: of equal keys, the last
    one counts. -/
def members : ℕ → PyDict → List Char → Option (PyDict × List Char)
  | 0, _, _ | _, _, [] => none
  | fuel + 1, d, c :: l =>
    if c = '"' then do
      let (key, l) ← stringBody (l.length + 1) l
      match skip l with
      | ':' :: l =>
        let (v, l) ← value fuel (skip l)
        let d := d.set (String.ofList key) v
        match skip l with
        | '}' :: l => return (d, l)
        | ',' :: l => members fuel d (skip l)
        | _ => none
      | _ => none
    else none

end

/-- `json.loads(text)`; `none` where it raises. -/
def loads (text : List Char) : Option PyValue :=
  if text.head? = some '\ufeff' then none
  else match value (2 * text.length + 2) (skip text) with
    | some (v, l) => if skip l = [] then some v else none
    | none => none

/-! ## Round trip -/

section escapes

variable {c : Char} {l : List Char} {n fuel : ℕ}

theorem hexValue_hexDigit (h : n < 16) : hexValue (hexDigit n) = some n := by
  have : ∀ n < 16, hexValue (hexDigit n) = some n := by decide
  exact this n h

/-- The digits of an escape are read back. -/
theorem hex4_unicodeEscape (h : n < 0x10000) :
    hex4 ((unicodeEscape n).drop 2 ++ l) = some (n, l) := by
  have hread : hex4 ((unicodeEscape n).drop 2 ++ l) =
      some ((n / 4096 * 16 + n / 256 % 16) * 256 + n / 16 % 16 * 16 + n % 16, l) := by
    simp only [unicodeEscape, List.drop_succ_cons, List.drop_zero, List.cons_append, hex4,
      hexValue_hexDigit (show n / 4096 < 16 by omega),
      hexValue_hexDigit (show n / 256 % 16 < 16 by omega),
      hexValue_hexDigit (show n / 16 % 16 < 16 by omega),
      hexValue_hexDigit (show n % 16 < 16 by omega)]
    rfl
  rw [hread, show (n / 4096 * 16 + n / 256 % 16) * 256 + n / 16 % 16 * 16 + n % 16 = n by omega]

theorem unicodeEscape_append (n : ℕ) (l : List Char) :
    unicodeEscape n ++ l = '\\' :: 'u' :: ((unicodeEscape n).drop 2 ++ l) := rfl

/-- A character is no half of a surrogate pair. -/
theorem toNat_char (c : Char) : c.toNat < 0xd800 ∨ 0xdfff < c.toNat ∧ c.toNat < 0x110000 := c.valid

theorem unicodeChar_of_lt (h : c.toNat < 0x10000) :
    unicodeChar ((unicodeEscape c.toNat).drop 2 ++ l) = some (c, l) := by
  have hc := toNat_char c
  rw [unicodeChar, hex4_unicodeEscape h]
  simp only [Option.bind_eq_bind, Option.bind_some]
  rw [if_neg (by omega), if_neg (by omega), Char.ofNat_toNat]
  rfl

/-- The two halves of a surrogate pair are read as one character. -/
theorem unicodeChar_pair {m : ℕ} (hn : 0xd800 ≤ n ∧ n ≤ 0xdbff) (hm : 0xdc00 ≤ m ∧ m ≤ 0xdfff) :
    unicodeChar ((unicodeEscape n).drop 2 ++ (unicodeEscape m ++ l)) =
      some (Char.ofNat (0x10000 + (n - 0xd800) * 0x400 + (m - 0xdc00)), l) := by
  rw [unicodeChar, hex4_unicodeEscape (by omega), unicodeEscape_append]
  simp only [Option.bind_eq_bind, Option.bind_some]
  rw [if_pos hn, hex4_unicodeEscape (by omega)]
  simp only [Option.bind_some]
  rw [if_pos hm]
  rfl

theorem unicodeChar_of_le (h : 0x10000 ≤ c.toNat) :
    unicodeChar ((unicodeEscape (0xd800 + (c.toNat - 0x10000) / 0x400)).drop 2 ++
      (unicodeEscape (0xdc00 + (c.toNat - 0x10000) % 0x400) ++ l)) = some (c, l) := by
  have hc := toNat_char c
  obtain ⟨n, hn⟩ : ∃ n, n = 0xd800 + (c.toNat - 0x10000) / 0x400 := ⟨_, rfl⟩
  obtain ⟨m, hm⟩ : ∃ m, m = 0xdc00 + (c.toNat - 0x10000) % 0x400 := ⟨_, rfl⟩
  have hjoin : 0x10000 + (n - 0xd800) * 0x400 + (m - 0xdc00) = c.toNat := by omega
  rw [← hn, ← hm, unicodeChar_pair (by omega) (by omega), hjoin, Char.ofNat_toNat]

theorem stringBody_escaped {e : List Char} (h : escaped (e ++ l) = some (c, l)) :
    stringBody (fuel + 1) ('\\' :: (e ++ l)) =
      (stringBody fuel l).map fun (text, l) => (c :: text, l) := by
  rw [stringBody, if_neg (by decide), if_pos rfl, h, Option.bind_some]

/-- A character within quotes is read back. -/
theorem stringBody_escape (c : Char) (l : List Char) (fuel : ℕ) :
    stringBody (fuel + 1) (escape c ++ l) =
      (stringBody fuel l).map fun (text, l) => (c :: text, l) := by
  rw [escape]
  split
  · rename_i h
    subst h
    exact stringBody_escaped (e := ['\\']) rfl
  split
  · rename_i h
    subst h
    exact stringBody_escaped (e := ['"']) rfl
  split
  · rename_i h
    subst h
    exact stringBody_escaped (e := ['b']) rfl
  split
  · rename_i h
    subst h
    exact stringBody_escaped (e := ['f']) rfl
  split
  · rename_i h
    subst h
    exact stringBody_escaped (e := ['n']) rfl
  split
  · rename_i h
    subst h
    exact stringBody_escaped (e := ['r']) rfl
  split
  · rename_i h
    subst h
    exact stringBody_escaped (e := ['t']) rfl
  split
  · -- a printable character stands for itself
    rename_i hbackslash hquote _ _ _ _ _ hprintable
    rw [List.singleton_append, stringBody, if_neg hquote, if_neg hbackslash, if_neg (by omega)]
  split
  · rename_i h
    exact stringBody_escaped (e := (unicodeEscape c.toNat).tail) (unicodeChar_of_lt h)
  · rename_i h
    rw [List.append_assoc]
    exact stringBody_escaped
      (e := (unicodeEscape (0xd800 + (c.toNat - 0x10000) / 0x400)).tail ++
        unicodeEscape (0xdc00 + (c.toNat - 0x10000) % 0x400)) (unicodeChar_of_le (by omega))

/-- A text within quotes is read back. -/
theorem stringBody_quote (text l : List Char) (h : text.length < fuel) :
    stringBody fuel (text.flatMap escape ++ '"' :: l) = some (text, l) := by
  induction text generalizing fuel with
  | nil =>
    obtain ⟨fuel, rfl⟩ := Nat.exists_eq_succ_of_ne_zero (Nat.ne_of_gt h)
    rfl
  | cons c text ih =>
    obtain ⟨fuel, rfl⟩ := Nat.exists_eq_succ_of_ne_zero (Nat.ne_zero_of_lt h)
    rw [List.flatMap_cons, List.append_assoc, stringBody_escape,
      ih (Nat.lt_of_succ_lt_succ h)]
    rfl

end escapes

section numbers

variable {l : List Char}

/-- The digits of a positive number do not start with a zero. -/
theorem toDigits_head {n : ℕ} (h : 0 < n) :
    ∃ c digits, Nat.toDigits 10 n = c :: digits ∧ c ≠ '0' := by
  induction n using Nat.strongRecOn with
  | _ n ih =>
    by_cases hlt : n < 10
    · have hone : ∀ n < 10, 0 < n → n.digitChar ≠ '0' := by decide
      exact ⟨n.digitChar, [], Nat.toDigits_of_lt_base hlt, hone n hlt h⟩
    · obtain ⟨c, digits, hdigits, hc⟩ := ih (n / 10) (by omega) (by omega)
      exact ⟨c, digits ++ [(n % 10).digitChar],
        by rw [Nat.toDigits_of_base_le (by omega) (by omega), hdigits]; rfl, hc⟩

theorem isDigit_toDigits {n : ℕ} {c : Char} (h : c ∈ Nat.toDigits 10 n) : c.isDigit :=
  Nat.isDigit_of_mem_toDigits (by decide) (by decide) h

theorem exists_toDigits (n : ℕ) : ∃ c digits, Nat.toDigits 10 n = c :: digits ∧ c.isDigit := by
  rcases hn : Nat.toDigits 10 n with _ | ⟨c, digits⟩
  · exact absurd hn Nat.toDigits_ne_nil
  · exact ⟨c, digits, rfl, isDigit_toDigits (n := n) (by rw [hn]; exact List.mem_cons_self)⟩

theorem wholeDigits_toDigits (n : ℕ) (hl : ∀ c ∈ l.head?, c.isDigit = false) :
    wholeDigits (Nat.toDigits 10 n ++ l) = some (Nat.toDigits 10 n, l) := by
  rcases n.eq_zero_or_pos with rfl | hn
  · rfl
  have htake : (Nat.toDigits 10 n ++ l).takeWhile Char.isDigit = Nat.toDigits 10 n := by
    rw [List.takeWhile_append_of_pos fun c hc => isDigit_toDigits hc]
    rcases l with _ | ⟨c, l⟩
    · simp
    · rw [List.takeWhile_cons_of_neg (by simpa using hl c rfl), List.append_nil]
  have hdrop : (Nat.toDigits 10 n ++ l).dropWhile Char.isDigit = l := by
    rw [List.dropWhile_append_of_pos fun c hc => isDigit_toDigits hc]
    rcases l with _ | ⟨c, l⟩
    · rfl
    · exact List.dropWhile_cons_of_neg (by simpa using hl c rfl)
  obtain ⟨c, digits, hdigits, hc⟩ := toDigits_head hn
  have hdigit : c.isDigit := isDigit_toDigits (n := n) (by rw [hdigits]; exact List.mem_cons_self)
  rw [hdigits, List.cons_append] at htake hdrop ⊢
  rw [wholeDigits, if_neg hc, if_pos hdigit, htake, hdrop]

theorem number_toDigits (sign : ℤ) (n : ℕ) (l : List Char) :
    number sign (Nat.toDigits 10 n ++ ',' :: l) = some (.int (sign * n), ',' :: l) := by
  rw [number, wholeDigits_toDigits n fun c hc => by obtain rfl := Option.some.inj hc; rfl]
  simp only [Option.bind_eq_bind, Option.bind_some]
  rw [show fractionDigits (',' :: l) = ([], ',' :: l) from rfl,
    show exponentPart (',' :: l) = (none, ',' :: l) from rfl]
  rw [if_pos ⟨rfl, rfl⟩, Nat.ofDigitChars_ten_toDigits]
  rfl

/-- A number has none of the names. -/
theorem scalar_of_digit {c : Char} (h : c.isDigit) (l : List Char) :
    scalar (c :: l) = number 1 (c :: l) ∧ scalar ('-' :: c :: l) = number (-1) (c :: l) := by
  have hne : ∀ d : Char, d.isDigit = false → (d == c) = false := fun d hd => by
    rw [beq_eq_false_iff_ne]
    rintro rfl
    rw [h] at hd
    cases hd
  have hminus : c ≠ '-' := by
    rintro rfl
    cases h
  constructor
  · have hfind : (names.find? fun p => p.1.isPrefixOf (c :: l)) = none := by
      simp [names, List.find?, List.isPrefixOf, hne]
    rw [scalar, hfind]
    intro l' heq
    exact hminus (List.cons.inj heq).1
  · have hfind : (names.find? fun p => p.1.isPrefixOf ('-' :: c :: l)) = none := by
      simp [names, List.find?, List.isPrefixOf, hne]
    rw [scalar, hfind]

/-- The text of an integer starts with a digit, or with a sign and a digit. -/
theorem toString_toList (n : ℤ) :
    (∃ m : ℕ, n = m ∧ (toString n).toList = Nat.toDigits 10 m) ∨
      ∃ m : ℕ, n = -m ∧ (toString n).toList = '-' :: Nat.toDigits 10 m := by
  rcases n with m | m
  · exact .inl ⟨m, rfl, Nat.toList_repr⟩
  · refine .inr ⟨m + 1, rfl, ?_⟩
    change ("-" ++ (m + 1).repr).toList = _
    rw [String.toList_append, Nat.toList_repr]
    rfl

theorem value_scalar {c : Char} (hquote : c ≠ '"') (hlist : c ≠ '[') (hdict : c ≠ '{')
    (l : List Char) (fuel : ℕ) : value (fuel + 1) (c :: l) = scalar (c :: l) := by
  rw [value, if_neg hquote, if_neg hlist, if_neg hdict]

/-- An integer is read back. -/
theorem value_toString (n : ℤ) (l : List Char) (fuel : ℕ) :
    value (fuel + 1) ((toString n).toList ++ ',' :: l) = some (.int n, ',' :: l) := by
  rcases toString_toList n with ⟨m, rfl, htext⟩ | ⟨m, rfl, htext⟩
  · obtain ⟨c, digits, hdigits, hc⟩ := exists_toDigits m
    have hnumber := number_toDigits 1 m l
    rw [hdigits] at hnumber
    rw [htext, hdigits, List.cons_append, value_scalar, (scalar_of_digit hc _).1, ← List.cons_append,
      hnumber, one_mul]
    · rintro rfl
      cases hc
    · rintro rfl
      cases hc
    · rintro rfl
      cases hc
  · obtain ⟨c, digits, hdigits, hc⟩ := exists_toDigits m
    have hnumber := number_toDigits (-1) m l
    rw [hdigits] at hnumber
    rw [htext, hdigits, List.cons_append, value_scalar (by decide) (by decide) (by decide),
      List.cons_append, (scalar_of_digit hc _).2, ← List.cons_append, hnumber, neg_one_mul]

end numbers

/-- The text of an integer is not blank at its start, nor does it close a list. -/
theorem toString_head (n : ℤ) (l : List Char) :
    ∃ c rest, (toString n).toList ++ l = c :: rest ∧ isBlank c = false ∧ c ≠ ']' := by
  rcases toString_toList n with ⟨m, -, htext⟩ | ⟨m, -, htext⟩
  · obtain ⟨c, digits, hdigits, hc⟩ := exists_toDigits m
    refine ⟨c, digits ++ l, by rw [htext, hdigits]; rfl, ?_, ?_⟩
    · rw [isBlank, decide_eq_false_iff_not]
      rintro (rfl | rfl | rfl | rfl) <;> cases hc
    · rintro rfl
      cases hc
  · exact ⟨'-', Nat.toDigits 10 m ++ l, by rw [htext]; rfl, by decide, by decide⟩

theorem length_le_escape (text : List Char) : text.length ≤ (text.flatMap escape).length := by
  induction text with
  | nil => exact Nat.zero_le _
  | cons c text ih =>
    have hone : 1 ≤ (escape c).length := by
      rw [escape]
      split_ifs <;> simp [unicodeEscape]
    rw [List.flatMap_cons, List.length_append, List.length_cons]
    omega

/-- A text is read back. -/
theorem value_quote (text l : List Char) (fuel : ℕ) :
    value (fuel + 1) (quote text ++ l) = some (.str (String.ofList text), l) := by
  have hbody : quote text ++ l = '"' :: (text.flatMap escape ++ '"' :: l) := by
    rw [quote, List.cons_append, List.append_assoc, List.singleton_append]
  have hlength : text.length < (text.flatMap escape ++ '"' :: l).length + 1 := by
    rw [List.length_append]
    have := length_le_escape text
    omega
  rw [hbody, value, if_pos rfl, stringBody_quote text l hlength]
  rfl

theorem elements_pair (n : ℤ) (text : List Char) (fuel : ℕ) :
    elements (fuel + 3) ((toString n).toList ++ ',' :: (quote text ++ [']'])) =
      some ([.int n, .str (String.ofList text)], []) := by
  have hlast : elements (fuel + 2) (quote text ++ [']']) =
      some ([.str (String.ofList text)], []) := by
    rw [elements, value_quote]
    rfl
  have hskip : skip (quote text ++ [']']) = quote text ++ [']'] := rfl
  rw [elements, value_toString]
  simp only [Option.bind_eq_bind, Option.bind_some]
  rw [show skip (',' :: (quote text ++ [']'])) = ',' :: (quote text ++ [']']) from rfl]
  simp only
  rw [hskip, hlast]
  rfl

/-- What is written for an integer and a text is read back. -/
theorem loads_dumpsPair (n : ℤ) (text : String) :
    loads (dumpsPair n text) = some (.list [.int n, .str text]) := by
  obtain ⟨c, rest, heq, hblank, hclose⟩ :=
    toString_head n (',' :: (quote text.toList ++ [']']))
  have hskip : skip ((toString n).toList ++ ',' :: (quote text.toList ++ [']'])) = c :: rest := by
    rw [heq, skip, List.dropWhile_cons_of_neg (by simp [hblank])]
  have hvalue : ∀ fuel, value (fuel + 4) (dumpsPair n text) =
      some (.list [.int n, .str text], []) := by
    intro fuel
    have helements := elements_pair n text.toList fuel
    rw [heq, String.ofList_toList] at helements
    rw [dumpsPair, value, if_neg (by decide), if_pos rfl, hskip]
    split
    · rename_i h
      exact absurd (List.cons.inj h).1 hclose
    · rw [helements]
      rfl
  have hlength : 1 ≤ (dumpsPair n text).length := by simp [dumpsPair]
  obtain ⟨fuel, hfuel⟩ : ∃ fuel, 2 * (dumpsPair n text).length + 2 = fuel + 4 :=
    Nat.exists_eq_add_of_le' (by omega)
  rw [loads, if_neg (by simp [dumpsPair]), show skip (dumpsPair n text) = dumpsPair n text from rfl,
    hfuel, hvalue]
  rfl

end IntradayBot.PyJson
