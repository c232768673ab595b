import Mathlib.Data.List.DropRight
import IntradayBot.Data.PyText

/-!
# Base64

Bytes as texts of the URL-safe alphabet (`encode`), and back (`decode`). The decoder is that of
`binascii.a2b_base64`: it skips what is not in the alphabet, and stops at the padding. A text whose
padding was dropped can be padded again, by its length (`padded_unpadded`), and is then read back
(`decode_encode`).
-/

namespace IntradayBot.Base64

/-- The character of 6 bits. -/
def char (n : ℕ) : Char :=
  if n < 26 then Char.ofNat (65 + n)
  else if n < 52 then Char.ofNat (97 + (n - 26))
  else if n < 62 then Char.ofNat (48 + (n - 52))
  else if n = 62 then '-'
  else '_'

/-- The 6 bits of a character. -/
def sextet (c : Char) : Option ℕ :=
  if 65 ≤ c.toNat ∧ c.toNat ≤ 90 then some (c.toNat - 65)
  else if 97 ≤ c.toNat ∧ c.toNat ≤ 122 then some (c.toNat - 97 + 26)
  else if 48 ≤ c.toNat ∧ c.toNat ≤ 57 then some (c.toNat - 48 + 52)
  else if c = '+' ∨ c = '-' then some 62
  else if c = '/' ∨ c = '_' then some 63
  else none

/-- `base64.urlsafe_b64encode(bytes)` -/
def encode : List UInt8 → List Char
  | [] => []
  | [a] => [char (a.toNat / 4), char (a.toNat % 4 * 16), '=', '=']
  | [a, b] => [char (a.toNat / 4), char (a.toNat % 4 * 16 + b.toNat / 16),
      char (b.toNat % 16 * 4), '=']
  | a :: b :: c :: l => char (a.toNat / 4) :: char (a.toNat % 4 * 16 + b.toNat / 16) ::
      char (b.toNat % 16 * 4 + c.toNat / 64) :: char (c.toNat % 64) :: encode l

/-- The loop of `binascii.a2b_base64`, at a place `quad` of four, with the bits that are left of
    the character before it, and the number of pads since then. -/
def decodeFrom (quad left pads : ℕ) : List Char → Option (List UInt8)
  | [] => if quad = 0 then some [] else none
  | c :: l =>
    if c = '=' then
      if quad < 2 then decodeFrom quad left pads l
      else if 4 ≤ quad + (pads + 1) then some []
      else decodeFrom quad left (pads + 1) l
    else match sextet c with
      | none => decodeFrom quad left pads l
      | some n => match quad with
        | 0 => decodeFrom 1 n 0 l
        | 1 => (UInt8.ofNat (left * 4 + n / 16) :: ·) <$> decodeFrom 2 (n % 16) 0 l
        | 2 => (UInt8.ofNat (left * 16 + n / 4) :: ·) <$> decodeFrom 3 (n % 4) 0 l
        | _ => (UInt8.ofNat (left * 64 + n) :: ·) <$> decodeFrom 0 0 0 l

/-- `base64.urlsafe_b64decode(text)`; `none` where it raises. -/
def decode (text : List Char) : Option (List UInt8) :=
  if text.all fun c => c.toNat < 128 then decodeFrom 0 0 0 text else none

/-- `text.rstrip("=")` -/
def unpadded (text : List Char) : List Char := text.rdropWhile (· = '=')

/-- `text + "=" * (-len(text) % 4)` -/
def padded (text : List Char) : List Char :=
  text ++ List.replicate (-(text.length : ℤ) % 4).toNat '='

/-! ## Characters -/

theorem sextet_char {n : ℕ} (h : n < 64) : sextet (char n) = some n := by
  have : ∀ n < 64, sextet (char n) = some n := by decide
  exact this n h

theorem char_ne_pad {n : ℕ} (h : n < 64) : char n ≠ '=' := by
  have : ∀ n < 64, char n ≠ '=' := by decide
  exact this n h

/-- The characters of the alphabet are ASCII, and not blank. -/
theorem char_plain {n : ℕ} (h : n < 64) : (char n).toNat < 128 ∧ PyText.isSpace (char n) = false := by
  have : ∀ n < 64, (char n).toNat < 128 ∧ PyText.isSpace (char n) = false := by decide
  exact this n h

/-- The characters of a text are ASCII, and not blank. -/
theorem encode_plain (l : List UInt8) : ∀ c ∈ encode l, c.toNat < 128 ∧ PyText.isSpace c = false := by
  have hpad : ('='.toNat < 128) ∧ PyText.isSpace '=' = false := by decide
  induction l using encode.induct with
  | case1 => simp [encode]
  | case2 a =>
    have := a.toNat_lt
    simp only [encode, List.forall_mem_cons]
    exact ⟨char_plain (by omega), char_plain (by omega), hpad, hpad, by simp⟩
  | case3 a b =>
    have := a.toNat_lt
    have := b.toNat_lt
    simp only [encode, List.forall_mem_cons]
    exact ⟨char_plain (by omega), char_plain (by omega), char_plain (by omega), hpad, by simp⟩
  | case4 a b c l ih =>
    have := a.toNat_lt
    have := b.toNat_lt
    have := c.toNat_lt
    simp only [encode, List.forall_mem_cons]
    exact ⟨char_plain (by omega), char_plain (by omega), char_plain (by omega),
      char_plain (by omega), ih⟩

/-! ## Round trip -/

section decodeFrom

variable {n left pads : ℕ} {l : List Char}

theorem decodeFrom_zero (h : n < 64) :
    decodeFrom 0 left pads (char n :: l) = decodeFrom 1 n 0 l := by
  rw [decodeFrom, if_neg (char_ne_pad h), sextet_char h]
  rfl

theorem decodeFrom_one (h : n < 64) : decodeFrom 1 left pads (char n :: l) =
    (UInt8.ofNat (left * 4 + n / 16) :: ·) <$> decodeFrom 2 (n % 16) 0 l := by
  rw [decodeFrom, if_neg (char_ne_pad h), sextet_char h]
  rfl

theorem decodeFrom_two (h : n < 64) : decodeFrom 2 left pads (char n :: l) =
    (UInt8.ofNat (left * 16 + n / 4) :: ·) <$> decodeFrom 3 (n % 4) 0 l := by
  rw [decodeFrom, if_neg (char_ne_pad h), sextet_char h]
  rfl

theorem decodeFrom_three (h : n < 64) : decodeFrom 3 left pads (char n :: l) =
    (UInt8.ofNat (left * 64 + n) :: ·) <$> decodeFrom 0 0 0 l := by
  rw [decodeFrom, if_neg (char_ne_pad h), sextet_char h]
  rfl

end decodeFrom

theorem ofNat_eq {a : UInt8} {n : ℕ} (h : n = a.toNat) : UInt8.ofNat n = a := by
  rw [h, UInt8.ofNat_toNat]

/-- What is written is read back. -/
theorem decodeFrom_encode (l : List UInt8) : decodeFrom 0 0 0 (encode l) = some l := by
  induction l using encode.induct with
  | case1 => rfl
  | case2 a =>
    have := a.toNat_lt
    rw [encode, decodeFrom_zero (by omega), decodeFrom_one (by omega),
      ofNat_eq (a := a) (by omega)]
    rfl
  | case3 a b =>
    have := a.toNat_lt
    have := b.toNat_lt
    rw [encode, decodeFrom_zero (by omega), decodeFrom_one (by omega), decodeFrom_two (by omega),
      ofNat_eq (a := a) (by omega), ofNat_eq (a := b) (by omega)]
    rfl
  | case4 a b c l ih =>
    have := a.toNat_lt
    have := b.toNat_lt
    have := c.toNat_lt
    rw [encode, decodeFrom_zero (by omega), decodeFrom_one (by omega), decodeFrom_two (by omega),
      decodeFrom_three (by omega), ih, ofNat_eq (a := a) (by omega), ofNat_eq (a := b) (by omega),
      ofNat_eq (a := c) (by omega)]
    rfl

theorem decode_encode (l : List UInt8) : decode (encode l) = some l := by
  have hascii : (encode l).all (fun c => decide (c.toNat < 128)) = true :=
    List.all_eq_true.2 fun c hc => decide_eq_true (encode_plain l c hc).1
  rw [decode, if_pos hascii, decodeFrom_encode]

theorem unpadded_append {m : List Char} (h : '=' ∉ m) (k : ℕ) :
    unpadded (m ++ List.replicate k '=') = m := by
  induction k with
  | zero =>
    rw [List.replicate_zero, List.append_nil, unpadded, List.rdropWhile_eq_self_iff]
    intro hne hlast
    exact h (of_decide_eq_true hlast ▸ List.getLast_mem hne)
  | succ k ih =>
    rw [List.replicate_succ', ← List.append_assoc, unpadded, List.rdropWhile_concat_pos _ _ _ rfl]
    exact ih

/-- The pads of a text stand at its end, and their number is that of the places that are left. -/
theorem encode_eq_append (l : List UInt8) : ∃ (m : List Char) (k : ℕ),
    encode l = m ++ List.replicate k '=' ∧ '=' ∉ m ∧ (k : ℤ) = -(m.length : ℤ) % 4 := by
  induction l using encode.induct with
  | case1 => exact ⟨[], 0, rfl, List.not_mem_nil, rfl⟩
  | case2 a =>
    -- One byte left: two characters and two pads.
    have := a.toNat_lt
    refine ⟨[char (a.toNat / 4), char (a.toNat % 4 * 16)], 2, rfl, ?_, rfl⟩
    simp only [List.mem_cons, List.not_mem_nil, or_false, not_or]
    exact ⟨(char_ne_pad (by omega)).symm, (char_ne_pad (by omega)).symm⟩
  | case3 a b =>
    have := a.toNat_lt
    have := b.toNat_lt
    refine ⟨[char (a.toNat / 4), char (a.toNat % 4 * 16 + b.toNat / 16),
      char (b.toNat % 16 * 4)], 1, rfl, ?_, rfl⟩
    simp only [List.mem_cons, List.not_mem_nil, or_false, not_or]
    exact ⟨(char_ne_pad (by omega)).symm, (char_ne_pad (by omega)).symm,
      (char_ne_pad (by omega)).symm⟩
  | case4 a b c l ih =>
    have := a.toNat_lt
    have := b.toNat_lt
    -- A full group of three adds four characters, so the pads are those of the rest.
    have := c.toNat_lt
    obtain ⟨m, k, hencode, hm, hk⟩ := ih
    refine ⟨_ :: _ :: _ :: _ :: m, k, by rw [encode, hencode]; rfl, ?_, ?_⟩
    · simp only [List.mem_cons, not_or]
      exact ⟨(char_ne_pad (by omega)).symm, (char_ne_pad (by omega)).symm,
        (char_ne_pad (by omega)).symm, (char_ne_pad (by omega)).symm, hm⟩
    · simp only [List.length_cons]
      omega

/-- The length says how many pads were dropped. -/
theorem padded_unpadded (l : List UInt8) : padded (unpadded (encode l)) = encode l := by
  obtain ⟨m, k, hencode, hm, hk⟩ := encode_eq_append l
  rw [hencode, unpadded_append hm, padded, ← hk, Int.toNat_natCast]

end IntradayBot.Base64
