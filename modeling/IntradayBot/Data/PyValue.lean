import IntradayBot.Data.PyText

/-!
# Values of the Python services

The records that the Python services hand to each other are dictionaries (`PyDict`) of the
values that JSON can carry (`PyValue`): a key that is missing reads as `None`. How Python writes
a value that is no text (`str(1.5)`, `str([])`) is a parameter, `repr`.

`toJson` is what is read from the text that `json.dumps` writes: the numbers that are not finite
are written with names that are no JSON.
-/

namespace IntradayBot

open PyText

/-- A value of the Python services. -/
inductive PyValue
  | none
  | bool (b : Bool)
  | int (n : ℤ)
  | float (x : Double)
  | str (s : String)
  | list (l : List PyValue)
  | dict (l : List (String × PyValue))

/-- A dictionary. -/
abbrev PyDict := List (String × PyValue)

/-- The exceptions of the conversions. -/
inductive PyError
  | typeError
  | valueError
  | overflowError
  deriving DecidableEq, Repr

namespace PyDict

/-- `d.get(k)` -/
def get (d : PyDict) (k : String) : PyValue := ((d.find? (·.1 = k)).map Prod.snd).getD .none

/-- `d.get(k, default)` -/
def getOr (d : PyDict) (k : String) (default : PyValue) : PyValue :=
  ((d.find? (·.1 = k)).map Prod.snd).getD default

/-- `{**d, k: v}` -/
def set : PyDict → String → PyValue → PyDict
  | [], k, v => [(k, v)]
  | (k', v') :: d, k, v => if k' = k then (k, v) :: d else (k', v') :: set d k v

/-- `{**d, **l}` -/
def update (d l : PyDict) : PyDict := l.foldl (fun d p => d.set p.1 p.2) d

theorem get_cons (p : String × PyValue) (d : PyDict) (k : String) :
    get (p :: d) k = if p.1 = k then p.2 else get d k := by
  unfold get
  by_cases h : p.1 = k <;> simp [h]

@[simp] theorem get_set (d : PyDict) (k k' : String) (v : PyValue) :
    (d.set k v).get k' = if k = k' then v else d.get k' := by
  induction d with
  | nil => simp [set, get_cons]
  | cons p d ih =>
    unfold set
    split
    · rename_i hk
      by_cases h : k = k' <;> simp [get_cons, h, hk]
    · rename_i hk
      by_cases h : p.1 = k'
      · simp [get_cons, h, show k ≠ k' from fun hk' => hk (h.trans hk'.symm)]
      · simp [get_cons, h, ih]

@[simp] theorem update_nil (d : PyDict) : d.update [] = d := rfl

@[simp] theorem update_cons (d : PyDict) (p : String × PyValue) (l : PyDict) :
    d.update (p :: l) = (d.set p.1 p.2).update l := rfl

end PyDict

namespace PyValue

/-- `x is True` -/
def isTrue : PyValue → Bool
  | .bool true => true
  | _ => false

/-- `x is False` -/
def isFalse : PyValue → Bool
  | .bool false => true
  | _ => false

/-- `x == s` -/
def isText (s : String) : PyValue → Bool
  | .str t => t = s
  | _ => false

/-- `bool(x)` -/
def truthy : PyValue → Bool
  | .none => false
  | .bool b => b
  | .int n => n ≠ 0
  | .float x => x ≠ .finite 0
  | .str s => s ≠ ""
  | .list l => !l.isEmpty
  | .dict l => !l.isEmpty

/-- `str(x)` -/
def text (repr : PyValue → String) : PyValue → String
  | .none => "None"
  | .bool b => if b then "True" else "False"
  | .int n => toString n
  | .str s => s
  | x => repr x

/-- `str(x or "")` -/
def textOrEmpty (repr : PyValue → String) (x : PyValue) : String :=
  if truthy x then text repr x else ""

/-- `str(x or default)` -/
def textOr (repr : PyValue → String) (x : PyValue) (default : String) : String :=
  if truthy x then text repr x else default

/-- `type(x).__name__` -/
def typeName : PyValue → String
  | .none => "NoneType"
  | .bool _ => "bool"
  | .int _ => "int"
  | .float _ => "float"
  | .str _ => "str"
  | .list _ => "list"
  | .dict _ => "dict"

/-- `x or y` -/
def orElse (x y : PyValue) : PyValue := if truthy x then x else y

/-- `float(x)` -/
def float? : PyValue → Except PyError Double
  | .bool b => .ok (.finite (if b then 1 else 0))
  | .int n => (Json.asDouble n).elim (.error .overflowError) fun q => .ok (.finite q)
  | .float x => .ok x
  | .str s => (floatOfText s).elim (.error .valueError) .ok
  | .none | .list _ | .dict _ => .error .typeError

/-- The integer written by a text, with blanks around it. -/
def intOfText (s : String) : Option ℤ := do
  let l ← dropUnderscores ' ' ((stripChars s.toList).map asciiDigit)
  let (sign, l) := Json.signed l
  let n ← Json.exponent l
  return if sign < 0 then -(n : ℤ) else n

/-- `int(x)`, or the text of the exception. -/
def int? (repr : PyValue → String) : PyValue → Except String ℤ
  | .bool b => .ok (if b then 1 else 0)
  | .int n => .ok n
  | .float (.finite q) => .ok (q.num.tdiv q.den)
  | .float (.inf _) => .error "cannot convert float infinity to integer"
  | .float .nan => .error "cannot convert float NaN to integer"
  | .str s => (intOfText s).elim
      (.error ("invalid literal for int() with base 10: " ++ repr (.str s))) .ok
  | .none => .error (typeError "NoneType")
  | .list _ => .error (typeError "list")
  | .dict _ => .error (typeError "dict")
where
  typeError (type : String) : String :=
    s!"int() argument must be a string, a bytes-like object or a real number, not '{type}'"

/-- The rows of a list that are dictionaries. -/
def dictRows : PyValue → List PyDict
  | .list l => l.filterMap fun
    | .dict d => some d
    | _ => .none
  | _ => []

/-! ## JSON -/

mutual

/-- `JSON.parse(json.dumps(x))`: an integer beyond the doubles is read as an infinity, and
    kept as `null`. -/
def toJson : PyValue → Option Json
  | .none => some .null
  | .bool b => some (.bool b)
  | .int n => some ((Json.asDouble n).elim .null .num)
  | .float (.finite q) => some (.num q)
  | .float _ => .none
  | .str s => some (.str s)
  | .list l => (elemsToJson l).map .arr
  | .dict l => (fieldsToJson l).map .obj

/-- The elements of a list. -/
def elemsToJson : List PyValue → Option (List Json)
  | [] => some []
  | x :: l => (toJson x).bind fun j => (elemsToJson l).map (j :: ·)

/-- The fields of a dictionary. -/
def fieldsToJson : List (String × PyValue) → Option (List (String × Json))
  | [] => some []
  | (k, x) :: l => (toJson x).bind fun j => (fieldsToJson l).map ((k, j) :: ·)

end

mutual

/-- No number in the value is infinite or `nan`. -/
def finite : PyValue → Bool
  | .float (.finite _) => true
  | .float _ => false
  | .list l => finiteElems l
  | .dict l => finiteFields l
  | .none | .bool _ | .int _ | .str _ => true

/-- No number among the elements of a list is infinite or `nan`. -/
def finiteElems : List PyValue → Bool
  | [] => true
  | x :: l => finite x && finiteElems l

/-- No number among the fields of a dictionary is infinite or `nan`. -/
def finiteFields : List (String × PyValue) → Bool
  | [] => true
  | (_, x) :: l => finite x && finiteFields l

end

mutual

/-- What is written is JSON exactly if its numbers are finite. -/
theorem toJson_isSome (x : PyValue) : (toJson x).isSome = finite x := by
  cases x with
  | float x => cases x <;> simp [toJson, finite]
  | list l => simp [toJson, finite, elemsToJson_isSome l]
  | dict l => simp [toJson, finite, fieldsToJson_isSome l]
  | _ => rfl

theorem elemsToJson_isSome (l : List PyValue) : (elemsToJson l).isSome = finiteElems l := by
  cases l with
  | nil => rfl
  | cons x l =>
    have hx := toJson_isSome x
    have hl := elemsToJson_isSome l
    unfold elemsToJson finiteElems
    rw [← hx, ← hl]
    cases toJson x <;> simp

theorem fieldsToJson_isSome (l : List (String × PyValue)) :
    (fieldsToJson l).isSome = finiteFields l := by
  cases l with
  | nil => rfl
  | cons p l =>
    have hx := toJson_isSome p.2
    have hl := fieldsToJson_isSome l
    unfold fieldsToJson finiteFields
    rw [← hx, ← hl]
    cases toJson p.2 <;> simp

end

/-- The property that is read from a key of a dictionary. -/
theorem lookup_fieldsToJson {d : PyDict} {l : List (String × Json)} (h : fieldsToJson d = some l)
    (k : String) : Json.lookup k l = (d.find? (·.1 = k)).bind fun p => toJson p.2 := by
  induction d generalizing l with
  | nil =>
    obtain rfl := Option.some.inj h
    rfl
  | cons p d ih =>
    unfold fieldsToJson at h
    obtain ⟨j, hj, h⟩ := Option.bind_eq_some_iff.1 h
    obtain ⟨l', hl', rfl⟩ := Option.map_eq_some_iff.1 h
    rw [Json.lookup]
    by_cases hk : p.1 = k
    · simp [hk, hj]
    · simp [hk, ih hl']

end PyValue

end IntradayBot
