import HumanGate.Model.Text
import Mathlib.Tactic

set_option autoImplicit false

/-! # JSON values, Python comparisons and decimals

Workers report results as JSON objects, workflow transitions carry conditions over them
(`controller.evaluate_condition`), and a reported cost is read with `Decimal(str(value))`.
The operators follow Python: booleans are the integers 0 and 1, lists compare element by
element, dictionaries compare as maps, and ordering values of different kinds raises
`TypeError`.
-/

namespace HumanGate

open Lib

/-- A decoded JSON value that a `JSONB` column can hold. A number is an `int`, or the number that
the shortest text of a `float` denotes: what `str` writes of it. A float zero has lost its sign. -/
inductive Json where
  | null
  | bool (b : Bool)
  | num (q : ℚ)
  | str (s : String)
  | arr (xs : List Json)
  | obj (fields : List (String × Json))

/-- A JSON object, as `dict` in the source. -/
abbrev JsonObject := List (String × Json)

/-- What evaluating a condition can raise. -/
inductive PyError where
  | typeError
  | unsupportedOperator (op : String)
  deriving DecidableEq

namespace Json

mutual

/-- Python's `a == b`. -/
def pyEq : Json → Json → Bool
  | .null, .null => true
  | .bool a, .bool b => a == b
  | .bool a, .num q => (if a then 1 else 0) == q
  | .num q, .bool b => q == (if b then 1 else 0)
  | .num a, .num b => a == b
  | .str a, .str b => a == b
  | .arr xs, .arr ys => pyEqList xs ys
  | .obj xs, .obj ys => xs.length == ys.length && pyEqFields xs ys
  | _, _ => false

def pyEqList : List Json → List Json → Bool
  | [], [] => true
  | x :: xs, y :: ys => pyEq x y && pyEqList xs ys
  | _, _ => false

/-- Every field of the first object is in the second, with an equal value. -/
def pyEqFields : List (String × Json) → List (String × Json) → Bool
  | [], _ => true
  | (k, v) :: rest, ys =>
      (match ys.lookup k with
        | some v' => pyEq v v'
        | none => false) && pyEqFields rest ys

end

mutual

/-- The order behind Python's `<`, `<=`, `>` and `>=`; unorderable operands raise. -/
def pyCompare : Json → Json → Except PyError Ordering
  | .bool a, .bool b => .ok (compare (if a then 1 else 0) (if b then 1 else 0))
  | .bool a, .num q => .ok (compare (if a then (1 : ℚ) else 0) q)
  | .num q, .bool b => .ok (compare q (if b then (1 : ℚ) else 0))
  | .num a, .num b => .ok (compare a b)
  | .str a, .str b => .ok (compare a b)
  | .arr xs, .arr ys => pyCompareList xs ys
  | _, _ => .error .typeError

/-- Lists compare at the first position where they differ, else by length. -/
def pyCompareList : List Json → List Json → Except PyError Ordering
  | [], [] => .ok .eq
  | [], _ :: _ => .ok .lt
  | _ :: _, [] => .ok .gt
  | x :: xs, y :: ys => if pyEq x y then pyCompareList xs ys else pyCompare x y

end

/-- Python's `a in b`. -/
def pyIn (a : Json) : Json → Except PyError Bool
  | .arr ys => .ok (ys.any (pyEq a))
  | .str t =>
      match a with
      | .str s => .ok (decide (s.toList <:+: t.toList))
      | _ => .error .typeError
  | .obj fields =>
      match a with
      | .str s => .ok (fields.any (fun f => f.1 == s))
      | .arr _ => .error .typeError  -- unhashable
      | .obj _ => .error .typeError
      | _ => .ok false
  | _ => .error .typeError

/-- `value.get(part) if isinstance(value, dict) else None`. -/
def getPart (value : Json) (part : String) : Json :=
  match value with
  | .obj fields => (fields.lookup part).getD .null
  | _ => .null

end Json

/-! ## Transition conditions -/

/-- A transition's condition: a dotted path into the context, an operator and a value. -/
structure Condition where
  field : String
  op : String
  value : Json

/-- `a is not None and a <op> b`, where `test` reads the order as `<op>` does. -/
def orderedOp (test : Ordering → Bool) (a b : Json) : Except PyError Bool :=
  match a with
  | .null => .ok false
  | a => (Json.pyCompare a b).map test

/-- The whitelist `_OPS`; `none` for an operator that is not in it. -/
def conditionOp : String → Option (Json → Json → Except PyError Bool)
  | "eq" => some fun a b => .ok (Json.pyEq a b)
  | "ne" => some fun a b => .ok (!Json.pyEq a b)
  | "gt" => some (orderedOp (· == .gt))
  | "gte" => some (orderedOp (· != .lt))
  | "lt" => some (orderedOp (· == .lt))
  | "lte" => some (orderedOp (· != .gt))
  | "in" => some fun a b => Json.pyIn a b
  | _ => none

/-- `field.split(".")`. -/
def fieldPath (field : String) : List String :=
  (field.toList.splitOn '.').map String.ofList

def evaluateCondition (condition : Option Condition) (context : JsonObject) :
    Except PyError Bool :=
  match condition with
  | none => .ok true
  | some c =>
      let value := (fieldPath c.field).foldl Json.getPart (.obj context)
      match conditionOp c.op with
      | none => .error (.unsupportedOperator c.op)
      | some op => op value c.value

/-- A missing field is `None`, which is below nothing. -/
example : evaluateCondition (some ⟨"content.length", "gt", .num 60⟩) [] = .ok false := by
  decide +kernel

example : evaluateCondition (some ⟨"a.b", "gte", .num 60⟩) [("a", .obj [("b", .num 61)])]
    = .ok true := by
  decide +kernel

/-! ## What a decoder returns -/

/-- A number of a decoded body. `bool` is an `int`; a float is the number its shortest text
denotes. -/
inductive PyNumber where
  | bool (b : Bool)
  | int (n : ℤ)
  | float (q : ℚ)
  | nan
  | infinity (negative : Bool)

/-- What the JSON decoder returns. The keys of an object are distinct. -/
inductive BodyJson where
  | null
  | num (n : PyNumber)
  | str (text : PyStr)
  | arr (items : List BodyJson)
  | obj (fields : List (PyStr × BodyJson))

abbrev BodyFields := List (PyStr × BodyJson)

/-- `body.get(key)`; `none` for a missing key. -/
def bodyGet (fields : BodyFields) (key : String) : Option BodyJson :=
  fields.lookup (PyStr.lit key)

/-! Only what a `JSONB` column holds is stored: a NaN, an infinity (what a number beyond the floats
is decoded as) and a text that cannot be stored make the flush raise. -/

mutual

def BodyJson.stored? : BodyJson → Option Json
  | .null => some .null
  | .num (.bool b) => some (.bool b)
  | .num (.int n) => some (.num n)
  | .num (.float q) => some (.num q)
  | .num .nan | .num (.infinity _) => none
  | .str text => text.stored?.map .str
  | .arr items => (storedItems? items).map .arr
  | .obj fields => (storedFields? fields).map .obj

def storedItems? : List BodyJson → Option (List Json)
  | [] => some []
  | item :: items => item.stored?.bind fun j => (storedItems? items).map (j :: ·)

def storedFields? : List (PyStr × BodyJson) → Option JsonObject
  | [] => some []
  | (key, value) :: fields =>
      key.stored?.bind fun k => value.stored?.bind fun j =>
        (storedFields? fields).map ((k, j) :: ·)

end

/-! ## Decimals -/

/-- The values of Python's `Decimal`; quiet and signalling NaN are not told apart, both raise when
they are ordered, and a zero has no sign, both are below nothing. -/
inductive Decimal where
  | finite (q : ℚ)
  | infinity (negative : Bool)
  | nan
  deriving DecidableEq

namespace Decimal

/-- A code point as the decimal library is given it: a digit of any script as that of ASCII, other
white space as a blank. -/
def asciiOf (c : CodePoint) : Option Char :=
  if 0 < c.val ∧ c.val ≤ 127 then some (Char.ofNat c.val)
  else if PyStr.isSpace c then some ' '
  else (Words.decimalDigit? c.val).map fun d => Char.ofNat ('0'.toNat + d)

/-- `text.strip().replace("_", "")`, in lower case. -/
def normalize (text : PyStr) : Option (List Char) :=
  ((text.strip.filter fun c => c.val != '_'.toNat).mapM asciiOf).map fun cs => cs.map Char.toLower

def digits? : List Char → Option Nat
  | [] => none
  | cs => if cs.all Char.isDigit then
      some (cs.foldl (fun n c => 10 * n + (c.toNat - '0'.toNat)) 0) else none

/-- An optional sign: whether it is a minus, and the rest. -/
def sign : List Char → Bool × List Char
  | '-' :: cs => (true, cs)
  | '+' :: cs => (false, cs)
  | cs => (false, cs)

/-- The exponent after the `e`. -/
def exponent? (cs : List Char) : Option ℤ :=
  let (negative, ds) := sign cs
  (digits? ds).map fun n => if negative then -n else n

/-- Digits with an optional point, at least one: the digits, and how many are after the point. -/
def coefficient? (cs : List Char) : Option (List Char × Nat) :=
  let whole := cs.takeWhile (· != '.')
  let frac := (cs.dropWhile (· != '.')).drop 1
  if (whole ++ frac).isEmpty then none else some (whole ++ frac, frac.length)

/-- `MAX_EMAX` and `MIN_ETINY` of a 64-bit build. -/
def maxEmax : ℤ := 999999999999999999

def minEtiny : ℤ := -1999999999999999997

def pow10 : ℤ → ℚ
  | .ofNat e => 10 ^ e
  | .negSucc e => 1 / 10 ^ (e + 1)

/-- The number with these digits and this exponent, where a `Decimal` can hold it exactly. -/
def exactly? (negative : Bool) (digits : List Char) (exponent : ℤ) : Option Decimal :=
  let significant := (digits.dropWhile (· == '0')).length
  if exponent + (significant - 1 : Nat) ≤ maxEmax ∧ minEtiny ≤ exponent then
    (digits? digits).map fun n =>
      .finite ((if negative then -1 else 1) * n * pow10 exponent)
  else none

/-- `Decimal(text)`; `none` where it raises `InvalidOperation`. -/
def parse (text : PyStr) : Option Decimal := do
  let (negative, body) := sign (← normalize text)
  if body = "inf".toList ∨ body = "infinity".toList then return .infinity negative
  else if "nan".toList <+: body ∧ (body.drop 3).all Char.isDigit then return .nan
  else if "snan".toList <+: body ∧ (body.drop 4).all Char.isDigit then return .nan
  else
    let (digits, places) ← coefficient? (body.takeWhile (· != 'e'))
    let exponent ←
      if body.contains 'e' then exponent? ((body.dropWhile (· != 'e')).drop 1) else some 0
    exactly? negative digits (exponent - places)

/-- `Decimal(str(value))`; the text of a boolean, a list or an object is no number. -/
def ofJson : Json → Option Decimal
  | .num q => some (.finite q)
  | .str s => parse (PyStr.lit s)
  | _ => none

end Decimal

example : Decimal.parse (PyStr.lit "\u2003-1_2.50E-1 ") = some (.finite (-5 / 4)) ∧
    Decimal.parse [0x2D, 0x661] = some (.finite (-1)) ∧
    Decimal.parse (PyStr.lit "-Infinity") = some (.infinity true) ∧
    Decimal.parse (PyStr.lit ".") = none ∧
    Decimal.parse (PyStr.lit "-1e1000000000000000000") = none := by
  decide +kernel

end HumanGate
