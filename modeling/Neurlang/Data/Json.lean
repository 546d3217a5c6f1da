import Mathlib.Data.Rat.Floor

namespace Neurlang
namespace Data

/-!
# Python values decoded from JSON lines

The training loader reads each line of its file with `json.loads` and then
probes the result with the dynamic operations of Python: `dict.get`, truth
tests, `min` against a bound, `% 256`, and the conversion that
`torch.tensor(..., dtype=torch.long)` applies to every label.  Each of these
raises on some values, and which exception it raises decides whether the
loader's `except (json.JSONDecodeError, KeyError)` catches it.

Numbers with a fraction or an exponent become `float`; they are kept as exact
rationals.  The non-standard literals `NaN` and `Infinity`, which `json.loads`
also accepts, are not modelled.

A Python `str` is a sequence of code points, and the escape `"\ud800"` gives
one that is a lone surrogate.  A Lean `String` holds scalar values only, so a
`str` is either a `String` (`str`) or a list of code points with a lone
surrogate in it (`lone`), on which `encode('utf-8')` raises.  Object keys are
Lean strings: a key with a lone surrogate is never one the code looks up.
-/

/-- A `str` holding a lone surrogate, which a Lean `String` cannot: its code
points.  The fields keep every code point one Python has and one of them a
surrogate, so no such value is a `str` that a `String` already stands for. -/
structure SurrogateStr where
  codes : List Nat
  below : ∀ code ∈ codes, code < 0x110000
  surrogate : ∃ code ∈ codes, 0xD800 ≤ code ∧ code ≤ 0xDFFF

instance : Repr SurrogateStr := ⟨fun text _ => repr text.codes⟩

/-- A value as `json.loads` returns it.  An object keeps its fields in file
order, duplicates included; Python's dict keeps the last of a repeated key. -/
inductive JsonValue where
  | null
  | bool (value : Bool)
  | int (value : Int)
  | float (value : ℚ)
  | str (value : String)
  | lone (value : SurrogateStr)
  | arr (items : List JsonValue)
  | obj (fields : List (String × JsonValue))
  deriving Inhabited, Repr

/-- The exceptions the loader's Python code can raise on decoded data. -/
inductive PyError where
  | attributeError
  | typeError
  | keyError
  | nameError
  | jsonDecodeError
  | valueError
  | recursionError
  | unicodeEncodeError
  | runtimeError
  deriving DecidableEq, Repr

/-- What `json.loads` makes of one line of the file. -/
inductive JsonLine where
  /-- It returns a value. -/
  | value (item : JsonValue)
  /-- Text that is not JSON: `JSONDecodeError`. -/
  | invalid
  /-- An integer literal of more than 4300 digits: `ValueError`. -/
  | overlongInt
  /-- Nesting deeper than the interpreter's recursion limit: `RecursionError`. -/
  | tooDeep

/-- `json.loads(line)`. -/
def JsonLine.loads : JsonLine -> Except PyError JsonValue
  | value item => .ok item
  | invalid => .error .jsonDecodeError
  | overlongInt => .error .valueError
  | tooDeep => .error .recursionError

@[simp] theorem ok_bind {ε α β : Type} (value : α) (next : α -> Except ε β) :
    (Except.ok value >>= next) = next value := rfl

@[simp] theorem error_bind {ε α β : Type} (error : ε) (next : α -> Except ε β) :
    (Except.error error >>= next) = Except.error error := rfl

theorem bind_eq_ok {ε α β : Type} {x : Except ε α} {next : α -> Except ε β} {b : β} :
    (x >>= next) = .ok b ↔ ∃ a, x = .ok a ∧ next a = .ok b := by
  cases x <;> simp [ok_bind, error_bind]

/-- `text.startswith(start)` on Python strings, which compare code points. -/
def startswith (text start : String) : Bool := start.data.isPrefixOf text.data

/-- The integers an `int64`, the `torch.long` of the labels, holds. -/
def InLong (value : Int) : Prop := -2 ^ 63 ≤ value ∧ value < 2 ^ 63

instance (value : Int) : Decidable (InLong value) := inferInstanceAs (Decidable (_ ∧ _))

/-- An integer stored into an `int64` tensor: `Overflow when unpacking long`,
a `RuntimeError`, outside its range. -/
def long (value : Int) : Except PyError Int :=
  if InLong value then .ok value else .error .runtimeError

theorem long_of_inLong {value : Int} (fits : InLong value) : long value = .ok value := if_pos fits

namespace JsonValue

/-- Python's truth value: `None`, `False`, zero, and empty containers are
false. -/
def truthy : JsonValue -> Bool
  | null => false
  | bool value => value
  | int value => value != 0
  | float value => value != 0
  | str value => !value.isEmpty
  | lone _ => true
  | arr items => !items.isEmpty
  | obj fields => !fields.isEmpty

/-- The value a Python dict built from `fields` holds at `key`: the last
binding of the key wins. -/
def lookup (fields : List (String × JsonValue)) (key : String) : Option JsonValue :=
  fields.foldl (fun found field => if field.1 = key then some field.2 else found) none

/-- `value.get(key, default)`.  Only a dict has `get`; every other decoded
value raises `AttributeError`. -/
def get (value : JsonValue) (key : String) (default : JsonValue) : Except PyError JsonValue :=
  match value with
  | obj fields => .ok ((lookup fields key).getD default)
  | _ => .error .attributeError

/-- Whether Python can hash the value, as a dict key needs: lists and dicts
cannot be hashed. -/
def hashable : JsonValue -> Bool
  | arr _ => false
  | obj _ => false
  | _ => true

/-- The number a value stands for in arithmetic, when it is one: `bool` is a
subclass of `int` in Python. -/
def number? : JsonValue -> Option ℚ
  | bool value => some (if value then 1 else 0)
  | int value => some value
  | float value => some value
  | _ => none

/-- `min(value, bound)`: the first argument unless the bound is smaller.
Comparing a non-number with an `int` raises `TypeError`. -/
def pyMin (value : JsonValue) (bound : Int) : Except PyError JsonValue :=
  match value.number? with
  | some number => .ok (if (bound : ℚ) < number then int bound else value)
  | none => .error .typeError

/-- `value < bound` against an `int`.  Comparing a non-number with an `int`
raises `TypeError`. -/
def pyLt (value : JsonValue) (bound : Int) : Except PyError Bool :=
  match value.number? with
  | some number => .ok (decide (number < bound))
  | none => .error .typeError

/-- `value.startswith(start)`: only a `str` has `startswith`. -/
def pyStartswith (value : JsonValue) (start : String) : Except PyError Bool :=
  match value with
  | str text => .ok (startswith text start)
  | lone text => .ok ((start.data.map Char.toNat).isPrefixOf text.codes)
  | _ => .error .attributeError

/-- `value % modulus` for a positive modulus: Python's remainder takes the
sign of the divisor.  On a `str`, `%` formats instead, and a format without a
`%d` raises `TypeError`; one with it gives a `str`, on which the conversion of
the labels raises later in the same call: either way the call raises. -/
def pyMod (value : JsonValue) (modulus : Int) : Except PyError JsonValue :=
  match value with
  | bool flag => .ok (int ((if flag then 1 else 0) % modulus))
  | int number => .ok (int (number % modulus))
  | float number => .ok (float (number - modulus * (number / modulus).floor))
  | _ => .error .typeError

/-- One entry of `torch.tensor(labels, dtype=torch.long)`: integers are kept,
booleans become `0`/`1`, and floats are truncated toward zero; a result outside
`int64` raises `RuntimeError`. -/
def toLong : JsonValue -> Except PyError Int
  | bool value => .ok (if value then 1 else 0)
  | int value => long value
  | float value => long (if 0 ≤ value then value.floor else value.ceil)
  | _ => .error .typeError

@[simp] theorem get_obj (fields : List (String × JsonValue)) (key : String) (default : JsonValue) :
    (obj fields).get key default = .ok ((lookup fields key).getD default) := rfl

@[simp] theorem pyMin_int (number bound : Int) :
    (int number).pyMin bound = .ok (int (min number bound)) := by
  by_cases below : bound < number
  · simp [pyMin, number?, below, min_eq_right_of_lt below]
  · simp [pyMin, number?, below, min_eq_left (not_lt.mp below)]

@[simp] theorem pyLt_int (number bound : Int) :
    (int number).pyLt bound = .ok (decide (number < bound)) := by
  simp [pyLt, number?]

@[simp] theorem pyStartswith_str (text start : String) :
    (str text).pyStartswith start = .ok (startswith text start) := rfl

@[simp] theorem pyMod_int (number modulus : Int) :
    (int number).pyMod modulus = .ok (int (number % modulus)) := rfl

theorem toLong_int {number : Int} (fits : InLong number) : (int number).toLong = .ok number :=
  long_of_inLong fits

end JsonValue

end Data
end Neurlang
