import VibeUsage.Lib.Python.Text

/-!
# Python values

The values that `json.loads` builds. A `dict` keeps its keys in the order of their insertion and has
each once. Equality is Python's: `True` is 1, a float with an integer value is that integer, the
order of the keys of a `dict` does not matter.

Equality is decided on the values as they are built, so that a program that compares them can be
evaluated.
-/

namespace Python

/-- `float`. -/
inductive PyFloat
  | finite (value : ℚ)
  | infinity
  | negInfinity
  | nan
deriving DecidableEq

/-- The values of JSON in Python. -/
inductive PyValue
  | none
  | bool (value : Bool)
  | int (value : ℤ)
  | float (value : PyFloat)
  | str (text : PyStr)
  | list (items : List PyValue)
  | dict (entries : List (PyStr × PyValue))

namespace PyValue

/-- `bool`, `int` and `float` are compared as numbers. -/
def number : PyValue → Option PyFloat
  | bool value => some (.finite (if value then 1 else 0))
  | int value => some (.finite value)
  | float value => some value
  | _ => Option.none

/-- `value is None`. -/
def isNone : PyValue → Bool
  | none => true
  | _ => false

/-- `value.get(key)` of a `dict`. -/
def get (key : PyStr) : List (PyStr × PyValue) → Option PyValue
  | [] => Option.none
  | (k, value) :: entries => if k = key then some value else get key entries

mutual

/-- `a == b`. -/
def eq : PyValue → PyValue → Bool
  | none, none => true
  | bool a, b => (number b).any fun b ↦ decide (PyFloat.finite (if a then 1 else 0) = b)
  | int a, b => (number b).any fun b ↦ decide (PyFloat.finite a = b)
  | float a, b => (number b).any fun b ↦ decide (a ≠ .nan ∧ a = b)
  | str a, str b => decide (a = b)
  | list a, list b => eqItems a b
  | dict a, dict b => decide (a.length = b.length) && eqEntries a b
  | _, _ => false

def eqItems : List PyValue → List PyValue → Bool
  | [], [] => true
  | a :: as, b :: bs => eq a b && eqItems as bs
  | _, _ => false

/-- Every entry of the first `dict` is in the second. -/
def eqEntries : List (PyStr × PyValue) → List (PyStr × PyValue) → Bool
  | [], _ => true
  | (key, value) :: entries, other =>
    (match get key other with
      | some found => eq value found
      | Option.none => false) && eqEntries entries other

end

end PyValue

/-- The module `json`, with the options of the caller. -/
structure Json where
  /-- `json.loads(text)`: none when it raises `JSONDecodeError`. -/
  loads : PyStr → Option PyValue
  /-- `json.dumps(value, ...)`. -/
  dumps : PyValue → PyStr

end Python
