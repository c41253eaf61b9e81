import HttpService.Json.Basic

/-!
# Targets of decoding

The kinds of value that a caller may want to read out of a JSON value, and what each of them
accepts.  A value that was read has a JSON form again: a whole number that was read as a double is
a double in it.
-/

namespace HttpService

/-- A kind of value to read. -/
inductive Target
  | any
  | int64
  | byte
  | double
  | bool
  | text
  | unit
  | optional (inner : Target)
  | list (item : Target)
  | map (value : Target)
  deriving DecidableEq, Repr

namespace Target

def wholeWithin? (low high : Int) : Json → Option Json
  | .number (.whole n) => if low ≤ n ∧ n ≤ high then some (.whole n) else none
  | _ => none

def double? : Json → Option Json
  | .number (.whole n) => some (.float (Binary64.ofRatio (n < 0) n.natAbs 1))
  | .number (.float x) => some (.float x)
  | _ => none

/-- Reads a value of a kind, and gives its JSON form. -/
def read : Target → Json → Option Json
  | any, j => some j
  | int64, j => wholeWithin? Int64.minValue.toInt Int64.maxValue.toInt j
  | byte, j => wholeWithin? 0 255 j
  | double, j => double? j
  | bool, .bool b => some (.bool b)
  | text, .string s => some (.string s)
  | unit, .null => some .null
  | optional _, .null => some .null
  | optional inner, j => inner.read j
  | list item, .array items => (items.mapM item.read).map .array
  | map value, .object members =>
    (members.mapM fun m => (value.read m.2).map (m.1, ·)).map .object
  | _, _ => none

end Target

end HttpService
