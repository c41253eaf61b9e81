import HttpService.Json.Basic

/-!
# Records and alternatives in JSON

How structured data stands in a JSON document.  A record is an object with named fields, or an
array that gives the fields in order; a field it does not know is skipped, and one it knows may
not stand twice.  An alternative is a record with one more field, its tag.
-/

namespace HttpService.Json

def asString? : Json → Option String
  | .string s => some s
  | _ => none

def asBool? : Json → Option Bool
  | .bool b => some b
  | _ => none

def asUInt32? : Json → Option UInt32
  | .number (.whole n) => if 0 ≤ n ∧ n < UInt32.size then some (UInt32.ofNat n.toNat) else none
  | _ => none

/-- The items of an array, each read in the same way. -/
def asList? {α : Type} (read : Json → Option α) : Json → Option (List α)
  | .array items => items.mapM read
  | _ => none

def isNull : Json → Bool
  | .null => true
  | _ => false

/-- A value that says nothing inside a tagged record: null, or an object without members. -/
def isVoid : Json → Bool
  | .null => true
  | .object [] => true
  | _ => false

/-- One of a fixed set of names: its text, or an object whose only member has it as its name and
holds nothing, as the given test sees it. -/
def asName? (holdsNothing : Json → Bool) : Json → Option String
  | .string s => some s
  | .object [(s, j)] => if holdsNothing j then some s else none
  | _ => none

/-- The fields of a record with the given names. -/
def asRecord? (names : List String) : Json → Option (List (String × Json))
  | .object members =>
    if (members.map Prod.fst).filter (names.contains ·) |>.Nodup then some members else none
  | .array items => if items.length ≤ names.length then some (names.zip items) else none
  | _ => none

def required {α : Type} (fields : List (String × Json)) (name : String) (read : Json → Option α) :
    Option α :=
  (fields.lookup name).bind read

/-- A field that has a value of its own when absent. -/
def withDefault {α : Type} (fields : List (String × Json)) (name : String) (value : α)
    (read : Json → Option α) : Option α :=
  match fields.lookup name with
  | none => some value
  | some j => read j

/-- A field that may be absent or null. -/
def optional {α : Type} (fields : List (String × Json)) (name : String) (read : Json → Option α) :
    Option (Option α) :=
  match fields.lookup name with
  | none => some none
  | some .null => some none
  | some j => (read j).map some

/-- An alternative whose tag stands among its fields: the tag, and the other fields. -/
def asTagged? (tag : String) : Json → Option (String × Json)
  | .object members =>
    match members.filter (·.1 = tag) with
    | [(_, .string t)] => some (t, .object (members.filter (·.1 ≠ tag)))
    | _ => none
  | .array (.string t :: items) => some (t, .array items)
  | _ => none

/-- An alternative whose payload is a field beside its tag, which is a name: the tag, and the
payload if any. -/
def asAdjacent? (tag payload : String) (readTag : Json → Option String) :
    Json → Option (String × Option Json)
  | .object members => do
    let fields ← asRecord? [tag, payload] (.object members)
    let t ← required fields tag readTag
    return (t, fields.lookup payload)
  | .array [t, j] => (readTag t).map fun t => (t, some j)
  | _ => none

/-- The payload of an alternative that has none: absent or null. -/
def noPayload? : Option Json → Option Unit
  | none => some ()
  | some .null => some ()
  | _ => none

/-- The fields of an alternative that has none; others are skipped. -/
def noFields? : Json → Option Unit
  | .object _ => some ()
  | .array [] => some ()
  | _ => none

/-- A field that is left out when the list is empty. -/
def listField {α : Type} (name : String) (write : α → Json) (l : List α) : List (String × Json) :=
  if l.isEmpty then [] else [(name, .array (l.map write))]

/-- A field that is left out when the value is absent. -/
def optionField {α : Type} (name : String) (write : α → Json) (v : Option α) :
    List (String × Json) :=
  match v with
  | none => []
  | some a => [(name, write a)]

end HttpService.Json
