import HttpService.Body.ByteSource
import HttpService.Json.Printer
import HttpService.TypeExpr.Basic

/-!
# Arguments

The value that a caller passes for a parameter.  An argument has a JSON form and a text form, and
it can be unpacked into elements or into named entries; each of these may fail with the argument's
name and what was found.
-/

namespace HttpService

inductive Argument
  | null
  | bool (value : Bool)
  | int (value : Int64)
  | float (value : Binary64)
  | string (value : String)
  | list (items : List Argument)
  | map (entries : List (String × Argument))
  | bytes (content : Bytes)
  | stream (source : ByteSource)
  deriving Repr, Inhabited

/-- An argument that is missing or has the wrong shape. -/
inductive ArgumentFault
  | missing (parameter : String)
  | shape (parameter expected found : String)
  deriving DecidableEq, Repr

def ArgumentFault.message : ArgumentFault → String
  | .missing p => s!"missing required argument {p}"
  | .shape p expected found => s!"argument {p} must be {expected}, got a {found} value"

namespace Argument

def kind : Argument → String
  | null => "null"
  | bool _ => "boolean"
  | int _ => "integer"
  | float _ => "float"
  | string _ => "string"
  | list _ => "list"
  | map _ => "map"
  | bytes _ => "bytes"
  | stream _ => "stream"

def isNull : Argument → Bool
  | null => true
  | _ => false

def mismatch (parameter expected : String) (found : Argument) : ArgumentFault :=
  .shape parameter expected found.kind

/-! ## JSON -/

/-- A JSON number: an integer if it is whole and fits into 64 bits with a sign, otherwise a
double. -/
def ofNumber : JsonNumber → Argument
  | .whole n =>
    if Int64.minValue.toInt ≤ n ∧ n ≤ Int64.maxValue.toInt then int (Int64.ofInt n)
    else float (Binary64.ofRatio (n < 0) n.natAbs 1)
  | .float x => float x

mutual

def ofJson : Json → Argument
  | .null => null
  | .bool b => bool b
  | .number n => ofNumber n
  | .string s => string s
  | .array items => list (ofItems items)
  | .object members => map (ofMembers members)

def ofItems : List Json → List Argument
  | [] => []
  | j :: rest => ofJson j :: ofItems rest

def ofMembers : List (String × Json) → List (String × Argument)
  | [] => []
  | (n, j) :: rest => (n, ofJson j) :: ofMembers rest

end

mutual

/-- The JSON form of an argument.  Bytes become numbers; a stream has no JSON form. -/
def toJson (parameter : String) : Argument → Except ArgumentFault Json
  | null => .ok .null
  | bool b => .ok (.bool b)
  | int n => .ok (.whole n.toInt)
  | float x => .ok (.float x)
  | string s => .ok (.string s)
  | list items => (toItems parameter items).map .array
  | map entries => (toMembers parameter entries).map .ofEntries
  | bytes content => .ok (.array (content.map fun b => .nat b.toNat))
  | stream s => .error (mismatch parameter "a serializable value" (stream s))

def toItems (parameter : String) : List Argument → Except ArgumentFault (List Json)
  | [] => .ok []
  | a :: rest => do
    let j ← toJson parameter a
    let js ← toItems parameter rest
    return j :: js

def toMembers (parameter : String) :
    List (String × Argument) → Except ArgumentFault (List (String × Json))
  | [] => .ok []
  | (n, a) :: rest => do
    let j ← toJson parameter a
    let js ← toMembers parameter rest
    return (n, j) :: js

end

/-! ## Text -/

/-- The text of an argument in a URL, a header or a form; null has none.  Lists and maps are
written as JSON. -/
def toText (parameter : String) (a : Argument) : Except ArgumentFault (Option String) :=
  match a with
  | null => .ok none
  | bool b => .ok (some (if b then "true" else "false"))
  | int n => .ok (some (String.ofList (Json.intText n.toInt)))
  | float x => .ok (some x.plainText)
  | string s => .ok (some s)
  | list items => (toJson parameter (list items)).map fun j => some j.compact
  | map entries => (toJson parameter (map entries)).map fun j => some j.compact
  | bytes content => .ok (some (String.ofList (Utf8.decodeLossy content)))
  | stream s => .error (mismatch parameter "a text value" (stream s))

/-! ## Unpacking -/

/-- The elements of an argument: none of null, those of a list, and otherwise itself. -/
def elements : Argument → List Argument
  | null => []
  | list items => items
  | a => [a]

def entry (parameter : String) (pair : Argument) : Except ArgumentFault (String × Argument) :=
  match pair with
  | list [string k, v] => .ok (k, v)
  | other => .error (mismatch parameter "a list of [string, value] pairs" other)

/-- The named entries of an argument: those of a map, those of a list of pairs, or one for each
element of each entry. -/
def entries (kind : TypeExpr.MapKind) (parameter : String) (a : Argument) :
    Except ArgumentFault (List (String × Argument)) :=
  match kind, a with
  | _, null => .ok []
  | .map, map es => .ok es
  | .pairList, map es => .ok es
  | .pairList, list pairs => pairs.mapM (entry parameter)
  | .multiValue, map es => .ok (es.flatMap fun e => e.2.elements.map fun v => (e.1, v))
  | .pairList, other => .error (mismatch parameter "a list of pairs" other)
  | _, other => .error (mismatch parameter "a map" other)

end Argument

end HttpService
