import HttpService.Number.Decimal

/-!
# JSON values

A JSON document as a tree.  A number is a whole number or a double, and the two are different
values.  An object is a list of members; `ofEntries` gives its normal form, in which the names
ascend and the last of equal names has won, and `normal` brings a whole tree into that form.
-/

namespace HttpService

inductive JsonNumber
  | whole (value : Int)
  | float (value : Binary64)
  deriving DecidableEq, Repr

inductive Json
  | null
  | bool (value : Bool)
  | number (value : JsonNumber)
  | string (value : String)
  | array (items : List Json)
  | object (members : List (String × Json))
  deriving Repr, Inhabited

namespace Json

def whole (n : Int) : Json :=
  .number (.whole n)

/-- A double; one that is not finite has no JSON form and becomes null. -/
def float (x : Binary64) : Json :=
  if x.isFinite then .number (.float x) else .null

def nat (n : Nat) : Json :=
  .whole n

def ofOption (v : Option Json) : Json :=
  v.getD .null

/-- Puts a member among members with ascending names, in place of one of the same name. -/
def insertMember {α : Type} (name : String) (value : α) : List (String × α) → List (String × α)
  | [] => [(name, value)]
  | (n, v) :: rest =>
    if name < n then (name, value) :: (n, v) :: rest
    else if name = n then (name, value) :: rest
    else (n, v) :: insertMember name value rest

/-- Members in ascending order of their names; of equal names the last wins. -/
def sortMembers {α : Type} (members : List (String × α)) : List (String × α) :=
  members.foldl (fun acc m => insertMember m.1 m.2 acc) []

def ofEntries (entries : List (String × Json)) : Json :=
  .object (sortMembers entries)

mutual

def normal : Json → Json
  | .array items => .array (normalItems items)
  | .object members => .object (sortMembers (normalMembers members))
  | j => j

def normalItems : List Json → List Json
  | [] => []
  | j :: rest => normal j :: normalItems rest

def normalMembers : List (String × Json) → List (String × Json)
  | [] => []
  | (n, j) :: rest => (n, normal j) :: normalMembers rest

end

end Json

end HttpService
