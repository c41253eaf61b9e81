/-!
# Type expressions

The types of a service's parameters and results, as the service declares them: a name, type
arguments and a mark for nullable types.  `*` is the wildcard.  The built-in types form ten
families, each with its number of arguments; every other name is a type of the service's own.
-/

namespace HttpService

/-- A reference to a type, possibly generic and possibly nullable. -/
inductive TypeExpr
  | mk (name : String) (nullable : Bool) (arguments : List TypeExpr)
  deriving Repr, Inhabited

namespace TypeExpr

def name : TypeExpr → String
  | mk n _ _ => n

def nullable : TypeExpr → Bool
  | mk _ b _ => b

def arguments : TypeExpr → List TypeExpr
  | mk _ _ as => as

/-- A type without arguments that is not nullable. -/
def named (name : String) : TypeExpr :=
  mk name false []

def starName : String := "*"

def unitName : String := "Unit"

def stringName : String := "String"

def byteStreamName : String := "ByteStream"

def resultName : String := "Result"

def star : TypeExpr := named starName

def unit : TypeExpr := named unitName

def isStar (t : TypeExpr) : Bool :=
  t.name == starName

/-- Whether this is the type without a value, nullable or not. -/
def isUnit (t : TypeExpr) : Bool :=
  t.name == unitName && t.arguments.isEmpty

/-- Whether this is the type of texts, nullable or not. -/
def isString (t : TypeExpr) : Bool :=
  t.name == stringName && t.arguments.isEmpty

def isByteStream (t : TypeExpr) : Bool :=
  t.name == byteStreamName

/-! ## Families -/

inductive Family
  | unit
  | scalar
  | primitiveArray
  | collection
  | map
  | pair
  | triple
  | byteStream
  | multiValueMap
  | result
  deriving DecidableEq, Repr

def Family.arity : Family → Nat
  | .unit | .scalar | .primitiveArray | .byteStream | .multiValueMap => 0
  | .collection | .result => 1
  | .map | .pair => 2
  | .triple => 3

/-- The types with one simple value. -/
def scalarNames : List String :=
  ["Boolean", "Byte", "Short", "Int", "Long", "Float", "Double", "Char", "String", "UByte",
    "UShort", "UInt", "ULong"]

/-- The arrays of simple values. -/
def primitiveArrayNames : List String :=
  ["ByteArray", "ShortArray", "IntArray", "LongArray", "FloatArray", "DoubleArray", "CharArray",
    "BooleanArray"]

/-- The types with elements. -/
def collectionNames : List String :=
  ["List", "Set", "Collection", "Iterable", "Array", "Sequence"]

/-- The family of a built-in type, by its name. -/
def family? (t : TypeExpr) : Option Family :=
  if t.name = unitName then some .unit
  else if t.name ∈ scalarNames then some .scalar
  else if t.name ∈ primitiveArrayNames then some .primitiveArray
  else if t.name ∈ collectionNames then some .collection
  else if t.name = "Map" then some .map
  else if t.name = "Pair" then some .pair
  else if t.name = "Triple" then some .triple
  else if t.name = byteStreamName then some .byteStream
  else if t.name = "MultiValueMap" then some .multiValueMap
  else if t.name = resultName then some .result
  else none

def isIterable (t : TypeExpr) : Bool :=
  t.family? = some .collection

def element? (t : TypeExpr) : Option TypeExpr :=
  if t.isIterable then t.arguments.head? else none

/-! ## Map shapes -/

/-- The shapes in which many named values come. -/
inductive MapKind
  | map
  | pairList
  | multiValue
  deriving DecidableEq, Repr

/-- A map shape with the types of its keys and values, where the type states them. -/
structure MapShape where
  kind : MapKind
  key : Option TypeExpr
  value : Option TypeExpr

/-- The map shape of a type: a map, a collection of pairs, or the opaque container whose keys are
texts and whose values are lists. -/
def mapShape? (t : TypeExpr) : Option MapShape :=
  match t.family? with
  | some .map => some ⟨.map, t.arguments[0]?, t.arguments[1]?⟩
  | some .multiValueMap => some ⟨.multiValue, none, none⟩
  | some .collection =>
    match t.arguments[0]? with
    | some pair =>
      if pair.family? = some .pair then
        some ⟨.pairList, pair.arguments[0]?, pair.arguments[1]?⟩
      else none
    | none => none
  | _ => none

/-! ## Text -/

mutual

def chars : TypeExpr → List Char
  | mk n b as =>
    n.toList ++ (match as with
      | [] => []
      | _ :: _ => '<' :: argumentChars as ++ ['>']) ++ if b then ['?'] else []

def argumentChars : List TypeExpr → List Char
  | [] => []
  | [t] => chars t
  | t :: rest => chars t ++ ',' :: ' ' :: argumentChars rest

end

def display (t : TypeExpr) : String :=
  String.ofList t.chars

mutual

def decEq : (s t : TypeExpr) → Decidable (s = t)
  | mk n b as, mk n' b' as' =>
    if hn : n = n' then
      if hb : b = b' then
        match decEqList as as' with
        | isTrue h => isTrue (by rw [hn, hb, h])
        | isFalse h => isFalse fun e => h (by injection e)
      else isFalse fun e => hb (by injection e)
    else isFalse fun e => hn (by injection e)

def decEqList : (ss ts : List TypeExpr) → Decidable (ss = ts)
  | [], [] => isTrue rfl
  | [], _ :: _ => isFalse nofun
  | _ :: _, [] => isFalse nofun
  | s :: ss, t :: ts =>
    match decEq s t with
    | isTrue h => match decEqList ss ts with
      | isTrue h' => isTrue (by rw [h, h'])
      | isFalse h' => isFalse fun e => h' (by injection e)
    | isFalse h => isFalse fun e => h (by injection e)

end

instance : DecidableEq TypeExpr := decEq

end TypeExpr

end HttpService
