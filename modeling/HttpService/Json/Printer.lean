import HttpService.Json.Basic

/-!
# JSON text

A value written as JSON, either compactly or over several lines with an indent of two spaces.
Members stand in the order in which the value holds them.
-/

namespace HttpService.Json

/-- The escape of a control character that has no short form: four hexadecimal digits. -/
def unicodeEscape (n : Nat) : List Char :=
  let digits := Nat.toDigits 16 n
  ['\\', 'u'] ++ List.replicate (4 - digits.length) '0' ++ digits

def escapeChar (c : Char) : List Char :=
  if c = '"' then ['\\', '"']
  else if c = '\\' then ['\\', '\\']
  else if c = '\x08' then ['\\', 'b']
  else if c = '\x0c' then ['\\', 'f']
  else if c = '\n' then ['\\', 'n']
  else if c = '\r' then ['\\', 'r']
  else if c = '\t' then ['\\', 't']
  else if c.toNat < 0x20 then unicodeEscape c.toNat
  else [c]

def stringText (s : String) : List Char :=
  '"' :: s.toList.flatMap escapeChar ++ ['"']

def intText (n : Int) : List Char :=
  Text.signed (n < 0) (Text.digitsOf n.natAbs)

/-- A JSON number; a double that is not finite is written as null. -/
def numberText : JsonNumber → List Char
  | .whole n => intText n
  | .float x => match x.view with
    | .finite negative m q => Binary64.jsonText negative (Binary64.shortest .even m q)
    | _ => ['n', 'u', 'l', 'l']

def boolText (b : Bool) : List Char :=
  if b then ['t', 'r', 'u', 'e'] else ['f', 'a', 'l', 's', 'e']

mutual

/-- The compact text of a value, without any space. -/
def compactChars : Json → List Char
  | .null => ['n', 'u', 'l', 'l']
  | .bool b => boolText b
  | .number n => numberText n
  | .string s => stringText s
  | .array items => '[' :: compactItems items ++ [']']
  | .object members => '\x7b' :: compactMembers members ++ ['\x7d']

def compactItems : List Json → List Char
  | [] => []
  | [j] => compactChars j
  | j :: rest => compactChars j ++ ',' :: compactItems rest

def compactMembers : List (String × Json) → List Char
  | [] => []
  | [(n, j)] => stringText n ++ ':' :: compactChars j
  | (n, j) :: rest => stringText n ++ ':' :: compactChars j ++ ',' :: compactMembers rest

end

/-- A line break and the indent of a level. -/
def newLine (level : Nat) : List Char :=
  '\n' :: List.replicate (2 * level) ' '

mutual

/-- The text of a value over several lines, its own first line standing at `level`. -/
def prettyChars (level : Nat) : Json → List Char
  | .null => ['n', 'u', 'l', 'l']
  | .bool b => boolText b
  | .number n => numberText n
  | .string s => stringText s
  | .array [] => ['[', ']']
  | .array items => '[' :: prettyItems (level + 1) items ++ newLine level ++ [']']
  | .object [] => ['\x7b', '\x7d']
  | .object members => '\x7b' :: prettyMembers (level + 1) members ++ newLine level ++ ['\x7d']

def prettyItems (level : Nat) : List Json → List Char
  | [] => []
  | [j] => newLine level ++ prettyChars level j
  | j :: rest => newLine level ++ prettyChars level j ++ ',' :: prettyItems level rest

def prettyMembers (level : Nat) : List (String × Json) → List Char
  | [] => []
  | [(n, j)] => newLine level ++ stringText n ++ ':' :: ' ' :: prettyChars level j
  | (n, j) :: rest =>
    newLine level ++ stringText n ++ ':' :: ' ' :: prettyChars level j ++
      ',' :: prettyMembers level rest

end

def compact (j : Json) : String :=
  String.ofList j.compactChars

def pretty (j : Json) : String :=
  String.ofList (prettyChars 0 j)

end HttpService.Json
