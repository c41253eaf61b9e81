import HttpService.TypeExpr.Basic
import HttpService.Text.Blank
import HttpService.Text.Utf8

/-!
# Reading type expressions

The grammar, with white space allowed before every sign but the first character of a name's rest:

    type  ::=  '*'  |  name [ '<' type (',' type)* '>' ] [ '?' ]
    name  ::=  [A-Za-z_] [A-Za-z0-9_.]*

A fault names the byte of the text at which the reader stood.  Inside the reader a fault holds
what is left of the text, and `parse` turns that into a position.
-/

namespace HttpService.TypeExpr

inductive Fault
  | expectedName (position : Nat)
  | expectedSeparator (position : Nat)
  | trailingInput (position : Nat)
  deriving DecidableEq, Repr

def Fault.message : Fault → String
  | .expectedName p => s!"expected a type name at position {p}"
  | .expectedSeparator p => s!"expected ',' or '>' at position {p}"
  | .trailingInput p => s!"unexpected trailing input at position {p}"

/-- A fault before its position is known: what was expected, and what was left of the text. -/
inductive Stuck
  | name (rest : List Char)
  | separator (rest : List Char)
  deriving DecidableEq, Repr

def isNameStart (c : Char) : Bool :=
  c.isAlpha || c == '_'

def isNameChar (c : Char) : Bool :=
  c.isAlphanum || c == '_' || c == '.'

def skipBlank (cs : List Char) : List Char :=
  cs.dropWhile Text.isBlank

/-- A question mark, if the text begins with one. -/
def mark (cs : List Char) : Bool × List Char :=
  match cs with
  | '?' :: rest => (true, rest)
  | _ => (false, cs)

mutual

/-- A type at the start of the text, and what follows it; `fuel` is more than twice the length of
the text. -/
def readType : Nat → List Char → Except Stuck (TypeExpr × List Char)
  | 0, cs => .error (.name cs)
  | fuel + 1, cs =>
    match skipBlank cs with
    | '*' :: rest => .ok (star, rest)
    | cs =>
      if cs.head?.any isNameStart then
        let name := String.ofList (cs.takeWhile isNameChar)
        match skipBlank (cs.dropWhile isNameChar) with
        | '<' :: rest =>
          match readArguments fuel rest with
          | .ok (as, rest) =>
            let (nullable, rest) := mark (skipBlank rest)
            .ok (mk name nullable as, rest)
          | .error e => .error e
        | rest =>
          let (nullable, rest) := mark rest
          .ok (mk name nullable [], rest)
      else .error (.name cs)

def readArguments : Nat → List Char → Except Stuck (List TypeExpr × List Char)
  | 0, cs => .error (.name cs)
  | fuel + 1, cs =>
    match readType fuel cs with
    | .error e => .error e
    | .ok (t, rest) =>
      match skipBlank rest with
      | ',' :: rest =>
        match readArguments fuel rest with
        | .ok (as, rest) => .ok (t :: as, rest)
        | .error e => .error e
      | '>' :: rest => .ok ([t], rest)
      | rest => .error (.separator rest)

end

def parse (s : String) : Except Fault TypeExpr :=
  let cs := s.toList
  let position (rest : List Char) : Nat := Utf8.size cs - Utf8.size rest
  match readType (2 * cs.length + 2) cs with
  | .error (.name rest) => .error (.expectedName (position rest))
  | .error (.separator rest) => .error (.expectedSeparator (position rest))
  | .ok (t, rest) =>
    match skipBlank rest with
    | [] => .ok t
    | rest => .error (.trailingInput (position rest))

def parse? (s : String) : Option TypeExpr :=
  (parse s).toOption

end HttpService.TypeExpr
