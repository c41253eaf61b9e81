import HttpService.Json.Lexeme

/-!
# Skipping a JSON value

Past a value that nobody looks at.  Its form is checked and nothing else: its numbers may be out of
range, the surrogate escapes of its strings need no partners, and its arrays and objects may stand
inside one another to any depth.

What is open around a place is a stack of brackets.  One step goes past a word, a number, a string
or an opening bracket, and past all that closes behind it.
-/

namespace HttpService.Json.Skipping

open Lexeme

/-! ## Single lexemes -/

def escape (bytes : Bytes) : Except Fault Bytes :=
  match bytes with
  | [] => .error .truncated
  | b :: rest =>
    if b = 0x75 then (fourHex rest).map Prod.snd
    else if (letterEscape? b).isSome then .ok rest
    else .error .malformed

/-- Past a string, after its opening quote; `fuel` is more than the number of bytes. -/
def string : Nat → Bytes → Except Fault Bytes
  | 0, _ => .error .truncated
  | _ + 1, [] => .error .truncated
  | fuel + 1, b :: rest =>
    if b = 0x22 then .ok rest
    else if b = 0x5C then
      match escape rest with
      | .ok more => string fuel more
      | .error e => .error e
    else if b < 0x20 then .error .malformed
    else string fuel rest

def scalar (bytes : Bytes) : Except Fault Bytes :=
  match bytes with
  | [] => .error .truncated
  | b :: rest =>
    if b = 0x6E then word nullTail rest
    else if b = 0x74 then word trueTail rest
    else if b = 0x66 then word falseTail rest
    else if b = 0x22 then string (rest.length + 1) rest
    else if b = 0x2D || isDigit b then (numeral bytes).map Prod.snd
    else .error .malformed

/-! ## Brackets -/

/-- The brackets of arrays and of objects. -/
inductive Bracket
  | square
  | curly
  deriving DecidableEq, Repr

def Bracket.ofOpening? (b : UInt8) : Option Bracket :=
  if b = 0x5B then some .square
  else if b = 0x7B then some .curly
  else none

def Bracket.closing : Bracket → UInt8
  | .square => 0x5D
  | .curly => 0x7D

def memberName (bytes : Bytes) : Except Fault Bytes :=
  match skipSpace bytes with
  | [] => .error .truncated
  | q :: rest =>
    if q ≠ 0x22 then .error .malformed
    else do
      let rest ← string (rest.length + 1) rest
      match skipSpace rest with
      | [] => .error .truncated
      | c :: rest => if c = 0x3A then .ok rest else .error .malformed

/-- Past what stands before a value inside a bracket: its name in an object, nothing in an
array. -/
def Bracket.lead (b : Bracket) (bytes : Bytes) : Except Fault Bytes :=
  match b with
  | .square => .ok bytes
  | .curly => memberName bytes

/-- Past what follows a value: all that closes here, and the comma before the next value.  Nothing
stays open at the end of the outermost value. -/
def close : List Bracket → Bytes → Except Fault (List Bracket × Bytes)
  | [], bytes => .ok ([], bytes)
  | bracket :: around, bytes =>
    match skipSpace bytes with
    | [] => .error .truncated
    | b :: rest =>
      if b = bracket.closing then close around rest
      else if b = 0x2C then (bracket.lead rest).map fun more => (bracket :: around, more)
      else .error .malformed

/-- One step from a place where a value has to stand. -/
def step (around : List Bracket) (bytes : Bytes) : Except Fault (List Bracket × Bytes) :=
  match skipSpace bytes with
  | [] => .error .truncated
  | b :: rest =>
    match Bracket.ofOpening? b with
    | none => (scalar (b :: rest)).bind (close around)
    | some bracket =>
      match skipSpace rest with
      | [] => .error .truncated
      | c :: more =>
        if c = bracket.closing then close around more
        else (bracket.lead (c :: more)).map fun next => (bracket :: around, next)

def steps : Nat → List Bracket → Bytes → Except Fault Bytes
  | 0, _, _ => .error .truncated
  | fuel + 1, around, bytes =>
    match step around bytes with
    | .ok ([], rest) => .ok rest
    | .ok (bracket :: around, rest) => steps fuel (bracket :: around) rest
    | .error e => .error e

/-- Past a value: every step takes a byte at least. -/
def value (bytes : Bytes) : Except Fault Bytes :=
  steps (bytes.length + 1) [] bytes

end HttpService.Json.Skipping
