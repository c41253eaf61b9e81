import HttpService.Json.Skipping

/-!
# Reading JSON

A JSON document is read from bytes, under an outline that says what is wanted of it.  A member that
the outline does not name is skipped, and what is read has all other members in the order of the
text.  At most 127 arrays and objects that are read stand inside one another.

`parse` reads a document as a whole, `parseAs` reads it under an outline.
-/

namespace HttpService.Json

/-- What is wanted of a value: all of it, the same of every item of an array, or the fields of a
record that are named. -/
inductive Outline
  | whole
  | list (item : Outline)
  | record (fields : List (String × Outline))
  deriving Repr

namespace Outline

def names : Outline → List String
  | .record fields => fields.map Prod.fst
  | _ => []

/-- What is wanted of the member of an object with some name; nothing if it is to be skipped. -/
def member? (outline : Outline) (name : String) : Option Outline :=
  match outline with
  | .record fields => fields.lookup name
  | _ => some .whole

/-- What is wanted of the item of an array at some place.  A record may be given as an array. -/
def item (outline : Outline) (place : Nat) : Outline :=
  match outline with
  | .whole => .whole
  | .list item => item
  | .record fields => (fields[place]?.map Prod.snd).getD .whole

end Outline

namespace Reader

open Lexeme

def items (item : Nat → Bytes → Except Fault (Json × Bytes)) :
    Nat → Nat → List Json → Bytes → Except Fault (Json × Bytes)
  | 0, _, _, _ => .error .truncated
  | fuel + 1, place, acc, bytes => do
    let (j, rest) ← item place bytes
    match skipSpace rest with
    | [] => .error .truncated
    | b :: rest =>
      if b = 0x5D then .ok (.array (j :: acc).reverse, rest)
      else if b = 0x2C then
        match skipSpace rest with
        | [] => .error .truncated
        | b :: more =>
          if b = 0x5D then .error .malformed else items item fuel (place + 1) (j :: acc) (b :: more)
      else .error .malformed

/-- The members of an object, from the quote of the first name on. -/
def members (member : String → Bytes → Except Fault (Option Json × Bytes)) :
    Nat → List (String × Json) → Bytes → Except Fault (Json × Bytes)
  | 0, _, _ => .error .truncated
  | _ + 1, _, [] => .error .truncated
  | fuel + 1, acc, q :: bytes => do
    if q ≠ 0x22 then .error .malformed
    let (name, rest) ← stringBody (bytes.length + 1) [] bytes
    match skipSpace rest with
    | [] => .error .truncated
    | colon :: rest =>
      if colon ≠ 0x3A then .error .malformed
      let (j?, rest) ← member name rest
      let acc := (j?.map fun j => (name, j)).toList ++ acc
      match skipSpace rest with
      | [] => .error .truncated
      | b :: rest =>
        if b = 0x7D then .ok (.object acc.reverse, rest)
        else if b = 0x2C then members member fuel acc (skipSpace rest)
        else .error .malformed

def member (read : Outline → Bytes → Except Fault (Json × Bytes)) (wanted : Option Outline)
    (bytes : Bytes) : Except Fault (Option Json × Bytes) :=
  match wanted with
  | none => (Skipping.value bytes).map fun rest => (none, rest)
  | some outline => (read outline bytes).map fun (j, rest) => (some j, rest)

/-- A value under an outline, with at most `depth` arrays and objects inside one another. -/
def value : Nat → Outline → Bytes → Except Fault (Json × Bytes)
  | depth, outline, bytes =>
    match skipSpace bytes with
    | [] => .error .truncated
    | b :: rest =>
      if b = 0x6E then (word nullTail rest).map fun more => (.null, more)
      else if b = 0x74 then (word trueTail rest).map fun more => (.bool true, more)
      else if b = 0x66 then (word falseTail rest).map fun more => (.bool false, more)
      else if b = 0x22 then
        (stringBody (rest.length + 1) [] rest).map fun (s, more) => (.string s, more)
      else if b = 0x2D || isDigit b then
        (Lexeme.number (b :: rest)).map fun (n, more) => (.number n, more)
      else if b = 0x5B then
        match depth with
        | 0 => .error .malformed
        | depth + 1 => match skipSpace rest with
          | [] => .error .truncated
          | c :: more =>
            if c = 0x5D then .ok (.array [], more)
            else
              items (fun place => value depth (outline.item place)) (rest.length + 1) 0 []
                (c :: more)
      else if b = 0x7B then
        match depth with
        | 0 => .error .malformed
        | depth + 1 => match skipSpace rest with
          | [] => .error .truncated
          | c :: more =>
            if c = 0x7D then .ok (.object [], more)
            else
              members (fun name => member (value depth) (outline.member? name)) (rest.length + 1) []
                (c :: more)
      else .error .malformed

def maxDepth : Nat := 127

end Reader

open Lexeme

/-- What an outline wants of the document that the bytes hold, with its members as they are
written. -/
def parseAs (outline : Outline) (bytes : Bytes) : Except Fault Json := do
  let (j, rest) ← Reader.value Reader.maxDepth outline bytes
  if (skipSpace rest).isEmpty then .ok j else .error .malformed

/-- The document that the bytes hold, with its members as they are written. -/
def parse (bytes : Bytes) : Except Fault Json :=
  parseAs .whole bytes

def parseNormal (bytes : Bytes) : Except Fault Json :=
  (parse bytes).map normal

end HttpService.Json
