import HttpService.Text.Utf8

/-!
# Placeholders

A placeholder is a name in braces.  `pieces` takes a text apart into placeholders, braced groups
whose inside is no name, braces without a partner, and plain characters; nothing is lost, since
the pieces laid end to end are the text (`flatMap_chars_pieces`).  Scanning and substitution are
both read off the pieces.
-/

namespace HttpService.Template

inductive Piece
  | plain (c : Char)
  | placeholder (name : List Char)
  | group (inside : List Char)
  | stray (brace : Char)
  deriving DecidableEq, Repr

def Piece.chars : Piece → List Char
  | .plain c => [c]
  | .placeholder name => '\x7b' :: name ++ ['\x7d']
  | .group inside => '\x7b' :: inside ++ ['\x7d']
  | .stray brace => [brace]

/-- A name: a letter, then letters, digits, `_` and `-`. -/
def isName (cs : List Char) : Bool :=
  match cs with
  | [] => false
  | c :: rest => c.isAlpha && rest.all fun d => d.isAlphanum || d == '_' || d == '-'

/-- A braced group, which is a placeholder if its inside is a name. -/
def braced (inside : List Char) : Piece :=
  if isName inside then .placeholder inside else .group inside

/-- The pieces of an opening brace that finds no partner, and of what follows it. -/
def unclosed (inside : List Char) : List Piece :=
  .stray '\x7b' :: inside.map .plain

/-- The pieces of a text, read behind an opening brace and the characters after it, or outside
any. -/
def piecesAfter : Option (List Char) → List Char → List Piece
  | none, [] => []
  | some inside, [] => unclosed inside
  | none, c :: rest =>
    if c = '\x7b' then piecesAfter (some []) rest
    else if c = '\x7d' then .stray c :: piecesAfter none rest
    else .plain c :: piecesAfter none rest
  | some inside, c :: rest =>
    if c = '\x7b' then unclosed inside ++ piecesAfter (some []) rest
    else if c = '\x7d' then braced inside :: piecesAfter none rest
    else piecesAfter (some (inside ++ [c])) rest

def pieces (cs : List Char) : List Piece :=
  piecesAfter none cs

/-- A placeholder, with the bytes at which it starts and ends. -/
structure Placeholder where
  name : String
  start : Nat
  stop : Nat
  deriving DecidableEq, Repr

/-- The placeholders among pieces, the first of which starts at a given byte. -/
def placeholdersFrom : Nat → List Piece → List Placeholder
  | _, [] => []
  | start, p :: rest =>
    let stop := start + Utf8.size p.chars
    match p with
    | .placeholder name => ⟨String.ofList name, start, stop⟩ :: placeholdersFrom stop rest
    | _ => placeholdersFrom stop rest

structure Scan where
  placeholders : List Placeholder
  malformed : List String
  deriving DecidableEq, Repr

/-- The text of a group that is no placeholder. -/
def Piece.group? : Piece → Option String
  | .group inside => some (String.ofList (Piece.group inside).chars)
  | _ => none

/-- The text of a brace without a partner. -/
def Piece.stray? : Piece → Option String
  | .stray brace => some (String.ofList [brace])
  | _ => none

def Piece.name? : Piece → Option String
  | .placeholder name => some (String.ofList name)
  | _ => none

/-- The placeholders of a text in order, and everything else with a brace: first the groups that
are no placeholder, then the braces without a partner. -/
def scan (cs : List Char) : Scan :=
  let ps := pieces cs
  ⟨placeholdersFrom 0 ps, ps.filterMap Piece.group? ++ ps.filterMap Piece.stray?⟩

def names (cs : List Char) : List String :=
  (pieces cs).filterMap Piece.name?

/-- A piece with its value in place of a placeholder, if there is one. -/
def Piece.fill (lookup : String → Option (List Char)) (p : Piece) : List Char :=
  (p.name?.bind lookup).getD p.chars

/-- A text with values in place of its placeholders, all at once: a value is not read again. -/
def substitute (lookup : String → Option (List Char)) (cs : List Char) : List Char :=
  (pieces cs).flatMap (Piece.fill lookup)

theorem chars_braced (inside : List Char) :
    (braced inside).chars = '\x7b' :: inside ++ ['\x7d'] := by
  unfold braced
  split <;> rfl

theorem chars_plain (c : Char) : (Piece.plain c).chars = [c] := rfl

theorem chars_stray (c : Char) : (Piece.stray c).chars = [c] := rfl

theorem flatMap_chars_unclosed (inside : List Char) :
    (unclosed inside).flatMap Piece.chars = '\x7b' :: inside := by
  simp [unclosed, Piece.chars, List.flatMap_map]

/-- The pieces read behind a brace stand for the brace, what followed it, and the rest. -/
theorem flatMap_chars_piecesAfter (state : Option (List Char)) (cs : List Char) :
    (piecesAfter state cs).flatMap Piece.chars
      = (state.elim [] fun inside => '\x7b' :: inside) ++ cs := by
  fun_induction piecesAfter state cs <;>
    simp_all [flatMap_chars_unclosed, chars_braced, chars_plain, chars_stray]

/-- The pieces of a text laid end to end are the text. -/
theorem flatMap_chars_pieces (cs : List Char) : (pieces cs).flatMap Piece.chars = cs := by
  simpa [pieces] using flatMap_chars_piecesAfter none cs

end HttpService.Template
