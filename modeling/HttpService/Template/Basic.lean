import HttpService.Text.Cut

/-!
# URL templates

A template is a literal URL, possibly with placeholders in its path.  `classify` tells from its
first characters how it relates to the base URL, and `split` takes it apart into path, query and
fragment; a query or a fragment that is present but empty stays apart from one that is absent.
-/

namespace HttpService.Template

/-- How a URL relates to the base URL. -/
inductive Kind
  | absolute
  | full
  | protocolRelative
  | relative
  deriving DecidableEq, Repr

def Kind.display : Kind → String
  | .absolute => "absolute"
  | .full => "full"
  | .protocolRelative => "protocol-relative"
  | .relative => "relative"

/-- The characters of a scheme after its first letter. -/
def isSchemeChar (c : Char) : Bool :=
  c.isAlphanum || c == '+' || c == '.' || c == '-'

/-- The scheme at the start of a text, without its colon. -/
def schemeChars? (cs : List Char) : Option (List Char) :=
  match cs with
  | [] => none
  | c :: rest =>
    if c.isAlpha then
      match rest.dropWhile isSchemeChar with
      | ':' :: _ => some (c :: rest.takeWhile isSchemeChar)
      | _ => none
    else none

def classifyChars (cs : List Char) : Kind :=
  match cs with
  | '/' :: '/' :: _ => .protocolRelative
  | '/' :: _ => .absolute
  | _ => if (schemeChars? cs).isSome then .full else .relative

def scheme? (s : String) : Option String :=
  (schemeChars? s.toList).map String.ofList

def classify (s : String) : Kind :=
  classifyChars s.toList

structure Parts where
  path : List Char
  query : Option (List Char)
  fragment : Option (List Char)
  deriving DecidableEq, Repr

/-- The parts of a template: the fragment from the first `#`, the query from the first `?` before
it. -/
def split (cs : List Char) : Parts :=
  let (rest, fragment) := Text.cutOff '#' cs
  let (path, query) := Text.cutOff '?' rest
  ⟨path, query, fragment⟩

end HttpService.Template
