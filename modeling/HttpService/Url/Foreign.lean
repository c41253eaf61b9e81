import HttpService.Url.Basic

/-!
# URLs of other schemes

A URL whose scheme no client speaks, in its parts.  It may lack an authority, and its path may be
a text of its own, as in `mailto:`.  Path, query and fragment hold text that is already escaped;
`chars` writes the parts out.
-/

namespace HttpService

/-- The path of a URL of another scheme: a text that starts with no slash, or segments. -/
inductive ForeignPath
  | plain (text : List Char)
  | segments (path : List (List Char))
  deriving DecidableEq, Repr

def ForeignPath.chars : ForeignPath → List Char
  | .plain text => text
  | .segments path => Url.segmentChars path

/-- A URL of another scheme.  A host that is missing behind two slashes is an empty name. -/
structure ForeignUrl where
  scheme : String
  authority : Option Authority
  path : ForeignPath
  query : Option (List Char)
  fragment : Option (List Char)
  deriving DecidableEq, Repr

namespace ForeignUrl

/-- The authority and the path.  Where there is no authority, a path with two slashes at its start
would be read as one; a dot segment before it keeps it a path. -/
def hierarchyChars (u : ForeignUrl) : List Char :=
  match u.authority with
  | some a => '/' :: '/' :: a.chars ++ u.path.chars
  | none => if ['/', '/'].isPrefixOf u.path.chars then '/' :: '.' :: u.path.chars else u.path.chars

def chars (u : ForeignUrl) : List Char :=
  u.scheme.toList ++ ':' :: u.hierarchyChars ++ Url.suffix '?' u.query ++
    Url.suffix '#' u.fragment

def text (u : ForeignUrl) : String :=
  String.ofList u.chars

end ForeignUrl

end HttpService
