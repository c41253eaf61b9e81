import HttpService.Text.Percent

/-!
# Form-encoded pairs

Names and values as `name=value` pairs with `&` between them, in a query or a form.  Letters,
digits and `*-._` stand for themselves, a space becomes `+`, and every other byte is escaped; so
no separator comes from a name or a value.
-/

namespace HttpService.FormPairs

/-- The characters that stand for themselves. -/
def isPlain (c : Char) : Bool :=
  c.isAlphanum || c == '*' || c == '-' || c == '.' || c == '_'

def encodeChar (c : Char) : List Char :=
  if c = ' ' then ['+'] else Percent.encodeChar (fun d => !isPlain d) c

def encodeText (s : String) : List Char :=
  s.toList.flatMap encodeChar

def encodePair (p : String × String) : List Char :=
  encodeText p.1 ++ '=' :: encodeText p.2

def encode (pairs : List (String × String)) : List Char :=
  ['&'].intercalate (pairs.map encodePair)

end HttpService.FormPairs
