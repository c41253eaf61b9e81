import HttpService.Text.Blank
import HttpService.Text.Cut
import HttpService.Text.Quoted

/-!
# The characters of a request head

What may stand in a token, a header name, a header value and a media type (RFC 9110).  The same
rules hold for a declaration, when it is checked, and for the values of a call, so that no value
can break out of its header line.

A flaw names the first character that is not allowed and counts in characters.
-/

namespace HttpService.Lexical

/-- Why a text is not what it should be. -/
inductive Flaw
  | empty
  | illegal (character : Char) (position : Nat)
  deriving DecidableEq, Repr

def Flaw.message : Flaw → String
  | .empty => "must not be empty"
  | .illegal c p => "illegal character " ++ Text.quotedChar c ++ s!" at position {p}"

/-- The flaw as seen from `n` characters further to the left. -/
def Flaw.shift (n : Nat) : Flaw → Flaw
  | .empty => .empty
  | .illegal c p => .illegal c (p + n)

def tokenSigns : List Char :=
  "!#$%&'*+-.^_`|~".toList

def isTokenChar (c : Char) : Bool :=
  c.isAlphanum || tokenSigns.contains c

/-- The characters of a header value: visible ASCII, space, tab, and the upper half of a byte. -/
def isValueChar (c : Char) : Bool :=
  c == ' ' || c == '\t' || (0x21 ≤ c.toNat && c.toNat ≤ 0x7E) ||
    (0x80 ≤ c.toNat && c.toNat ≤ 0xFF)

/-- The first character outside a class. -/
def firstIllegal (allowed : Char → Bool) : List Char → Except Flaw Unit
  | [] => .ok ()
  | c :: rest =>
    if allowed c then (firstIllegal allowed rest).mapError (Flaw.shift 1)
    else .error (.illegal c 0)

/-- A token: at least one character, and only characters of a token. -/
def checkTokenChars (cs : List Char) : Except Flaw Unit :=
  if cs.isEmpty then .error .empty else firstIllegal isTokenChar cs

def checkToken (s : String) : Except Flaw Unit :=
  checkTokenChars s.toList

def checkHeaderName (s : String) : Except Flaw Unit :=
  checkToken s

def checkHeaderValue (s : String) : Except Flaw Unit :=
  firstIllegal isValueChar s.toList

/-- The type and the subtype of a media type.  Without a slash the fault is the first character
that a token cannot hold, or else the place where the slash is missing. -/
def checkEssence (cs : List Char) : Except Flaw Unit :=
  match Text.cut (· == '/') cs with
  | none => do
    checkTokenChars cs
    .error (.illegal '/' cs.length)
  | some (top, sub) => do
    checkTokenChars top
    (checkTokenChars (Text.trimEnd sub)).mapError (Flaw.shift (top.length + 1))

/-- A media type: a type and a subtype, both tokens, and after a semicolon any characters of a
header value. -/
def checkMediaType (s : String) : Except Flaw Unit :=
  match Text.cut (· == ';') s.toList with
  | none => checkEssence s.toList
  | some (kind, parameters) => do
    checkEssence kind
    (firstIllegal isValueChar (';' :: parameters)).mapError (Flaw.shift kind.length)

def lower (s : String) : String :=
  String.ofList (s.toList.map Char.toLower)

def sameIgnoringCase (s t : String) : Bool :=
  lower s == lower t

def isContentHeader (name : String) : Bool :=
  sameIgnoringCase name "content-type" || sameIgnoringCase name "content-length"

/-- A media type without its parameters, in small letters. -/
def essence (mediaType : String) : String :=
  let kind := mediaType.toList.takeWhile fun c => c != ';'
  lower (String.ofList (Text.trim kind))

end HttpService.Lexical
