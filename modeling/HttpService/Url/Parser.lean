import HttpService.Url.Basic
import HttpService.Text.Blank
import HttpService.Text.Digits

/-!
# Reading URLs

The reader of the URL standard for absolute URLs.  It first drops spaces and control characters at
the ends and every tab and line break, then takes the text apart at its separators.  In a web URL a
backslash counts as a slash, `.` and `..` segments are resolved, and each part is escaped with a
class of its own.
-/

namespace HttpService.Url

/-! ## Escaping classes -/

def inFragment (c : Char) : Bool :=
  Percent.isControl c || " \"<>\x60".toList.contains c

def inPath (c : Char) : Bool :=
  inFragment c || "#?\x7b\x7d".toList.contains c

def inUserInfo (c : Char) : Bool :=
  inPath c || "/:;=@[\\]^|".toList.contains c

def inQuery (c : Char) : Bool :=
  Percent.isControl c || " \"#<>\x27".toList.contains c

/-! ## Cleaning -/

/-- A space or a control character of the first block. -/
def isEdge (c : Char) : Bool :=
  c.toNat ≤ 0x20

def isSkipped (c : Char) : Bool :=
  c == '\t' || c == '\n' || c == '\r'

/-- The text that is read: without the spaces and control characters at its ends, and without
tabs and line breaks. -/
def clean (cs : List Char) : List Char :=
  (Text.trimBy isEdge cs).filter fun c => !isSkipped c

/-! ## Scheme -/

/-- The characters of a scheme after its first letter. -/
def isSchemeChar (c : Char) : Bool :=
  c.isAlphanum || c == '+' || c == '-' || c == '.'

/-- A scheme in small letters, and what follows its colon. -/
def scheme? (cs : List Char) : Option (String × List Char) :=
  match cs with
  | [] => none
  | c :: _ =>
    if c.isAlpha then
      match cs.dropWhile isSchemeChar with
      | ':' :: rest => some (String.ofList ((cs.takeWhile isSchemeChar).map Char.toLower), rest)
      | _ => none
    else none

/-! ## Authority -/

def isSlash (c : Char) : Bool :=
  c == '/' || c == '\\'

def endsAuthority (c : Char) : Bool :=
  isSlash c || c == '?' || c == '#'

/-- What stands before and after the last `@`. -/
def cutLastAt (cs : List Char) : Option (List Char × List Char) :=
  (Text.cut (· == '@') cs.reverse).map fun p => (p.2.reverse, p.1.reverse)

/-- The user name and the password of the text before the last `@`. -/
def readUserInfo (cs : List Char) : UserInfo :=
  match Text.cut (· == ':') cs with
  | none => ⟨Percent.encode inUserInfo cs, none⟩
  | some (name, password) =>
    ⟨Percent.encode inUserInfo name,
      if password.isEmpty then none else some (Percent.encode inUserInfo password)⟩

/-- The host of an authority, up to the first colon outside brackets, and the text after that
colon. -/
def cutPort : Bool → List Char → List Char × Option (List Char)
  | _, [] => ([], none)
  | inside, c :: rest =>
    if c = ':' && !inside then ([], some rest)
    else
      let inside := if c = '[' then true else if c = ']' then false else inside
      let (host, port) := cutPort inside rest
      (c :: host, port)

/-- The number of a port, unless it is too large or not made of digits.  A fault in the digits
read so far comes before one further on, but both are told in the same way. -/
def port? (cs : List Char) : Except UrlFault (Option Nat) :=
  if cs.isEmpty then .ok none
  else if cs.all Char.isDigit then
    let n := Text.natOfDigits cs
    if n ≤ 65535 then .ok (some n) else .error .invalidPort
  else .error .invalidPort

/-- The authority of a web URL whose scheme uses a port when none is given. -/
def authority [DomainNames] (defaultPort : Nat) (cs : List Char) : Except UrlFault Authority := do
  let (user, rest) := (cutLastAt cs).getD ([], cs)
  let (host, port) := cutPort false rest
  if host.isEmpty then .error .emptyHost
  let host ← Host.parse host
  let port ← (port.map port?).getD (.ok none)
  return ⟨readUserInfo user, host, (port.filter (· ≠ defaultPort)).map UInt16.ofNat⟩

/-- What follows the scheme of a web URL: its authority, and the text after that. -/
def cutAuthority [DomainNames] (defaultPort : Nat) (cs : List Char) :
    Except UrlFault (Authority × List Char) :=
  let cs := cs.dropWhile isSlash
  (authority defaultPort (cs.takeWhile fun c => !endsAuthority c)).map fun a =>
    (a, cs.dropWhile fun c => !endsAuthority c)

/-! ## Path -/

/-- Whether a segment stands for the directory it is in. -/
def isSingleDot (s : List Char) : Bool :=
  let lower := s.map Char.toLower
  lower == ['.'] || lower == "%2e".toList

/-- Whether a segment stands for the directory above. -/
def isDoubleDot (s : List Char) : Bool :=
  let lower := s.map Char.toLower
  lower == ['.', '.'] || lower == ".%2e".toList || lower == "%2e.".toList ||
    lower == "%2e%2e".toList

/-- A drive letter, which no double dot removes. -/
def isDriveLetter (s : List Char) : Bool :=
  match s with
  | [c, d] => c.isAlpha && (d == ':' || d == '|')
  | _ => false

/-- Segments, the last one first, without their last one. -/
def shorten (done : List (List Char)) : List (List Char) :=
  match done with
  | [] => []
  | s :: rest => if isDriveLetter s then s :: rest else rest

/-- The segments of a path after those already done, which stand with the last one first.  A dot
segment at the end leaves an empty one. -/
def resolveSegments : List (List Char) → List (List Char) → List (List Char)
  | done, [] => done.reverse
  | done, s :: rest =>
    let close (done : List (List Char)) : List (List Char) :=
      if rest.isEmpty then [] :: done else done
    if isDoubleDot s then resolveSegments (close (shorten done)) rest
    else if isSingleDot s then resolveSegments (close done) rest
    else resolveSegments (Percent.encode inPath s :: done) rest

def dropSlash (cs : List Char) : List Char :=
  match cs with
  | [] => []
  | c :: rest => if isSlash c then rest else c :: rest

/-- The segments of a path whose first slash may be missing. -/
def pathSegments (cs : List Char) : List (List Char) :=
  resolveSegments [] (Text.splitAll isSlash (dropSlash cs))

/-! ## Path, query and fragment -/

/-- What follows the authority: the path as it was read, and the query and the fragment escaped. -/
structure Tail where
  path : List Char
  query : Option (List Char)
  fragment : Option (List Char)

/-- The path, the query and the fragment of a text, with what is escaped in the query. -/
def Tail.ofChars (escaped : Char → Bool) (cs : List Char) : Tail :=
  let (rest, fragment) := Text.cutOff '#' cs
  let (path, query) := Text.cutOff '?' rest
  ⟨path, query.map (Percent.encode escaped), fragment.map (Percent.encode inFragment)⟩

/-! ## Web URLs -/

def parseWeb [DomainNames] (scheme : WebScheme) (cs : List Char) : Except UrlFault Url := do
  let (a, rest) ← cutAuthority scheme.defaultPort cs
  let tail := Tail.ofChars inQuery rest
  return {
    toAuthority := a
    scheme
    path := pathSegments tail.path
    query := tail.query
    fragment := tail.fragment }

end HttpService.Url
