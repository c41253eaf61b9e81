import HttpService.Url.Foreign
import HttpService.Url.Parser

/-!
# Reading URLs of other schemes

The rest of the URL reader: what follows a scheme that is not a web one.  There are three forms.
`ws`, `wss` and `ftp` URLs have the form of web URLs.  A `file` URL has a host and no port, and a
path that may start with a drive letter.  In all other URLs a backslash is no separator, the
authority is there only behind two slashes, its host is kept as it is written, and a path without
a slash at its start is not taken apart.
-/

namespace HttpService.ForeignUrl

open Url

/-! ## Schemes in the form of web URLs -/

/-- The port that a scheme uses when none is given, for the schemes whose URLs have the form of
web URLs. -/
def webPort? (scheme : String) : Option Nat :=
  if scheme = "ws" then some 80
  else if scheme = "wss" then some 443
  else if scheme = "ftp" then some 21
  else none

def parseWebForm [DomainNames] (scheme : String) (port : Nat)
    (cs : List Char) : Except UrlFault ForeignUrl := do
  let (a, rest) ← cutAuthority port cs
  let tail := Tail.ofChars inQuery rest
  return ⟨scheme, some a, .segments (pathSegments tail.path), tail.query, tail.fragment⟩

/-! ## Files -/

/-- The host of a file URL behind two slashes, and the text after it.  A drive letter in its place
belongs to the path, and the name of the local machine is no host.  Without a host, the slash
before the path counts as one of its own. -/
def fileHost [DomainNames] (cs : List Char) : Except UrlFault (Host × List Char) := do
  let name := cs.takeWhile fun c => !endsAuthority c
  let rest := cs.dropWhile fun c => !endsAuthority c
  if isDriveLetter name then return (.domain [], cs)
  if name.isEmpty then return (.domain [], rest)
  let host ← Host.parse name
  if host = .domain "localhost".toList then return (.domain [], rest)
  return (host, dropSlash rest)

/-- What follows the scheme of a file URL: its host, and the text from its first segment on. -/
def cutFileHost [DomainNames] (cs : List Char) : Except UrlFault (Host × List Char) :=
  match cs with
  | a :: b :: rest =>
    if isSlash a && isSlash b then fileHost rest else .ok (.domain [], dropSlash (a :: b :: rest))
  | cs => .ok (.domain [], dropSlash cs)

/-- A path whose first segment is a drive letter has no host, and the letter gets a colon. -/
def settleDrive (host : Host) (path : List (List Char)) : Host × List (List Char) :=
  match path with
  | [c, d] :: rest =>
    if isDriveLetter [c, d] then (.domain [], [c, ':'] :: rest) else (host, [c, d] :: rest)
  | path => (host, path)

/-- Segments without the empty ones at the start, but at least one. -/
def dropEmptyFirst (path : List (List Char)) : List (List Char) :=
  match path.dropWhile List.isEmpty with
  | [] => [[]]
  | s :: rest => s :: rest

def parseFile [DomainNames] (cs : List Char) : Except UrlFault ForeignUrl := do
  let (host, rest) ← cutFileHost cs
  let tail := Tail.ofChars inQuery rest
  let (host, path) := settleDrive host (resolveSegments [] (Text.splitAll isSlash tail.path))
  return ⟨"file", some ⟨⟨[], none⟩, host, none⟩, .segments (dropEmptyFirst path), tail.query,
    tail.fragment⟩

/-! ## All other schemes -/

/-- What is escaped in the query of a URL that is not of the form of a web URL. -/
def inPlainQuery (c : Char) : Bool :=
  Percent.isControl c || " \"#<>".toList.contains c

/-- A host that is kept as it is written, escaped where it has to be. -/
def plainHost (cs : List Char) : Except UrlFault Host :=
  match cs with
  | '[' :: rest => Host.bracketed? rest
  | cs =>
    if cs.any fun c => "\x00\t\n\r #/:<>?@[\\]^|".toList.contains c then
      .error .invalidDomainCharacter
    else .ok (.domain (Percent.encode Percent.isControl cs))

/-- The characters that end an authority where a backslash is no separator. -/
def endsPlainAuthority (c : Char) : Bool :=
  c == '/' || c == '?' || c == '#'

/-- What follows two slashes: the authority, and the text after it.  The host may be missing, but
not after a user or before a port; a colon alone is no user.  A port ends at a backslash, where
the path begins. -/
def cutPlainAuthority (cs : List Char) : Except UrlFault (Authority × List Char) := do
  let text := cs.takeWhile fun c => !endsPlainAuthority c
  let rest := cs.dropWhile fun c => !endsPlainAuthority c
  let user := cutLastAt text
  let userInfo := readUserInfo ((user.map Prod.fst).getD [])
  let (name, port) := cutPort false ((user.map Prod.snd).getD text)
  let host ← plainHost name
  let emptyUser := (user.map fun u => u.1.isEmpty).getD false
  if name.isEmpty && (port.isSome || !userInfo.chars.isEmpty || (emptyUser && !rest.isEmpty)) then
    .error .emptyHost
  let port := port.getD []
  let number ← port? (port.takeWhile fun c => c != '\\')
  return (⟨userInfo, host, number.map UInt16.ofNat⟩, port.dropWhile (fun c => c != '\\') ++ rest)

/-- The segments of a path that starts with a slash, or is behind an authority. -/
def plainSegments (cs : List Char) : List (List Char) :=
  let cs := match cs with
    | '/' :: rest => rest
    | cs => cs
  resolveSegments [] (Text.splitAll (· == '/') cs)

/-- A URL after a scheme that sets no form of its own. -/
def parsePlain (scheme : String) (cs : List Char) : Except UrlFault ForeignUrl :=
  match cs with
  | '/' :: '/' :: rest => do
    let (a, rest) ← cutPlainAuthority rest
    let tail := Tail.ofChars inPlainQuery rest
    let path := if tail.path.isEmpty then [] else plainSegments tail.path
    return ⟨scheme, some a, .segments path, tail.query, tail.fragment⟩
  | '/' :: rest =>
    let tail := Tail.ofChars inPlainQuery ('/' :: rest)
    .ok ⟨scheme, none, .segments (plainSegments tail.path), tail.query, tail.fragment⟩
  | cs =>
    let tail := Tail.ofChars inPlainQuery cs
    .ok ⟨scheme, none, .plain (Percent.encode Percent.isControl tail.path), tail.query,
      tail.fragment⟩

def parse [DomainNames] (scheme : String) (cs : List Char) : Except UrlFault ForeignUrl :=
  if scheme = "file" then parseFile cs
  else match webPort? scheme with
    | some port => parseWebForm scheme port cs
    | none => parsePlain scheme cs

end HttpService.ForeignUrl
