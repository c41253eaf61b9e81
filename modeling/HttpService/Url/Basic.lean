import HttpService.Url.Host

/-!
# URLs

A web URL in its parts.  Path, query and fragment hold text that is already escaped; `chars`
writes the parts out.  A port that is the scheme's own is never kept, and the path always has at
least one segment.
-/

namespace HttpService

/-- The schemes that a client speaks. -/
inductive WebScheme
  | http
  | https
  deriving DecidableEq, Repr

def WebScheme.name : WebScheme → String
  | .http => "http"
  | .https => "https"

/-- The port that a scheme uses when none is given. -/
def WebScheme.defaultPort : WebScheme → Nat
  | .http => 80
  | .https => 443

def WebScheme.ofName? (s : String) : Option WebScheme :=
  if s = "http" then some .http else if s = "https" then some .https else none

/-- A user name and a password, both escaped; either may be missing. -/
structure UserInfo where
  username : List Char
  password : Option (List Char)
  deriving DecidableEq, Repr

def UserInfo.chars (u : UserInfo) : List Char :=
  if u.username.isEmpty && u.password.isNone then []
  else u.username ++ ((u.password.map (':' :: ·)).getD []) ++ ['@']

structure Authority where
  userInfo : UserInfo
  host : Host
  port : Option UInt16
  deriving DecidableEq, Repr

def Authority.chars (a : Authority) : List Char :=
  a.userInfo.chars ++ a.host.chars ++ ((a.port.map fun p => ':' :: Text.digitsOf p.toNat).getD [])

structure Url extends Authority where
  scheme : WebScheme
  path : List (List Char)
  query : Option (List Char)
  fragment : Option (List Char)
  deriving DecidableEq, Repr

namespace Url

/-- The scheme, the user, the host and the port, as they stand in a URL. -/
def originChars (u : Url) : List Char :=
  u.scheme.name.toList ++ ':' :: '/' :: '/' :: u.toAuthority.chars

def segmentChars (path : List (List Char)) : List Char :=
  path.flatMap ('/' :: ·)

def pathChars (u : Url) : List Char :=
  segmentChars u.path

/-- A part that stands after a sign, when it is there. -/
def suffix (sign : Char) (part : Option (List Char)) : List Char :=
  (part.map (sign :: ·)).getD []

def chars (u : Url) : List Char :=
  u.originChars ++ u.pathChars ++ suffix '?' u.query ++ suffix '#' u.fragment

def text (u : Url) : String :=
  String.ofList u.chars

end Url

end HttpService
