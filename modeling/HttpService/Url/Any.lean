import HttpService.Url.Foreign.Parser

/-!
# URLs of every scheme

A URL that a client speaks, or another.  Only the former can be called through a base URL, but a
request may be written with either.
-/

namespace HttpService

/-- A URL of any scheme: one that a client speaks, or another. -/
inductive AnyUrl
  | web (url : Url)
  | foreign (url : ForeignUrl)
  deriving DecidableEq, Repr

namespace AnyUrl

def text : AnyUrl → String
  | .web url => url.text
  | .foreign url => url.text

def parse [DomainNames] (s : String) : Except UrlFault AnyUrl :=
  match Url.scheme? (Url.clean s.toList) with
  | none => .error .relativeWithoutBase
  | some (name, rest) =>
    match WebScheme.ofName? name with
    | some scheme => (Url.parseWeb scheme rest).map .web
    | none => (ForeignUrl.parse name rest).map .foreign

end AnyUrl

end HttpService
