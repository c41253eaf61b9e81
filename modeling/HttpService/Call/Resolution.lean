import HttpService.Argument.Arguments
import HttpService.Configuration.BaseUrl
import HttpService.Lexical
import HttpService.Template.Placeholder
import HttpService.Template.Traversal
import HttpService.Url.FormPairs

/-!
# The URL of a call

The URL of an endpoint is completed with the arguments of a call and resolved against the base
URL.  Values are put into the path as text and the whole path is escaped at once; a `%` in a value
is escaped beforehand, so that the server decodes exactly what the caller passed.

No segment may be a traversal segment: not in the template, not in a value, and not in the path
they make together.
-/

namespace HttpService

/-- A path segment that would lead out of the path it stands in, and where it came from. -/
structure Traversal where
  segment : String
  origin : String
  deriving DecidableEq, Repr

def Traversal.message (t : Traversal) : String :=
  "path segment " ++ Text.quoted t.segment ++ " from " ++ t.origin ++
    " would traverse outside the request path"

inductive ResolutionFault
  | traversal (t : Traversal)
  | argument (fault : ArgumentFault)
  | unsupportedScheme (scheme : String)
  | invalid (url : String) (reason : UrlFault)
  deriving DecidableEq, Repr

def ResolutionFault.message : ResolutionFault → String
  | .traversal t => t.message
  | .argument fault => fault.message
  | .unsupportedScheme scheme =>
    "URL scheme " ++ Text.quoted scheme ++ " is not supported; use http or https"
  | .invalid url reason => "resolved URL " ++ Text.quoted url ++ " is invalid: " ++ reason.message

namespace Resolution

/-! ## Escaping -/

/-- The ASCII characters that are escaped in a path.  A `%` is not, so that the escapes of a
template stay, and neither is a slash, since a value may span segments. -/
def inPath (c : Char) : Bool :=
  Percent.isControl c || [' ', '"', '#', '<', '>', '?', '\x60', '\x7b', '\x7d'].contains c

/-- The ASCII characters that are escaped in a literal query. -/
def inQuery (c : Char) : Bool :=
  Percent.isControl c || [' ', '"', '#', '<', '>'].contains c

/-! ## Traversal -/

def rejectTraversal (path : List Char) (origin : String) : Except ResolutionFault Unit :=
  match Template.traversalSegment? path with
  | some segment => .error (.traversal ⟨String.ofList segment, origin⟩)
  | none => .ok ()

/-- Refuses a value that has a traversal segment once it is decoded. -/
def rejectValueTraversal (value : List Char) (parameter : String) : Except ResolutionFault Unit :=
  match Template.valueTraversalSegment? value with
  | some segment => .error (.traversal ⟨String.ofList segment, "parameter " ++ parameter⟩)
  | none => .ok ()

/-! ## Values in the path -/

/-- The text of an argument that goes into a path: it must be there and be a single value. -/
def pathText (parameter : String) (a : Argument) : Except ArgumentFault String :=
  match a with
  | .list _ | .map _ => .error (a.mismatch parameter "a single value")
  | _ => do
    match ← a.toText parameter with
    | some text => return text
    | none => .error (.missing parameter)

def escapePercent (cs : List Char) : List Char :=
  cs.flatMap fun c => if c = '%' then Percent.escape 0x25 else [c]

def pathValue (b : PathBinding) (args : Arguments) : Except ResolutionFault (List Char) := do
  let text ← (pathText b.parameter (args.value b.parameter)).mapError .argument
  rejectValueTraversal text.toList b.parameter
  return escapePercent text.toList

/-- The values of all placeholders.  Of two bindings of one placeholder the later wins. -/
def pathValues (args : Arguments) :
    List PathBinding → Except ResolutionFault (List (String × List Char))
  | [] => .ok []
  | b :: rest => do
    let value ← pathValue b args
    let values ← pathValues args rest
    return values ++ [(b.placeholder, value)]

/-! ## Joining -/

/-- The scheme, the base's part and the escaped path, up to the query. -/
def locate (base : BaseUrl) (kind : Template.Kind) (path : List Char) :
    Except ResolutionFault (List Char) :=
  let escaped := Percent.encode inPath path
  match kind with
  | .protocolRelative => .ok (base.url.scheme.name.toList ++ ':' :: escaped)
  | .absolute => .ok (base.url.originChars ++ escaped)
  | .relative => .ok (base.url.chars ++ escaped)
  | .full =>
    let scheme := (Template.scheme? (String.ofList path)).getD ""
    if (WebScheme.ofName? (Lexical.lower scheme)).isSome then .ok escaped
    else .error (.unsupportedScheme scheme)

def readUrl [DomainNames] (text : String) : Except ResolutionFault Url :=
  match AnyUrl.parse text with
  | .ok (.web url) => .ok url
  | .ok (.foreign url) => .error (.unsupportedScheme url.scheme)
  | .error reason => .error (.invalid text reason)

/-- A completed path, with the literal query and fragment, joined with the base URL. -/
def join [DomainNames] (base : BaseUrl) (kind : Template.Kind) (parts : Template.Parts) :
    Except ResolutionFault Url := do
  rejectTraversal parts.path "the resolved path"
  let located ← locate base kind parts.path
  let query := parts.query.map (Percent.encode inQuery)
  readUrl (String.ofList (located ++ Url.suffix '?' query ++ Url.suffix '#' parts.fragment))

/-! ## The URL before its queries -/

def template [DomainNames] (base : BaseUrl) (text : String) (kind : Template.Kind)
    (path : List PathBinding) (args : Arguments) : Except ResolutionFault Url := do
  let parts := Template.split text.toList
  rejectTraversal parts.path "the URL template"
  let values ← pathValues args path
  let completed := Template.substitute (fun name => values.lookup name) parts.path
  join base kind ⟨completed, parts.query, parts.fragment⟩

def urlText (parameter : String) (a : Argument) : Except ArgumentFault String :=
  match a with
  | .string s => .ok s
  | .null => .error (.missing parameter)
  | _ => .error (a.mismatch parameter "a string")

def dynamic [DomainNames] (base : BaseUrl) (parameter : String) (args : Arguments) :
    Except ResolutionFault Url := do
  let text ← (urlText parameter (args.value parameter)).mapError .argument
  let parts := Template.split text.toList
  rejectValueTraversal parts.path parameter
  join base (Template.classify text) parts

end Resolution

def Url.appendPairs (u : Url) (pairs : List (String × String)) : Url :=
  if pairs.isEmpty then u
  else
    let query := match u.query with
      | none | some [] => FormPairs.encode pairs
      | some q => q ++ '&' :: FormPairs.encode pairs
    { u with query := some query }

/-- The URL of a call: the source completed and joined with the base, then the query pairs of the
arguments after the literal query. -/
def UrlSource.resolve [DomainNames] (source : UrlSource) (base : BaseUrl) (args : Arguments) :
    Except ResolutionFault Url := do
  let url ← match source with
    | .template text kind path _ => Resolution.template base text kind path args
    | .dynamic parameter _ => Resolution.dynamic base parameter args
  let pairs ← (bindingPairs source.queries args).mapError .argument
  return url.appendPairs pairs

end HttpService
