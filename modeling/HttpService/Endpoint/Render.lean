import HttpService.Endpoint.Basic

/-!
# Services as text

A listing of a service for a terminal: a head line with a rule below it, and for each endpoint a
block that shows where every parameter goes.
-/

namespace HttpService

/-- Lines, each with its line break. -/
def joinLines (ls : List String) : String :=
  String.join (ls.map (· ++ "\n"))

def TypeExpr.MapKind.display : TypeExpr.MapKind → String
  | .map => "Map"
  | .pairList => "PairList"
  | .multiValue => "MultiValue"

/-- A value binding in a listing; `*` stands for names that the entries bring. -/
def ValueBinding.display (b : ValueBinding) : String :=
  let name := b.name.getD "*"
  match b.mode with
  | .single => name ++ " <- " ++ b.parameter
  | .iterable => name ++ "[] <- " ++ b.parameter
  | .map kind => name ++ " <- " ++ b.parameter ++ " (" ++ kind.display ++ ")"

def PathBinding.display (b : PathBinding) : String :=
  "\x7b" ++ b.placeholder ++ "\x7d <- " ++ b.parameter

def HeaderBinding.display : HeaderBinding → String
  | .static name value => name ++ ": " ++ value
  | .single name parameter iterable =>
    name ++ (if iterable then "[]" else "") ++ " <- " ++ parameter
  | .map parameter kind => "* <- " ++ parameter ++ " (" ++ kind.display ++ ")"

def PartBinding.display (b : PartBinding) : String :=
  b.name.getD "*" ++ " <- " ++ b.parameter ++ " [" ++ b.contentType ++ "]"

def ContentBinding.lines : ContentBinding → List String
  | .body b =>
    ["  body     " ++ b.contentType ++ " <- " ++ b.parameter ++ if b.raw then " (raw)" else ""]
  | .form fields => "  form" :: fields.map fun f => "    field  " ++ f.display
  | .multipart subtype parts =>
    ("  multipart/" ++ subtype) :: parts.map fun p => "    part   " ++ p.display

/-- The first line of an endpoint and the lines of its path bindings. -/
def UrlSource.lines (name : String) (method : Method) : UrlSource → List String
  | .template text kind path _ =>
    (name ++ "  " ++ method.token ++ " " ++ text ++ "  (" ++ kind.display ++ ")") ::
      path.map fun p => "  path     " ++ p.display
  | .dynamic parameter _ => [name ++ "  " ++ method.token ++ " <" ++ parameter ++ ">  (dynamic)"]

def Endpoint.lines (e : Endpoint) : List String :=
  e.url.lines e.name e.method ++
    e.url.queries.map (fun q => "  query    " ++ q.display) ++
    e.headers.map (fun h => "  header   " ++ h.display) ++
    (e.content.map ContentBinding.lines).getD [] ++
    ["  returns  " ++ e.returns.display]

def Endpoint.render (e : Endpoint) : String :=
  joinLines e.lines

def Service.headline (s : Service) : String :=
  let total := s.endpoints.length
  s.name ++ " implements " ++ s.implements ++ s!"  {total} function" ++
    if total = 1 then "" else "s"

def Service.render (s : Service) : String :=
  joinLines [s.headline, String.ofList (List.replicate s.headline.length '─')] ++
    String.join (s.endpoints.map fun e => "\n" ++ e.render)

end HttpService
