import HttpService.Endpoint.Basic
import HttpService.TypeExpr.Parser
import HttpService.Json.Record

/-!
# Endpoints in JSON

The stored form of a service.  A checked service can be written, kept, and read again without
checking it once more.  Each type has a writer `toJson` and a reader `ofJson?`.
-/

namespace HttpService

open Json

/-- A type is stored as its text. -/
def TypeExpr.toJson (t : TypeExpr) : Json :=
  .string t.display

def TypeExpr.ofJson? (j : Json) : Option TypeExpr :=
  j.asString?.bind TypeExpr.parse?

def TypeExpr.MapKind.tag : TypeExpr.MapKind → String
  | .map => "map"
  | .pairList => "pair_list"
  | .multiValue => "multi_value"

def TypeExpr.MapKind.ofTag? (s : String) : Option TypeExpr.MapKind :=
  if s = "map" then some .map
  else if s = "pair_list" then some .pairList
  else if s = "multi_value" then some .multiValue
  else none

def TypeExpr.MapKind.toJson (k : TypeExpr.MapKind) : Json :=
  .string k.tag

def TypeExpr.MapKind.ofJson? (j : Json) : Option TypeExpr.MapKind :=
  (j.asName? isVoid).bind ofTag?

def Template.Kind.tag : Template.Kind → String
  | .absolute => "absolute"
  | .full => "full"
  | .protocolRelative => "protocol_relative"
  | .relative => "relative"

def Template.Kind.ofTag? (s : String) : Option Template.Kind :=
  if s = "absolute" then some .absolute
  else if s = "full" then some .full
  else if s = "protocol_relative" then some .protocolRelative
  else if s = "relative" then some .relative
  else none

def Template.Kind.ofJson? (j : Json) : Option Template.Kind :=
  (j.asName? isVoid).bind ofTag?

namespace Method

/-- A standard method is stored by its token, another one with its token and its permission. -/
def toJson : Method → Json
  | .custom token hasBody =>
    .object [("kind", .string "custom"), ("token", .string token), ("has_body", .bool hasBody)]
  | m => .object [("kind", .string m.token)]

def ofJson? (j : Json) : Option Method := do
  let (tag, rest) ← j.asTagged? "kind"
  if tag = "custom" then
    let fields ← rest.asRecord? ["token", "has_body"]
    let token ← required fields "token" asString?
    let hasBody ← required fields "has_body" asBool?
    return .custom token hasBody
  else
    rest.noFields?
    standard? tag

end Method

namespace PathBinding

def toJson (b : PathBinding) : Json :=
  .object [("placeholder", .string b.placeholder), ("parameter", .string b.parameter)]

def ofJson? (j : Json) : Option PathBinding := do
  let fields ← j.asRecord? ["placeholder", "parameter"]
  let placeholder ← required fields "placeholder" asString?
  let parameter ← required fields "parameter" asString?
  return { placeholder, parameter }

end PathBinding

namespace ValueMode

/-- A mode with the kind of map, where it is one. -/
def toJson : ValueMode → Json
  | .single => .object [("mode", .string "single")]
  | .iterable => .object [("mode", .string "iterable")]
  | .map kind => .object [("mode", .string "map"), ("map_type", kind.toJson)]

def ofJson? (j : Json) : Option ValueMode := do
  let (tag, payload) ← j.asAdjacent? "mode" "map_type" (asName? isVoid)
  if tag = "single" then
    noPayload? payload
    return .single
  else if tag = "iterable" then
    noPayload? payload
    return .iterable
  else if tag = "map" then
    let kind ← payload.bind TypeExpr.MapKind.ofJson?
    return .map kind
  else none

end ValueMode

namespace ValueBinding

def toJson (b : ValueBinding) : Json :=
  .object (optionField "name" Json.string b.name ++
    [("parameter", .string b.parameter), ("mode", b.mode.toJson)])

def ofJson? (j : Json) : Option ValueBinding := do
  let fields ← j.asRecord? ["name", "parameter", "mode"]
  let name ← optional fields "name" asString?
  let parameter ← required fields "parameter" asString?
  let mode ← required fields "mode" ValueMode.ofJson?
  return { name, parameter, mode }

end ValueBinding

namespace UrlSource

/-- A source with its bindings; empty lists of bindings are left out. -/
def toJson : UrlSource → Json
  | .template text kind path queries =>
    .object ([("source", .string "template"), ("template", .string text),
      ("kind", .string kind.tag)] ++ listField "path_params" PathBinding.toJson path ++
      listField "queries" ValueBinding.toJson queries)
  | .dynamic parameter queries =>
    .object ([("source", .string "dynamic"), ("parameter", .string parameter)] ++
      listField "queries" ValueBinding.toJson queries)

def ofJson? (j : Json) : Option UrlSource := do
  let (tag, rest) ← j.asTagged? "source"
  if tag = "template" then
    let fields ← rest.asRecord? ["template", "kind", "path_params", "queries"]
    let text ← required fields "template" asString?
    let kind ← required fields "kind" Template.Kind.ofJson?
    let path ← withDefault fields "path_params" [] (asList? PathBinding.ofJson?)
    let queries ← withDefault fields "queries" [] (asList? ValueBinding.ofJson?)
    return .template text kind path queries
  else if tag = "dynamic" then
    let fields ← rest.asRecord? ["parameter", "queries"]
    let parameter ← required fields "parameter" asString?
    let queries ← withDefault fields "queries" [] (asList? ValueBinding.ofJson?)
    return .dynamic parameter queries
  else none

end UrlSource

namespace HeaderBinding

def toJson : HeaderBinding → Json
  | .static name value =>
    .object [("kind", .string "static"), ("name", .string name), ("value", .string value)]
  | .single name parameter iterable =>
    .object [("kind", .string "single"), ("name", .string name), ("parameter", .string parameter),
      ("iterable", .bool iterable)]
  | .map parameter kind =>
    .object [("kind", .string "map"), ("parameter", .string parameter), ("map_type", kind.toJson)]

def ofJson? (j : Json) : Option HeaderBinding := do
  let (tag, rest) ← j.asTagged? "kind"
  if tag = "static" then
    let fields ← rest.asRecord? ["name", "value"]
    let name ← required fields "name" asString?
    let value ← required fields "value" asString?
    return .static name value
  else if tag = "single" then
    let fields ← rest.asRecord? ["name", "parameter", "iterable"]
    let name ← required fields "name" asString?
    let parameter ← required fields "parameter" asString?
    let iterable ← required fields "iterable" asBool?
    return .single name parameter iterable
  else if tag = "map" then
    let fields ← rest.asRecord? ["parameter", "map_type"]
    let parameter ← required fields "parameter" asString?
    let kind ← required fields "map_type" TypeExpr.MapKind.ofJson?
    return .map parameter kind
  else none

end HeaderBinding

namespace BodyBinding

def toFields (b : BodyBinding) : List (String × Json) :=
  [("parameter", .string b.parameter), ("content_type", .string b.contentType),
    ("raw", .bool b.raw), ("nullable", .bool b.nullable)]

def ofJson? (j : Json) : Option BodyBinding := do
  let fields ← j.asRecord? ["parameter", "content_type", "raw", "nullable"]
  let parameter ← required fields "parameter" asString?
  let contentType ← required fields "content_type" asString?
  let raw ← withDefault fields "raw" false asBool?
  let nullable ← withDefault fields "nullable" false asBool?
  return { parameter, contentType, raw, nullable }

end BodyBinding

namespace PartBinding

def toJson (b : PartBinding) : Json :=
  .object (optionField "name" Json.string b.name ++
    [("parameter", .string b.parameter), ("content_type", .string b.contentType),
      ("mode", b.mode.toJson), ("raw", .bool b.raw)])

def ofJson? (j : Json) : Option PartBinding := do
  let fields ← j.asRecord? ["name", "parameter", "content_type", "mode", "raw"]
  let name ← optional fields "name" asString?
  let parameter ← required fields "parameter" asString?
  let contentType ← required fields "content_type" asString?
  let mode ← required fields "mode" ValueMode.ofJson?
  let raw ← withDefault fields "raw" false asBool?
  return { name, parameter, contentType, mode, raw }

end PartBinding

namespace ContentBinding

def toJson : ContentBinding → Json
  | .body b => .object (("kind", .string "body") :: b.toFields)
  | .form fields =>
    .object [("kind", .string "form_url_encoded"),
      ("fields", .array (fields.map ValueBinding.toJson))]
  | .multipart subtype parts =>
    .object [("kind", .string "multipart"), ("subtype", .string subtype),
      ("parts", .array (parts.map PartBinding.toJson))]

def ofJson? (j : Json) : Option ContentBinding := do
  let (tag, rest) ← j.asTagged? "kind"
  if tag = "body" then
    let b ← BodyBinding.ofJson? rest
    return .body b
  else if tag = "form_url_encoded" then
    let fields ← rest.asRecord? ["fields"]
    let fields ← required fields "fields" (asList? ValueBinding.ofJson?)
    return .form fields
  else if tag = "multipart" then
    let fields ← rest.asRecord? ["subtype", "parts"]
    let subtype ← required fields "subtype" asString?
    let parts ← required fields "parts" (asList? PartBinding.ofJson?)
    return .multipart subtype parts
  else none

end ContentBinding

namespace ReturnShape

def toJson : ReturnShape → Json
  | .plain t => .object [("shape", .string "plain"), ("type", t.toJson)]
  | .wrapped t => .object [("shape", .string "wrapped"), ("type", t.toJson)]
  | .discarded => .object [("shape", .string "wrapped_wildcard")]

def ofJson? (j : Json) : Option ReturnShape := do
  let (tag, payload) ← j.asAdjacent? "shape" "type" (asName? isNull)
  if tag = "plain" then
    let t ← payload.bind TypeExpr.ofJson?
    return .plain t
  else if tag = "wrapped" then
    let t ← payload.bind TypeExpr.ofJson?
    return .wrapped t
  else if tag = "wrapped_wildcard" then
    noPayload? payload
    return .discarded
  else none

end ReturnShape

namespace Parameter

def toJson (p : Parameter) : Json :=
  .object [("name", .string p.name), ("type", p.type.toJson)]

def ofJson? (j : Json) : Option Parameter := do
  let fields ← j.asRecord? ["name", "type"]
  let name ← required fields "name" asString?
  let type ← required fields "type" TypeExpr.ofJson?
  return { name, type }

end Parameter

namespace Endpoint

/-- An endpoint as a record; no headers and no content are left out. -/
def toJson (e : Endpoint) : Json :=
  .object ([("name", .string e.name), ("parameters", .array (e.parameters.map Parameter.toJson)),
    ("method", e.method.toJson), ("url", e.url.toJson)] ++
    listField "headers" HeaderBinding.toJson e.headers ++
    optionField "content" ContentBinding.toJson e.content ++ [("returns", e.returns.toJson)])

def ofJson? (j : Json) : Option Endpoint := do
  let fields ← j.asRecord? ["name", "parameters", "method", "url", "headers", "content", "returns"]
  let name ← required fields "name" asString?
  let parameters ← required fields "parameters" (asList? Parameter.ofJson?)
  let method ← required fields "method" Method.ofJson?
  let url ← required fields "url" UrlSource.ofJson?
  let headers ← withDefault fields "headers" [] (asList? HeaderBinding.ofJson?)
  let content ← optional fields "content" ContentBinding.ofJson?
  let returns ← required fields "returns" ReturnShape.ofJson?
  return { name, parameters, method, url, headers, content, returns }

end Endpoint

namespace Service

def toJson (s : Service) : Json :=
  .object [("name", .string s.name), ("implements", .string s.implements),
    ("functions", .array (s.endpoints.map Endpoint.toJson))]

def ofJson? (j : Json) : Option Service := do
  let fields ← j.asRecord? ["name", "implements", "functions"]
  let name ← required fields "name" asString?
  let implements ← required fields "implements" asString?
  let endpoints ← required fields "functions" (asList? Endpoint.ofJson?)
  return { name, implements, endpoints }

end Service

end HttpService
