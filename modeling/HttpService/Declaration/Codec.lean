import HttpService.Declaration.Basic
import HttpService.Endpoint.Codec
import HttpService.Json.Reader

/-!
# Declarations in JSON

The form in which a declaration arrives.  Most fields may be left out and have a value of their
own then.  Each type has a writer `toJson` and a reader `ofJson?`; a record also has the `outline`
that names its fields, so that a text is read no further than they go.
-/

namespace HttpService

open Json

namespace Location

def toJson (l : Location) : Json :=
  .object [("file", .string l.file), ("line", .nat l.line.toNat), ("column", .nat l.column.toNat)]

def outline : Outline :=
  .record [("file", .whole), ("line", .whole), ("column", .whole)]

def ofJson? (j : Json) : Option Location := do
  let fields ← j.asRecord? outline.names
  let file ← withDefault fields "file" "" asString?
  let line ← withDefault fields "line" 0 asUInt32?
  let column ← withDefault fields "column" 0 asUInt32?
  return { file, line, column }

end Location

def DeclKind.ofJson? (j : Json) : Option DeclKind := do
  let s ← j.asName? isNull
  if s = "interface" then some .interface
  else if s = "class" then some .classType
  else if s = "object" then some .object
  else if s = "enum" then some .enumeration
  else none

namespace PropertyDecl

def toJson (p : PropertyDecl) : Json :=
  .object [("name", .string p.name), ("location", p.location.toJson)]

def outline : Outline :=
  .record [("name", .whole), ("location", Location.outline)]

def ofJson? (j : Json) : Option PropertyDecl := do
  let fields ← j.asRecord? outline.names
  let name ← required fields "name" asString?
  let location ← withDefault fields "location" .unknown Location.ofJson?
  return { name, location }

end PropertyDecl

namespace FunctionMark

def toJson : FunctionMark → Json
  | .http method path hasBody =>
    .object ([("kind", .string "http"), ("method", .string method)] ++
      optionField "path" Json.string path ++ optionField "has_body" Json.bool hasBody)
  | .headers values =>
    .object [("kind", .string "headers"), ("values", .array (values.map Json.string))]
  | .form => .object [("kind", .string "form_url_encoded")]
  | .multipart subtype =>
    .object (("kind", .string "multipart") :: optionField "subtype" Json.string subtype)

def ofJson? (j : Json) : Option FunctionMark := do
  let (tag, rest) ← j.asTagged? "kind"
  if tag = "http" then
    let fields ← rest.asRecord? ["method", "path", "has_body"]
    let method ← required fields "method" asString?
    let path ← optional fields "path" asString?
    let hasBody ← optional fields "has_body" asBool?
    return .http method path hasBody
  else if tag = "headers" then
    let fields ← rest.asRecord? ["values"]
    let values ← required fields "values" (asList? asString?)
    return .headers values
  else if tag = "form_url_encoded" then
    rest.noFields?
    return .form
  else if tag = "multipart" then
    let fields ← rest.asRecord? ["subtype"]
    let subtype ← optional fields "subtype" asString?
    return .multipart subtype
  else none

end FunctionMark

namespace Role

def toJson : Role → Json
  | .path name => .object (("kind", .string "path") :: optionField "name" Json.string name)
  | .url => .object [("kind", .string "url")]
  | .query name => .object (("kind", .string "query") :: optionField "name" Json.string name)
  | .queryMap => .object [("kind", .string "query_map")]
  | .header name => .object [("kind", .string "header"), ("name", .string name)]
  | .headerMap => .object [("kind", .string "header_map")]
  | .field name => .object (("kind", .string "field") :: optionField "name" Json.string name)
  | .fieldMap => .object [("kind", .string "field_map")]
  | .part name contentType =>
    .object (("kind", .string "part") :: optionField "name" Json.string name ++
      optionField "content_type" Json.string contentType)
  | .partMap contentType =>
    .object (("kind", .string "part_map") :: optionField "content_type" Json.string contentType)
  | .body contentType =>
    .object (("kind", .string "body") :: optionField "content_type" Json.string contentType)

/-- The only field of a role, a name that may be absent. -/
def name? (rest : Json) : Option (Option String) := do
  let fields ← rest.asRecord? ["name"]
  optional fields "name" asString?

/-- The only field of a role, a content type that may be absent. -/
def contentType? (rest : Json) : Option (Option String) := do
  let fields ← rest.asRecord? ["content_type"]
  optional fields "content_type" asString?

def ofJson? (j : Json) : Option Role := do
  let (tag, rest) ← j.asTagged? "kind"
  if tag = "path" then
    (name? rest).map .path
  else if tag = "url" then
    rest.noFields?
    return .url
  else if tag = "query" then
    (name? rest).map .query
  else if tag = "query_map" then
    rest.noFields?
    return .queryMap
  else if tag = "header" then
    let fields ← rest.asRecord? ["name"]
    let name ← required fields "name" asString?
    return .header name
  else if tag = "header_map" then
    rest.noFields?
    return .headerMap
  else if tag = "field" then
    (name? rest).map .field
  else if tag = "field_map" then
    rest.noFields?
    return .fieldMap
  else if tag = "part" then
    let fields ← rest.asRecord? ["name", "content_type"]
    let name ← optional fields "name" asString?
    let contentType ← optional fields "content_type" asString?
    return .part name contentType
  else if tag = "part_map" then
    (contentType? rest).map .partMap
  else if tag = "body" then
    (contentType? rest).map .body
  else none

end Role

namespace ParameterDecl

def toJson (p : ParameterDecl) : Json :=
  .object [("name", .string p.name), ("type", p.type.toJson),
    ("annotations", .array (p.roles.map Role.toJson)), ("location", p.location.toJson)]

def outline : Outline :=
  .record [("name", .whole), ("type", .whole), ("annotations", .whole),
    ("location", Location.outline)]

def ofJson? (j : Json) : Option ParameterDecl := do
  let fields ← j.asRecord? outline.names
  let name ← required fields "name" asString?
  let type ← required fields "type" TypeExpr.ofJson?
  let roles ← withDefault fields "annotations" [] (asList? Role.ofJson?)
  let location ← withDefault fields "location" .unknown Location.ofJson?
  return { name, type, roles, location }

end ParameterDecl

namespace FunctionDecl

/-- A function as a record; an empty list of type parameters is left out. -/
def toJson (f : FunctionDecl) : Json :=
  .object ([("name", .string f.name), ("annotations", .array (f.marks.map FunctionMark.toJson)),
    ("is_suspend", .bool f.isSuspending), ("has_default_body", .bool f.hasDefaultBody)] ++
    listField "type_parameters" Json.string f.typeParameters ++
    [("parameters", .array (f.parameters.map ParameterDecl.toJson)),
      ("return_type", f.returnType.toJson), ("location", f.location.toJson)])

def outline : Outline :=
  .record [("name", .whole), ("annotations", .whole), ("is_suspend", .whole),
    ("has_default_body", .whole), ("type_parameters", .whole),
    ("parameters", .list ParameterDecl.outline), ("return_type", .whole),
    ("location", Location.outline)]

def ofJson? (j : Json) : Option FunctionDecl := do
  let fields ← j.asRecord? outline.names
  let name ← required fields "name" asString?
  let marks ← withDefault fields "annotations" [] (asList? FunctionMark.ofJson?)
  let isSuspending ← withDefault fields "is_suspend" true asBool?
  let hasDefaultBody ← withDefault fields "has_default_body" false asBool?
  let typeParameters ← withDefault fields "type_parameters" [] (asList? asString?)
  let parameters ← withDefault fields "parameters" [] (asList? ParameterDecl.ofJson?)
  let returnType ← withDefault fields "return_type" .unit TypeExpr.ofJson?
  let location ← withDefault fields "location" .unknown Location.ofJson?
  return { name, marks, isSuspending, hasDefaultBody, typeParameters, parameters, returnType,
           location }

end FunctionDecl

namespace ServiceDecl

/-- A service declaration as a record; most empty lists are left out. -/
def toJson (s : ServiceDecl) : Json :=
  .object ([("name", .string s.name), ("kind", .string s.kind.display),
    ("top_level", .bool s.topLevel)] ++
    listField "supertypes" Json.string s.supertypes ++
    listField "type_parameters" Json.string s.typeParameters ++
    listField "properties" PropertyDecl.toJson s.properties ++
    [("functions", .array (s.functions.map FunctionDecl.toJson))] ++
    listField "serializable_types" Json.string s.serializableTypes ++
    [("location", s.location.toJson)])

def outline : Outline :=
  .record [("name", .whole), ("kind", .whole), ("top_level", .whole), ("supertypes", .whole),
    ("type_parameters", .whole), ("properties", .list PropertyDecl.outline),
    ("functions", .list FunctionDecl.outline), ("serializable_types", .whole),
    ("location", Location.outline)]

def ofJson? (j : Json) : Option ServiceDecl := do
  let fields ← j.asRecord? outline.names
  let name ← required fields "name" asString?
  let kind ← withDefault fields "kind" .interface DeclKind.ofJson?
  let topLevel ← withDefault fields "top_level" true asBool?
  let supertypes ← withDefault fields "supertypes" [] (asList? asString?)
  let typeParameters ← withDefault fields "type_parameters" [] (asList? asString?)
  let properties ← withDefault fields "properties" [] (asList? PropertyDecl.ofJson?)
  let functions ← withDefault fields "functions" [] (asList? FunctionDecl.ofJson?)
  let serializableTypes ← withDefault fields "serializable_types" [] (asList? asString?)
  let location ← withDefault fields "location" .unknown Location.ofJson?
  return { name, kind, topLevel, supertypes, typeParameters, properties, functions,
           serializableTypes, location }

end ServiceDecl

end HttpService
