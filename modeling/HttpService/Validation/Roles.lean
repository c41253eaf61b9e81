import HttpService.Validation.TypeUse

/-!
# Roles of parameters

A parameter plays the one role that its mark names.  `bind` turns it into the binding of that
role, or gives everything that is wrong with it; a parameter with no role or with several has no
binding.
-/

namespace HttpService

inductive Binding
  | path (placeholder : String)
  | url
  | query (binding : ValueBinding)
  | header (binding : HeaderBinding)
  | field (binding : ValueBinding)
  | part (binding : PartBinding)
  | body (binding : BodyBinding)
  deriving DecidableEq, Repr

def defaultBodyType : String := "application/json"

def octetStream : String := "application/octet-stream"

def textPlain : String := "text/plain"

namespace ParameterDecl

/-- One value per element for a type with elements, otherwise a single one. -/
def listOrSingle (t : TypeExpr) : ValueMode :=
  if t.isIterable then .iterable else .single

/-- The name that a binding goes by, which is the parameter's own unless one is given. -/
def bindingName (p : ParameterDecl) (explicit : Option String) : String :=
  explicit.getD p.name

/-- A name that is given must not be empty. -/
def nameViolations (p : ParameterDecl) (role : Role) (explicit : Option String) :
    List Violation :=
  if explicit = some "" then [.emptyBindingName role.label p.name] else []

def mapViolations (p : ParameterDecl) (role : Role) : List Violation :=
  match p.type.mapShape? with
  | none => [.unsupportedMapType role.label p.name p.type.display]
  | some shape =>
    match shape.key with
    | none => []
    | some key =>
      if !key.isString then [.mapKeyNotString role.label p.name key.display]
      else if key.nullable then [.mapKeyNullable role.label p.name]
      else []

def mapKind (p : ParameterDecl) : TypeExpr.MapKind :=
  (p.type.mapShape?.map TypeExpr.MapShape.kind).getD .map

/-- What is wrong with a path parameter's type: it has to be a single value that is there. -/
def pathViolations (p : ParameterDecl) : List Violation :=
  (if p.type.nullable then [.pathParameterNullable p.name] else []) ++
    if p.type.isIterable || p.type.mapShape?.isSome || p.type.isByteStream then
      [.pathParameterNotScalar p.name p.type.display]
    else []

def urlViolations (p : ParameterDecl) : List Violation :=
  if !p.type.isString || p.type.nullable then [.urlParameterType p.name p.type.display] else []

end ParameterDecl

/-- A declared header name is a token and not the name of a content header. -/
def headerNameViolations (name : String) : List Violation :=
  match Lexical.checkHeaderName name with
  | .error reason => [.invalidHeaderName name reason]
  | .ok () => if Lexical.isContentHeader name then [.contentHeaderForbidden name] else []

/-- A declared content type is a media type. -/
def contentTypeViolations (contentType : String) : List Violation :=
  match Lexical.checkMediaType contentType with
  | .error reason => [.invalidContentType contentType reason]
  | .ok () => []

/-- The content type of a part that holds a value of the given type: raw bytes, a simple value,
or anything else. -/
def defaultPartType (t : TypeExpr) : String :=
  if t.isByteStream then octetStream
  else if t.family? = some .scalar then textPlain
  else defaultBodyType

namespace ParameterDecl

/-- A parameter in a role, and what is wrong with it there. -/
def lower (serializable : List String) (p : ParameterDecl) (role : Role) :
    Binding × List Violation :=
  let t := p.type
  let uses (position : Position) : List Violation := t.violations serializable position
  match role with
  | .path name =>
    (.path (p.bindingName name),
      p.nameViolations role name ++ p.pathViolations ++ uses .argument)
  | .url => (.url, p.urlViolations)
  | .query name =>
    (.query ⟨some (p.bindingName name), p.name, listOrSingle t⟩,
      p.nameViolations role name ++ uses .argument)
  | .queryMap =>
    (.query ⟨none, p.name, .map p.mapKind⟩, p.mapViolations role ++ uses .argument)
  | .header name =>
    (.header (.single name p.name t.isIterable), headerNameViolations name ++ uses .argument)
  | .headerMap => (.header (.map p.name p.mapKind), p.mapViolations role ++ uses .argument)
  | .field name =>
    (.field ⟨some (p.bindingName name), p.name, listOrSingle t⟩,
      p.nameViolations role name ++ uses .field)
  | .fieldMap => (.field ⟨none, p.name, .map p.mapKind⟩, p.mapViolations role ++ uses .field)
  | .part name contentType =>
    (.part ⟨some (p.bindingName name), p.name,
        contentType.getD (defaultPartType (t.element?.getD t)), listOrSingle t, t.isByteStream⟩,
      p.nameViolations role name ++ uses .part ++
        (contentType.map contentTypeViolations).getD [])
  | .partMap contentType =>
    let value := (t.mapShape?.bind TypeExpr.MapShape.value).getD (.named TypeExpr.stringName)
    (.part ⟨none, p.name, contentType.getD (defaultPartType value), .map p.mapKind, false⟩,
      p.mapViolations role ++ uses .part ++ (contentType.map contentTypeViolations).getD [])
  | .body contentType =>
    let contentType := contentType.getD defaultBodyType
    (.body ⟨p.name, contentType, t.isByteStream, t.nullable⟩,
      uses .body ++ contentTypeViolations contentType)

/-- The binding of a parameter, or everything that is wrong with it. -/
def bind (serializable : List String) (p : ParameterDecl) : Except (List Violation) Binding :=
  match p.roles with
  | [] => .error [.missingParameterRole p.name]
  | [role] =>
    match p.lower serializable role with
    | (binding, []) => .ok binding
    | (_, vs) => .error vs
  | roles =>
    .error [.multipleParameterRoles p.name (String.intercalate ", " (roles.map Role.label))]

end ParameterDecl

/-- The mark that a binding comes from. -/
def Binding.label : Binding → String
  | .path _ => "@Path"
  | .url => "@Url"
  | .query ⟨_, _, .map _⟩ => "@QueryMap"
  | .query _ => "@Query"
  | .header (.map ..) => "@HeaderMap"
  | .header _ => "@Header"
  | .field ⟨_, _, .map _⟩ => "@FieldMap"
  | .field _ => "@Field"
  | .part ⟨_, _, _, .map _, _⟩ => "@PartMap"
  | .part _ => "@Part"
  | .body _ => "@Body"

end HttpService
