import HttpService.Validation.Check
import HttpService.Validation.Functions

/-!
# One pass over a declaration

The checks of types, parameters, functions and services in the order in which they report.  There
is one list of diagnostics for the whole service; a parameter, a function and the declared type
itself each take a mark in it, and give their binding, their endpoint or their consent only when
nothing was reported behind that mark.

What each check finds is told on its own in the lists of violations beside it; that the pass
reports those lists and nothing else is shown with the theory of the library.
-/

namespace HttpService

open Check (report reportIf reportAll watch)

/-! ## Types -/

namespace TypeExpr

/-- A type that is neither built in nor serializable, where it would have to be serialized. -/
def checkName (serializable : List String) (location : Location) (position : Position)
    (name : String) : Check Unit :=
  match position.context? with
  | some context =>
    reportIf (!serializable.contains name) location (.notSerializable name context)
  | none => return ()

/-- A node of a type below a root, and whether its arguments are looked into. -/
def checkNode (serializable : List String) (location : Location) (root : TypeExpr)
    (position : Position) (top : Bool) (t : TypeExpr) : Check Bool :=
  if t.isStar then do
    report location (.wildcardNotAllowed root.display)
    return false
  else
    match t.family? with
    | some .result => do
      report location (.resultNotAllowed root.display)
      return false
    | some family =>
      if family = .byteStream && !(top && position.allowsByteStream) then do
        report location (.byteStreamNotAllowed root.display)
        return false
      else do
        reportIf (family.arity ≠ t.arguments.length) location
          (.typeArity t.name family.arity t.arguments.length)
        return true
    | none => do
      checkName serializable location position t.name
      return true

mutual

def checkTree (serializable : List String) (location : Location) (root : TypeExpr)
    (position : Position) (top : Bool) : TypeExpr → Check Unit
  | mk n b as => do
    let deeper ← checkNode serializable location root position top (mk n b as)
    if deeper then checkTrees serializable location root position as else return ()

def checkTrees (serializable : List String) (location : Location) (root : TypeExpr)
    (position : Position) : List TypeExpr → Check Unit
  | [] => return ()
  | t :: rest => do
    checkTree serializable location root position false t
    checkTrees serializable location root position rest

end

/-- A type in a position, and whether nothing is wrong with it there. -/
def check (serializable : List String) (location : Location) (position : Position)
    (t : TypeExpr) : Check Bool := do
  let ((), found) ← watch (checkTree serializable location t position true t)
  return !found

def checkShape (serializable : List String) (location : Location) (t : TypeExpr) :
    Check ReturnShape :=
  if t.family? = some .result then
    match t.arguments with
    | [argument] =>
      if argument.isStar then return .discarded
      else do
        checkTree serializable location t .return true argument
        return .wrapped argument
    | arguments => do
      report location (.typeArity t.name 1 arguments.length)
      return .plain t
  else do
    checkTree serializable location t .return true t
    return .plain t

def checkResult (serializable : List String) (location : Location) (method : Method)
    (t : TypeExpr) : Check ReturnShape := do
  let shape ← t.checkShape serializable location
  reportIf (method = .head ∧ !shape.isBodyless) location (.headReturnType t.display)
  return shape

end TypeExpr

/-! ## Parameters -/

/-- A declared header name, which is a token and not the name of a content header. -/
def checkHeaderName (location : Location) (name : String) : Check Unit :=
  match Lexical.checkHeaderName name with
  | .error reason => report location (.invalidHeaderName name reason)
  | .ok () => reportIf (Lexical.isContentHeader name) location (.contentHeaderForbidden name)

def checkContentType (location : Location) (contentType : String) : Check Unit :=
  match Lexical.checkMediaType contentType with
  | .error reason => report location (.invalidContentType contentType reason)
  | .ok () => return ()

/-- The content type of a part: the one that is given, or the one of the type of its value. -/
def checkPartType (location : Location) (explicit : Option String) (value : TypeExpr) :
    Check String :=
  match explicit with
  | some contentType => do
    checkContentType location contentType
    return contentType
  | none => return defaultPartType value

namespace ParameterDecl

def checkBindingName (p : ParameterDecl) (role : Role) (explicit : Option String) :
    Check String :=
  match explicit with
  | some name => do
    reportIf (name = "") p.location (.emptyBindingName role.label p.name)
    return name
  | none => return p.name

/-- The keys of a map, if its type says what they are. -/
def checkKey (p : ParameterDecl) (role : Role) (key : Option TypeExpr) : Check Unit :=
  match key with
  | none => return ()
  | some key =>
    if !key.isString then report p.location (.mapKeyNotString role.label p.name key.display)
    else reportIf key.nullable p.location (.mapKeyNullable role.label p.name)

def checkMap (p : ParameterDecl) (role : Role) : Check TypeExpr.MapKind :=
  match p.type.mapShape? with
  | none => do
    report p.location (.unsupportedMapType role.label p.name p.type.display)
    return .map
  | some shape => do
    p.checkKey role shape.key
    return shape.kind

def checkType (serializable : List String) (p : ParameterDecl) (position : Position) :
    Check Bool :=
  p.type.check serializable p.location position

def checkRole (serializable : List String) (p : ParameterDecl) (role : Role) : Check Binding :=
  let t := p.type
  match role with
  | .path name => do
    let placeholder ← p.checkBindingName role name
    reportIf t.nullable p.location (.pathParameterNullable p.name)
    reportIf (t.isIterable || t.mapShape?.isSome || t.isByteStream) p.location
      (.pathParameterNotScalar p.name t.display)
    let _ ← p.checkType serializable .argument
    return .path placeholder
  | .url => do
    reportIf (!t.isString || t.nullable) p.location (.urlParameterType p.name t.display)
    return .url
  | .query name => do
    let name ← p.checkBindingName role name
    let _ ← p.checkType serializable .argument
    return .query ⟨some name, p.name, listOrSingle t⟩
  | .queryMap => do
    let kind ← p.checkMap role
    let _ ← p.checkType serializable .argument
    return .query ⟨none, p.name, .map kind⟩
  | .header name => do
    checkHeaderName p.location name
    let _ ← p.checkType serializable .argument
    return .header (.single name p.name t.isIterable)
  | .headerMap => do
    let kind ← p.checkMap role
    let _ ← p.checkType serializable .argument
    return .header (.map p.name kind)
  | .field name => do
    let name ← p.checkBindingName role name
    let _ ← p.checkType serializable .field
    return .field ⟨some name, p.name, listOrSingle t⟩
  | .fieldMap => do
    let kind ← p.checkMap role
    let _ ← p.checkType serializable .field
    return .field ⟨none, p.name, .map kind⟩
  | .part name contentType => do
    let name ← p.checkBindingName role name
    let _ ← p.checkType serializable .part
    let contentType ← checkPartType p.location contentType (t.element?.getD t)
    return .part ⟨some name, p.name, contentType, listOrSingle t, t.isByteStream⟩
  | .partMap contentType => do
    let kind ← p.checkMap role
    let _ ← p.checkType serializable .part
    let value := (t.mapShape?.bind TypeExpr.MapShape.value).getD (.named TypeExpr.stringName)
    let contentType ← checkPartType p.location contentType value
    return .part ⟨none, p.name, contentType, .map kind, false⟩
  | .body contentType => do
    let _ ← p.checkType serializable .body
    let contentType := contentType.getD defaultBodyType
    checkContentType p.location contentType
    return .body ⟨p.name, contentType, t.isByteStream, t.nullable⟩

/-- The binding of a parameter, if nothing is reported of it. -/
def check (serializable : List String) (p : ParameterDecl) : Check (Option Binding) :=
  match p.roles with
  | [] => do
    report p.location (.missingParameterRole p.name)
    return none
  | [role] => do
    let (binding, found) ← watch (p.checkRole serializable role)
    return if found then none else some binding
  | roles => do
    report p.location
      (.multipleParameterRoles p.name (String.intercalate ", " (roles.map Role.label)))
    return none

end ParameterDecl

/-! ## Marks -/

namespace Marks

def checkMethod (location : Location) (name : String) (hasBody : Option Bool) :
    Check (Option Method) :=
  match method? name hasBody with
  | .ok method => return some method
  | .error reason => do
    report location (.invalidMethodToken name reason)
    return .none

def checkSubtype (location : Location) (subtype : String) : Check Unit :=
  match Lexical.checkToken subtype with
  | .ok () => return ()
  | .error reason => report location (.invalidMultipartSubtype subtype reason)

def checkMark (location : Location) (m : Marks) (mark : FunctionMark) : Check Marks :=
  match mark with
  | .http method path hasBody =>
    if m.httpCount = 0 then do
      let method ← checkMethod location method hasBody
      return { m with httpCount := 1, method, path }
    else return { m with httpCount := m.httpCount + 1 }
  | .headers values => do
    reportIf m.headersSeen location (.duplicateMark mark.label)
    return { m with headersSeen := true, headers := m.headers ++ values }
  | .form => do
    reportIf m.form location (.duplicateMark mark.label)
    return { m with form := true }
  | .multipart subtype =>
    if m.multipart.isSome then do
      report location (.duplicateMark mark.label)
      return m
    else do
      let subtype := subtype.getD defaultSubtype
      checkSubtype location subtype
      return { m with multipart := some subtype }

def checkMarks (location : Location) (m : Marks) : List FunctionMark → Check Marks
  | [] => return m
  | mark :: rest => do
    let m ← m.checkMark location mark
    m.checkMarks location rest

def checkCount (location : Location) (m : Marks) (function : String) : Check Unit :=
  match m.httpCount with
  | 0 => report location (.missingHttpMethod function)
  | 1 => return ()
  | _ => report location (.multipleHttpMethods function)

end Marks

namespace FunctionDecl

def checkMarks (f : FunctionDecl) : Check Marks := do
  let marks ← Marks.none.checkMarks f.location f.marks
  marks.checkCount f.location f.name
  return marks

/-! ## Headers and parameters of a function -/

def checkHeaderValue (location : Location) (name value : String) : Check Unit :=
  match Lexical.checkHeaderValue value with
  | .ok () => return ()
  | .error reason => report location (.invalidHeaderValue name reason)

/-- The headers that are written out; one without a colon is left out. -/
def checkHeaders (location : Location) : List String → Check (List HeaderBinding)
  | [] => return []
  | text :: rest =>
    match Text.cut (· == ':') text.toList with
    | none => do
      report location (.malformedStaticHeader text)
      checkHeaders location rest
    | some (name, value) => do
      let name := String.ofList name
      let value := headerValue value
      checkHeaderName location name
      checkHeaderValue location name value
      let headers ← checkHeaders location rest
      return .static name value :: headers

def checkParameters (serializable : List String) : List ParameterDecl → Check (List Bound)
  | [] => return []
  | p :: rest => do
    let binding ← p.check serializable
    let bound ← checkParameters serializable rest
    return match binding with
      | some b => (p, b) :: bound
      | none => bound

/-! ## The source of the URL -/

def checkScheme (f : FunctionDecl) (template : String) : Check Unit :=
  if Template.classify template = .full then
    let scheme := (Template.scheme? template).getD ""
    reportIf (!isWebScheme scheme) f.location (.unsupportedScheme scheme)
  else return ()

def checkTraversal (f : FunctionDecl) (path : List Char) : Check Unit :=
  match Template.traversalSegment? path with
  | some segment => report f.location (.traversalInTemplate (String.ofList segment))
  | none => return ()

/-- The names of placeholders, each once; one that comes again is reported the second time. -/
def checkNames (f : FunctionDecl) : List String → List String → List String →
    Check (List String)
  | _, _, [] => return []
  | seen, told, n :: rest =>
    if !seen.contains n then do
      let names ← f.checkNames (n :: seen) told rest
      return n :: names
    else if told.contains n then f.checkNames seen told rest
    else do
      report f.location (.duplicatePlaceholder n)
      f.checkNames seen (n :: told) rest

/-- Names of which each should be bound. -/
def checkBound (f : FunctionDecl) (bound : List String) : List String → Check Unit
  | [] => return ()
  | n :: rest => do
    reportIf (!bound.contains n) f.location (.placeholderWithoutParameter n)
    f.checkBound bound rest

/-- The path parameters, given the names of the placeholders and those already filled. -/
def checkPaths (names : List String) :
    List String → List (ParameterDecl × String) → Check (List PathBinding)
  | _, [] => return []
  | seen, (p, placeholder) :: rest =>
    if !names.contains placeholder then do
      report p.location (.parameterWithoutPlaceholder p.name)
      let bindings ← checkPaths names seen rest
      return ⟨placeholder, p.name⟩ :: bindings
    else if seen.contains placeholder then do
      report p.location (.duplicatePathBinding placeholder)
      let bindings ← checkPaths names seen rest
      return ⟨placeholder, p.name⟩ :: bindings
    else do
      let bindings ← checkPaths names (placeholder :: seen) rest
      return ⟨placeholder, p.name⟩ :: bindings

def checkTemplate (f : FunctionDecl) (template : String)
    (paths : List (ParameterDecl × String)) : Check (List PathBinding) := do
  let parts := Template.split template.toList
  f.checkScheme template
  f.checkTraversal parts.path
  reportAll f.location ((Template.scan parts.path).malformed.map .malformedPlaceholder)
  reportAll f.location (((parts.query.toList ++ parts.fragment.toList).flatMap Template.names).map
    .placeholderOutsidePath)
  let names ← f.checkNames [] [] (Template.names parts.path)
  f.checkBound (paths.map Prod.snd) names
  checkPaths names [] paths

/-- Parameters that fill placeholders, where there is no template. -/
def checkNoPaths : List (ParameterDecl × String) → Check Unit
  | [] => return ()
  | (p, _) :: rest => do
    report p.location (.pathWithDynamicUrl p.name)
    checkNoPaths rest

/-- The source of the URL: a path or a parameter, and not both. -/
def checkSource (f : FunctionDecl) (path : Option String) (bound : List Bound) :
    Check (Option UrlSource) := do
  let urls := urlParameters bound
  let paths := pathBindings bound
  let queries := queryBindings bound
  reportIf (1 < urls.length) f.location (.multipleUrlParameters f.name)
  match path, urls.head? with
  | none, none => do
    report f.location (.missingUrl f.name)
    return none
  | some _, some _ => do
    report f.location (.conflictingUrl f.name)
    return none
  | none, some p => do
    checkNoPaths paths
    return some (.dynamic p.name queries)
  | some template, none => do
    let bindings ← f.checkTemplate template paths
    return some (.template template (Template.classify template) bindings queries)

/-! ## Content -/

structure Contents where
  bodies : List BodyBinding
  fields : List ValueBinding
  parts : List PartBinding

/-- The contents of the parameters; a field needs a form, and a part a multipart content. -/
def checkContents (marks : Marks) : List Bound → Check Contents
  | [] => return ⟨[], [], []⟩
  | (_, .body b) :: rest => do
    let more ← checkContents marks rest
    return { more with bodies := b :: more.bodies }
  | (p, .field b) :: rest => do
    reportIf (!marks.form) p.location (.fieldWithoutForm (Binding.field b).label p.name)
    let more ← checkContents marks rest
    return { more with fields := b :: more.fields }
  | (p, .part b) :: rest => do
    reportIf (!marks.multipart.isSome) p.location
      (.partWithoutMultipart (Binding.part b).label p.name)
    let more ← checkContents marks rest
    return { more with parts := b :: more.parts }
  | _ :: rest => checkContents marks rest

def checkPermitted (f : FunctionDecl) (marks : Marks) (contents : Contents) : Check Unit :=
  match marks.method with
  | none => return ()
  | some method =>
    if method.permitsBody then return ()
    else do
      reportIf (!contents.bodies.isEmpty) f.location
        (.bodyNotAllowed (Role.body none).label method.token)
      reportIf marks.form f.location (.bodyNotAllowed FunctionMark.form.label method.token)
      reportIf marks.multipart.isSome f.location
        (.bodyNotAllowed (FunctionMark.multipart none).label method.token)

def checkContent (f : FunctionDecl) (marks : Marks) (bound : List Bound) :
    Check (Option ContentBinding) := do
  let contents ← checkContents marks bound
  let hasBody := !contents.bodies.isEmpty
  let hasParts := marks.multipart.isSome
  reportIf (1 < contents.bodies.length) f.location (.multipleBodies f.name)
  reportIf (marks.form && hasParts) f.location .formAndMultipart
  reportIf (hasBody && marks.form) f.location (.bodyWithForm FunctionMark.form.label)
  reportIf (hasBody && hasParts) f.location (.bodyWithForm (FunctionMark.multipart none).label)
  reportIf (marks.form && contents.fields.isEmpty) f.location .emptyForm
  reportIf (hasParts && contents.parts.isEmpty) f.location .emptyMultipart
  f.checkPermitted marks contents
  return match contents.bodies with
    | b :: _ => some (.body b)
    | [] =>
      if marks.form then some (.form contents.fields)
      else marks.multipart.map fun subtype => .multipart subtype contents.parts

/-! ## Functions -/

/-- What the steps of a function's check make of it. -/
structure Steps where
  marks : Marks
  headers : List HeaderBinding
  bound : List Bound
  url : Option UrlSource
  content : Option ContentBinding
  returns : ReturnShape

/-- The source of the URL, unless there is no HTTP mark and so no path to check against. -/
def checkUrlStep (f : FunctionDecl) (marks : Marks) (bound : List Bound) :
    Check (Option UrlSource) :=
  if marks.httpCount = 0 then return none else f.checkSource marks.path bound

/-- All steps of a function's check, none of which waits for another's success. -/
def checkSteps (serializable : List String) (f : FunctionDecl) : Check Steps := do
  reportIf (!f.isSuspending) f.location (.notSuspending f.name)
  reportIf f.hasDefaultBody f.location (.defaultBody f.name)
  reportIf (!f.typeParameters.isEmpty) f.location (.functionTypeParameters f.name)
  let marks ← f.checkMarks
  let headers ← checkHeaders f.location marks.headers
  let bound ← checkParameters serializable f.parameters
  let url ← f.checkUrlStep marks bound
  let content ← f.checkContent marks bound
  let returns ← f.returnType.checkResult serializable f.location (marks.method.getD .get)
  return { marks, headers, bound, url, content, returns }

/-- The endpoint that the steps of a function's check come to. -/
def Steps.endpoint? (f : FunctionDecl) (steps : Steps) : Option Endpoint := do
  let method ← steps.marks.method
  let url ← steps.url
  return {
    name := f.name
    parameters := f.parameters.map fun p => ⟨p.name, p.type⟩
    method
    url
    headers := steps.headers ++ headerBindings steps.bound
    content := steps.content
    returns := steps.returns }

/-- The endpoint of a function, if nothing is reported of it. -/
def check (serializable : List String) (f : FunctionDecl) : Check (Option Endpoint) := do
  let (steps, found) ← watch (f.checkSteps serializable)
  return if found then none else steps.endpoint? f

end FunctionDecl

/-! ## Services -/

namespace ServiceDecl

def checkProperties : List PropertyDecl → Check Unit
  | [] => return ()
  | p :: rest => do
    report p.location (.serviceProperty p.name)
    checkProperties rest

/-- The declared type itself, apart from its functions. -/
def checkDeclared (s : ServiceDecl) : Check Unit := do
  reportIf (s.kind != .interface) s.location (.notAnInterface s.name s.kind.display)
  reportIf (!s.topLevel) s.location (.notTopLevel s.name)
  reportIf (!s.supertypes.isEmpty) s.location
    (.hasSupertypes s.name (String.intercalate ", " s.supertypes))
  reportIf (!s.typeParameters.isEmpty) s.location (.serviceTypeParameters s.name)
  checkProperties s.properties

/-- Whether the declared type itself is acceptable, whatever its functions are. -/
def checkOwn (s : ServiceDecl) : Check Bool := do
  let ((), found) ← watch s.checkDeclared
  return !found

/-- The endpoints of the functions of which nothing is reported. -/
def checkFunctions (serializable : List String) : List FunctionDecl → Check (List Endpoint)
  | [] => return []
  | f :: rest => do
    let endpoint ← f.check serializable
    let endpoints ← checkFunctions serializable rest
    return match endpoint with
      | some e => e :: endpoints
      | none => endpoints

/-- The service with every function that is valid, unless the declared type itself is not. -/
def check (s : ServiceDecl) : Check (Option Service) := do
  let accepted ← s.checkOwn
  let endpoints ← checkFunctions s.serializableTypes s.functions
  return if accepted then some ⟨s.name ++ "Client", s.name, endpoints⟩ else none

end ServiceDecl

end HttpService
