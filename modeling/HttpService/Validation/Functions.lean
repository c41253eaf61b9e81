import HttpService.Validation.Roles
import HttpService.Template.Placeholder
import HttpService.Template.Traversal

/-!
# Checking a function

A function is checked in steps that do not depend on one another's success: its form, its marks,
its static headers, its parameters one by one, the source of its URL, its content, and its
result.  Every step gives what it makes of the declaration and everything that is wrong with it.
The function becomes an endpoint when nothing is wrong.  The pass that goes over a whole service
with one list of diagnostics takes the same steps (`FunctionDecl.check`).
-/

namespace HttpService

/-- What a function's marks say together. -/
structure Marks where
  httpCount : Nat
  method : Option Method
  path : Option String
  headersSeen : Bool
  headers : List String
  form : Bool
  multipart : Option String

namespace Marks

def none : Marks :=
  ⟨0, .none, .none, false, [], false, .none⟩

/-- The multipart subtype of a mark that gives none. -/
def defaultSubtype : String := "form-data"

/-- The method of a name: a standard one, or a token with the permission that the mark gives. -/
def method? (name : String) (hasBody : Option Bool) : Except Lexical.Flaw Method :=
  match Method.standard? name with
  | some m => .ok m
  | .none => (Lexical.checkToken name).map fun _ => .custom name (hasBody.getD false)

def readMethod (name : String) (hasBody : Option Bool) : Option Method × List Violation :=
  match method? name hasBody with
  | .ok m => (some m, [])
  | .error reason => (.none, [.invalidMethodToken name reason])

/-- A multipart subtype is a token. -/
def subtypeViolations (subtype : String) : List Violation :=
  match Lexical.checkToken subtype with
  | .ok () => []
  | .error reason => [.invalidMultipartSubtype subtype reason]

/-- What one more mark adds, and what is wrong with it.  Of several HTTP marks and of several
multipart marks only the first counts. -/
def add (m : Marks) (mark : FunctionMark) : Marks × List Violation :=
  let again (seen : Bool) : List Violation := if seen then [.duplicateMark mark.label] else []
  match mark with
  | .http method path hasBody =>
    if m.httpCount = 0 then
      let (method, vs) := readMethod method hasBody
      ({ m with httpCount := 1, method, path }, vs)
    else ({ m with httpCount := m.httpCount + 1 }, [])
  | .headers values =>
    ({ m with headersSeen := true, headers := m.headers ++ values }, again m.headersSeen)
  | .form => ({ m with form := true }, again m.form)
  | .multipart subtype =>
    if m.multipart.isSome then (m, again true)
    else
      let subtype := subtype.getD defaultSubtype
      ({ m with multipart := some subtype }, subtypeViolations subtype)

def addAll (m : Marks) : List FunctionMark → Marks × List Violation
  | [] => (m, [])
  | mark :: rest =>
    let (m, vs) := m.add mark
    let (m, ws) := m.addAll rest
    (m, vs ++ ws)

/-- There is exactly one HTTP mark. -/
def countViolations (m : Marks) (function : String) : List Violation :=
  match m.httpCount with
  | 0 => [.missingHttpMethod function]
  | 1 => []
  | _ => [.multipleHttpMethods function]

end Marks

namespace FunctionDecl

/-- A parameter with the binding of its role. -/
abbrev Bound := ParameterDecl × Binding

/-- Violations found at the function itself. -/
def here (f : FunctionDecl) (vs : List Violation) : List Diagnostic :=
  vs.map fun v => ⟨f.location, v⟩

def formViolations (f : FunctionDecl) : List Violation :=
  (if f.isSuspending then [] else [.notSuspending f.name]) ++
    (if f.hasDefaultBody then [.defaultBody f.name] else []) ++
    if f.typeParameters.isEmpty then [] else [.functionTypeParameters f.name]

/-- What the function's marks say together, and what is wrong with them. -/
def readMarks (f : FunctionDecl) : Marks × List Violation :=
  let (m, vs) := Marks.none.addAll f.marks
  (m, vs ++ m.countViolations f.name)

/-! ## Static headers -/

def headerValue (cs : List Char) : String :=
  String.ofList (Text.trimBy (fun c => c == ' ' || c == '\t') cs)

/-- A header that is written out: a name and a value with a colon between them. -/
def staticHeader (text : String) : Option HeaderBinding × List Violation :=
  match Text.cut (· == ':') text.toList with
  | none => (none, [.malformedStaticHeader text])
  | some (name, value) =>
    let name := String.ofList name
    let value := headerValue value
    (some (.static name value), headerNameViolations name ++
      match Lexical.checkHeaderValue value with
      | .ok () => []
      | .error reason => [.invalidHeaderValue name reason])

def staticHeaders (texts : List String) : List HeaderBinding × List Violation :=
  let hs := texts.map staticHeader
  (hs.filterMap Prod.fst, hs.flatMap Prod.snd)

/-! ## Parameters -/

def bound (serializable : List String) (f : FunctionDecl) : List Bound :=
  f.parameters.filterMap fun p => (p.bind serializable).toOption.map fun b => (p, b)

def parameterDiagnostics (serializable : List String) (f : FunctionDecl) : List Diagnostic :=
  f.parameters.flatMap fun p =>
    match p.bind serializable with
    | .ok _ => []
    | .error vs => vs.map fun v => ⟨p.location, v⟩

/-- The parameters that fill placeholders, with the names of these. -/
def pathBindings (bound : List Bound) : List (ParameterDecl × String) :=
  bound.filterMap fun (p, b) => match b with
    | .path placeholder => some (p, placeholder)
    | _ => none

def urlParameters (bound : List Bound) : List ParameterDecl :=
  bound.filterMap fun (p, b) => match b with
    | .url => some p
    | _ => none

def queryBindings (bound : List Bound) : List ValueBinding :=
  bound.filterMap fun (_, b) => match b with
    | .query q => some q
    | _ => none

def headerBindings (bound : List Bound) : List HeaderBinding :=
  bound.filterMap fun (_, b) => match b with
    | .header h => some h
    | _ => none

def bodyBindings (bound : List Bound) : List BodyBinding :=
  bound.filterMap fun (_, b) => match b with
    | .body c => some c
    | _ => none

def fieldBindings (bound : List Bound) : List ValueBinding :=
  bound.filterMap fun (_, b) => match b with
    | .field c => some c
    | _ => none

def partBindings (bound : List Bound) : List PartBinding :=
  bound.filterMap fun (_, b) => match b with
    | .part c => some c
    | _ => none

/-! ## The source of the URL -/

/-- The schemes that a call can use. -/
def isWebScheme (scheme : String) : Bool :=
  Lexical.sameIgnoringCase scheme "http" || Lexical.sameIgnoringCase scheme "https"

/-- A full template has a scheme that a call can use. -/
def schemeViolations (template : String) : List Violation :=
  if Template.classify template = .full then
    let scheme := (Template.scheme? template).getD ""
    if isWebScheme scheme then [] else [.unsupportedScheme scheme]
  else []

/-- The names that stand at least twice, each once, in the order of their second occurrence. -/
def repeated : List String → List String → List String → List String
  | _, _, [] => []
  | seen, told, n :: rest =>
    if !seen.contains n then repeated (n :: seen) told rest
    else if told.contains n then repeated seen told rest
    else n :: repeated seen (n :: told) rest

/-- The names without repetition, in the order of their first occurrence. -/
def distinct : List String → List String → List String
  | _, [] => []
  | seen, n :: rest =>
    if seen.contains n then distinct seen rest else n :: distinct (n :: seen) rest

/-- What is wrong with path parameters, given the names of the placeholders: each has a
placeholder, and no two have the same one. -/
def pathBindingDiagnostics (names : List String) :
    List String → List (ParameterDecl × String) → List Diagnostic
  | _, [] => []
  | seen, (p, placeholder) :: rest =>
    if !names.contains placeholder then
      ⟨p.location, .parameterWithoutPlaceholder p.name⟩ :: pathBindingDiagnostics names seen rest
    else if seen.contains placeholder then
      ⟨p.location, .duplicatePathBinding placeholder⟩ :: pathBindingDiagnostics names seen rest
    else pathBindingDiagnostics names (placeholder :: seen) rest

def templateDiagnostics (f : FunctionDecl) (template : String)
    (paths : List (ParameterDecl × String)) : List Diagnostic :=
  let parts := Template.split template.toList
  let names := Template.names parts.path
  let boundNames := paths.map Prod.snd
  f.here (schemeViolations template ++
    (Template.traversalSegment? parts.path).toList.map
      (fun s => .traversalInTemplate (String.ofList s)) ++
    (Template.scan parts.path).malformed.map .malformedPlaceholder ++
    ((parts.query.toList ++ parts.fragment.toList).flatMap Template.names).map
      .placeholderOutsidePath ++
    (repeated [] [] names).map .duplicatePlaceholder ++
    ((distinct [] names).filter fun n => !boundNames.contains n).map
      .placeholderWithoutParameter) ++
    pathBindingDiagnostics names [] paths

/-- The source of the function's URL, and what is wrong with it: a path or a parameter, and not
both. -/
def checkUrl (f : FunctionDecl) (path : Option String) (bound : List Bound) :
    Option UrlSource × List Diagnostic :=
  let urls := urlParameters bound
  let paths := pathBindings bound
  let queries := queryBindings bound
  let several := f.here (if 1 < urls.length then [.multipleUrlParameters f.name] else [])
  match path, urls.head? with
  | none, none => (none, several ++ f.here [.missingUrl f.name])
  | some _, some _ => (none, several ++ f.here [.conflictingUrl f.name])
  | none, some p =>
    (some (.dynamic p.name queries),
      several ++ paths.map fun (q, _) => ⟨q.location, .pathWithDynamicUrl q.name⟩)
  | some template, none =>
    (some (.template template (Template.classify template)
        (paths.map fun (p, placeholder) => ⟨placeholder, p.name⟩) queries),
      several ++ f.templateDiagnostics template paths)

/-! ## Content -/

/-- A field needs a form, and a part needs a multipart content. -/
def orphanDiagnostics (marks : Marks) (bound : List Bound) : List Diagnostic :=
  bound.filterMap fun (p, b) => match b with
    | .field _ =>
      if marks.form then none else some ⟨p.location, .fieldWithoutForm b.label p.name⟩
    | .part _ =>
      if marks.multipart.isSome then none
      else some ⟨p.location, .partWithoutMultipart b.label p.name⟩
    | _ => none

/-- What is wrong with the combination of body, form and multipart content. -/
def contentViolations (f : FunctionDecl) (marks : Marks) (bound : List Bound) : List Violation :=
  let bodies := bodyBindings bound
  let hasBody := !bodies.isEmpty
  let hasParts := marks.multipart.isSome
  let given (b : Bool) (v : Violation) : List Violation := if b then [v] else []
  given (1 < bodies.length) (.multipleBodies f.name) ++
    given (marks.form && hasParts) .formAndMultipart ++
    given (hasBody && marks.form) (.bodyWithForm FunctionMark.form.label) ++
    given (hasBody && hasParts) (.bodyWithForm (FunctionMark.multipart none).label) ++
    given (marks.form && (fieldBindings bound).isEmpty) .emptyForm ++
    given (hasParts && (partBindings bound).isEmpty) .emptyMultipart ++
    match marks.method with
    | none => []
    | some method =>
      if method.permitsBody then []
      else
        given hasBody (.bodyNotAllowed (Role.body none).label method.token) ++
          given marks.form (.bodyNotAllowed FunctionMark.form.label method.token) ++
          given hasParts (.bodyNotAllowed (FunctionMark.multipart none).label method.token)

def content? (marks : Marks) (bound : List Bound) : Option ContentBinding :=
  match bodyBindings bound with
  | b :: _ => some (.body b)
  | [] =>
    if marks.form then some (.form (fieldBindings bound))
    else marks.multipart.map fun subtype => .multipart subtype (partBindings bound)

/-! ## The whole function -/

/-- The source of the URL and what is wrong with it; without an HTTP mark there is no path to
check against. -/
def urlStep (f : FunctionDecl) (marks : Marks) (bound : List Bound) :
    Option UrlSource × List Diagnostic :=
  if marks.httpCount = 0 then (none, []) else f.checkUrl marks.path bound

/-- Everything that is wrong with a function of a service with the given serializable types. -/
def diagnostics (serializable : List String) (f : FunctionDecl) : List Diagnostic :=
  let (marks, markViolations) := f.readMarks
  let bound := f.bound serializable
  f.here f.formViolations ++ f.here markViolations ++
    f.here (staticHeaders marks.headers).2 ++
    f.parameterDiagnostics serializable ++
    (f.urlStep marks bound).2 ++
    orphanDiagnostics marks bound ++ f.here (f.contentViolations marks bound) ++
    f.here (f.returnType.checkReturn serializable (marks.method.getD .get)).2

def endpoint? (serializable : List String) (f : FunctionDecl) : Option Endpoint :=
  let (marks, _) := f.readMarks
  let bound := f.bound serializable
  if f.diagnostics serializable = [] then do
    let method ← marks.method
    let url ← (f.urlStep marks bound).1
    return {
      name := f.name
      parameters := f.parameters.map fun p => ⟨p.name, p.type⟩
      method
      url
      headers := (staticHeaders marks.headers).1 ++ headerBindings bound
      content := content? marks bound
      returns := (f.returnType.checkReturn serializable method).1 }
  else none

end FunctionDecl

end HttpService
