import HttpService.Declaration.Basic
import HttpService.Lexical

/-!
# Diagnostics

The rules that a declaration can break, one constructor for each, with what its message shows.  A
diagnostic is a violation together with the place of the declaration it was found in.
-/

namespace HttpService

/-- Where a type that cannot be serialized is used. -/
inductive TypeContext
  | body
  | part
  | field
  | return
  deriving DecidableEq, Repr

def TypeContext.display : TypeContext → String
  | .body => "body"
  | .part => "part"
  | .field => "field"
  | .return => "return"

inductive Violation
  -- the service
  | notAnInterface (name found : String)
  | notTopLevel (name : String)
  | hasSupertypes (name supertypes : String)
  | serviceTypeParameters (name : String)
  | serviceProperty (name : String)
  -- the form of a function
  | missingHttpMethod (function : String)
  | multipleHttpMethods (function : String)
  | notSuspending (function : String)
  | defaultBody (function : String)
  | functionTypeParameters (function : String)
  | invalidMethodToken (method : String) (reason : Lexical.Flaw)
  | duplicateMark (label : String)
  -- the source of the URL
  | missingUrl (function : String)
  | conflictingUrl (function : String)
  | multipleUrlParameters (function : String)
  | urlParameterType (name found : String)
  | unsupportedScheme (scheme : String)
  | traversalInTemplate (segment : String)
  -- placeholders
  | placeholderWithoutParameter (placeholder : String)
  | parameterWithoutPlaceholder (parameter : String)
  | duplicatePlaceholder (placeholder : String)
  | duplicatePathBinding (placeholder : String)
  | malformedPlaceholder (text : String)
  | placeholderOutsidePath (placeholder : String)
  | pathWithDynamicUrl (parameter : String)
  | pathParameterNullable (parameter : String)
  | pathParameterNotScalar (name found : String)
  -- parameters
  | missingParameterRole (parameter : String)
  | multipleParameterRoles (name roles : String)
  | emptyBindingName (label parameter : String)
  -- content
  | multipleBodies (function : String)
  | bodyNotAllowed (label method : String)
  | formAndMultipart
  | bodyWithForm (label : String)
  | emptyForm
  | emptyMultipart
  | fieldWithoutForm (label parameter : String)
  | partWithoutMultipart (label parameter : String)
  | invalidMultipartSubtype (subtype : String) (reason : Lexical.Flaw)
  | invalidContentType (contentType : String) (reason : Lexical.Flaw)
  -- maps
  | unsupportedMapType (label parameter found : String)
  | mapKeyNotString (label parameter found : String)
  | mapKeyNullable (label parameter : String)
  -- headers
  | contentHeaderForbidden (name : String)
  | malformedStaticHeader (text : String)
  | invalidHeaderName (name : String) (reason : Lexical.Flaw)
  | invalidHeaderValue (name : String) (reason : Lexical.Flaw)
  -- types
  | notSerializable (type : String) (context : TypeContext)
  | byteStreamNotAllowed (type : String)
  | wildcardNotAllowed (type : String)
  | resultNotAllowed (type : String)
  | typeArity (type : String) (expected found : Nat)
  | headReturnType (type : String)
  deriving DecidableEq, Repr

namespace Violation

open Text (quoted)

/-- A name in braces, as a placeholder is written. -/
def inBraces (name : String) : String :=
  "\x7b" ++ name ++ "\x7d"

def message : Violation → String
  | notAnInterface name found => s!"service {name} must be an interface, found {found}"
  | notTopLevel name => s!"service {name} must be a top-level declaration"
  | hasSupertypes name supertypes =>
    s!"service {name} must not extend other types, found {supertypes}"
  | serviceTypeParameters name => s!"service {name} must not declare type parameters"
  | serviceProperty name => s!"service must not declare properties, found {name}"
  | missingHttpMethod f => s!"function {f} has no HTTP method annotation"
  | multipleHttpMethods f => s!"function {f} has more than one HTTP method annotation"
  | notSuspending f => s!"function {f} must be a suspending function"
  | defaultBody f => s!"function {f} must not have a default implementation"
  | functionTypeParameters f => s!"function {f} must not declare type parameters"
  | invalidMethodToken method reason =>
    "HTTP method " ++ quoted method ++ " is not a valid token: " ++ reason.message
  | duplicateMark label => s!"{label} may appear at most once per function"
  | missingUrl f =>
    s!"function {f} needs either a path on its HTTP annotation or a @Url parameter"
  | conflictingUrl f => s!"function {f} declares both a path and a @Url parameter"
  | multipleUrlParameters f => s!"function {f} declares more than one @Url parameter"
  | urlParameterType name found => s!"@Url parameter {name} must be of type String, found {found}"
  | unsupportedScheme scheme =>
    "URL scheme " ++ quoted scheme ++ " is not supported; use http or https"
  | traversalInTemplate segment =>
    "URL template must not contain the path segment " ++ quoted segment
  | placeholderWithoutParameter p =>
    "placeholder " ++ inBraces p ++ " has no matching @Path parameter"
  | parameterWithoutPlaceholder p =>
    s!"@Path parameter {p} does not match any placeholder in the URL template"
  | duplicatePlaceholder p =>
    "placeholder " ++ inBraces p ++ " appears more than once in the URL template"
  | duplicatePathBinding p =>
    "placeholder " ++ inBraces p ++ " is bound by more than one @Path parameter"
  | malformedPlaceholder text =>
    "malformed placeholder " ++ quoted text ++ "; names must match [a-zA-Z][a-zA-Z0-9_-]*"
  | placeholderOutsidePath p =>
    "placeholder " ++ inBraces p ++ " may only appear in the path, not the query or fragment"
  | pathWithDynamicUrl p => s!"@Path parameter {p} cannot be used with a @Url parameter"
  | pathParameterNullable p => s!"@Path parameter {p} must not be nullable"
  | pathParameterNotScalar name found =>
    s!"@Path parameter {name} must be a single value, found {found}"
  | missingParameterRole p => s!"parameter {p} has no role annotation"
  | multipleParameterRoles name roles =>
    s!"parameter {name} has more than one role annotation: {roles}"
  | emptyBindingName label p => s!"{label} name on parameter {p} must not be empty"
  | multipleBodies f => s!"function {f} has more than one @Body parameter"
  | bodyNotAllowed label method => s!"{label} is not allowed on a {method} request"
  | formAndMultipart => "@FormUrlEncoded and @Multipart are mutually exclusive"
  | bodyWithForm label => s!"@Body cannot be combined with {label}"
  | emptyForm => "@FormUrlEncoded requires at least one @Field or @FieldMap parameter"
  | emptyMultipart => "@Multipart requires at least one @Part or @PartMap parameter"
  | fieldWithoutForm label p => s!"{label} parameter {p} requires @FormUrlEncoded"
  | partWithoutMultipart label p => s!"{label} parameter {p} requires @Multipart"
  | invalidMultipartSubtype subtype reason =>
    "multipart subtype " ++ quoted subtype ++ " is not a valid token: " ++ reason.message
  | invalidContentType contentType reason =>
    "content type " ++ quoted contentType ++ " is invalid: " ++ reason.message
  | unsupportedMapType label p found =>
    s!"{label} parameter {p} must be Map<String, V>, " ++
      s!"List<Pair<String, V>> or MultiValueMap, found {found}"
  | mapKeyNotString label p found => s!"{label} parameter {p} must have String keys, found {found}"
  | mapKeyNullable label p => s!"{label} parameter {p} must not have nullable keys"
  | contentHeaderForbidden name =>
    s!"{name} is set by the request content and cannot be declared as a header"
  | malformedStaticHeader text =>
    "static header " ++ quoted text ++ " must have the form \"Name: value\""
  | invalidHeaderName name reason =>
    "header name " ++ quoted name ++ " is invalid: " ++ reason.message
  | invalidHeaderValue name reason => s!"value of header {name} is invalid: " ++ reason.message
  | notSerializable type context => context.display ++ s!" type {type} is not serializable"
  | byteStreamNotAllowed type =>
    s!"ByteStream may only be used directly as a body, part or return type, found in {type}"
  | wildcardNotAllowed type =>
    s!"the wildcard * may only be used as the argument of a Result return type, found in {type}"
  | resultNotAllowed type =>
    s!"Result may only be used as the outermost return type, found in {type}"
  | typeArity type expected found =>
    s!"{type} takes {expected} type argument(s), found {found}"
  | headReturnType type =>
    s!"HEAD functions must return Unit, Result<Unit> or Result<*>, found {type}"

end Violation

structure Diagnostic where
  location : Location
  violation : Violation
  deriving DecidableEq, Repr

def Diagnostic.display (d : Diagnostic) : String :=
  d.location.display ++ ": " ++ d.violation.message

def Diagnostic.line (d : Diagnostic) : String :=
  d.location.display ++ ": error: " ++ d.violation.message ++ "\n"

/-- A report with a line for each diagnostic. -/
def Diagnostic.report (ds : List Diagnostic) : String :=
  String.join (ds.map Diagnostic.line)

end HttpService
