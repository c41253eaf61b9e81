import HttpService.TypeExpr.Basic
import HttpService.Template.Basic

/-!
# Endpoints

A checked function of a service, ready to be called: its method, where its URL comes from, which
parameter goes into which header, query, path or content, and what a caller gets back.  A service
is a list of endpoints.
-/

namespace HttpService

/-- An HTTP method: one of the standard ones, or a token of the service's own. -/
inductive Method
  | delete
  | get
  | head
  | options
  | patch
  | post
  | put
  | custom (token : String) (hasBody : Bool)
  deriving DecidableEq, Repr

def Method.standardNames : List (String × Method) :=
  [("DELETE", .delete), ("GET", .get), ("HEAD", .head), ("OPTIONS", .options), ("PATCH", .patch),
    ("POST", .post), ("PUT", .put)]

def Method.standard? (name : String) : Option Method :=
  standardNames.lookup name

/-- The token that stands in a request. -/
def Method.token : Method → String
  | .delete => "DELETE"
  | .get => "GET"
  | .head => "HEAD"
  | .options => "OPTIONS"
  | .patch => "PATCH"
  | .post => "POST"
  | .put => "PUT"
  | .custom token _ => token

/-- Whether a request with this method may have content. -/
def Method.permitsBody : Method → Bool
  | .delete | .get | .head | .options => false
  | .patch | .post | .put => true
  | .custom _ hasBody => hasBody

/-- A placeholder of the path and the parameter that fills it. -/
structure PathBinding where
  placeholder : String
  parameter : String
  deriving DecidableEq, Repr

/-- How many values a parameter contributes: one, one per element, or one per entry. -/
inductive ValueMode
  | single
  | iterable
  | map (kind : TypeExpr.MapKind)
  deriving DecidableEq, Repr

/-- A parameter that contributes name and value pairs to a query or a form.  The entries of a map
bring names of their own. -/
structure ValueBinding where
  name : Option String
  parameter : String
  mode : ValueMode
  deriving DecidableEq, Repr

inductive UrlSource
  | template (text : String) (kind : Template.Kind) (path : List PathBinding)
      (queries : List ValueBinding)
  | dynamic (parameter : String) (queries : List ValueBinding)
  deriving DecidableEq, Repr

def UrlSource.queries : UrlSource → List ValueBinding
  | .template _ _ _ qs => qs
  | .dynamic _ qs => qs

/-- A header line, or a parameter that contributes some. -/
inductive HeaderBinding
  | static (name value : String)
  | single (name parameter : String) (iterable : Bool)
  | map (parameter : String) (kind : TypeExpr.MapKind)
  deriving DecidableEq, Repr

/-- The parameter that is the whole content; a raw one bypasses the converters. -/
structure BodyBinding where
  parameter : String
  contentType : String
  raw : Bool
  nullable : Bool
  deriving DecidableEq, Repr

structure PartBinding where
  name : Option String
  parameter : String
  contentType : String
  mode : ValueMode
  raw : Bool
  deriving DecidableEq, Repr

inductive ContentBinding
  | body (binding : BodyBinding)
  | form (fields : List ValueBinding)
  | multipart (subtype : String) (parts : List PartBinding)
  deriving DecidableEq, Repr

def formMediaType : String := "application/x-www-form-urlencoded"

/-- The media type of a content, without a boundary. -/
def ContentBinding.mediaType : ContentBinding → String
  | .body b => b.contentType
  | .form _ => formMediaType
  | .multipart subtype _ => "multipart/" ++ subtype

/-- What a caller receives: the decoded value itself, an outcome with a decoded value, or an
outcome whose body is discarded. -/
inductive ReturnShape
  | plain (type : TypeExpr)
  | wrapped (type : TypeExpr)
  | discarded
  deriving DecidableEq, Repr

/-- Whether failures are values for the caller. -/
def ReturnShape.isWrapped : ReturnShape → Bool
  | .plain _ => false
  | _ => true

/-- The declared type that a shape stands for. -/
def ReturnShape.display : ReturnShape → String
  | .plain t => t.display
  | .wrapped t => "Result<" ++ t.display ++ ">"
  | .discarded => "Result<*>"

structure Parameter where
  name : String
  type : TypeExpr
  deriving DecidableEq, Repr

structure Endpoint where
  name : String
  parameters : List Parameter
  method : Method
  url : UrlSource
  headers : List HeaderBinding
  content : Option ContentBinding
  returns : ReturnShape
  deriving DecidableEq, Repr

/-- The first parameter of a name. -/
def Endpoint.parameter? (e : Endpoint) (name : String) : Option Parameter :=
  e.parameters.find? (·.name = name)

structure Service where
  name : String
  implements : String
  endpoints : List Endpoint
  deriving DecidableEq, Repr

/-- The first endpoint of a name. -/
def Service.endpoint? (s : Service) (name : String) : Option Endpoint :=
  s.endpoints.find? (·.name = name)

end HttpService
