import HttpService.TypeExpr.Basic

/-!
# Declarations

A service as its author declares it: functions whose marks say which HTTP method and path they
stand for, and parameters whose marks say what role they play.  Nothing here is checked yet.
-/

namespace HttpService

structure Location where
  file : String
  line : UInt32
  column : UInt32
  deriving DecidableEq, Repr

def Location.unknown : Location := ⟨"", 0, 0⟩

/-- A place as `file:line:column`. -/
def Location.display (l : Location) : String :=
  let file := if l.file.isEmpty then "<unknown>" else l.file
  file ++ ":" ++ toString l.line.toNat ++ ":" ++ toString l.column.toNat

inductive DeclKind
  | interface
  | classType
  | object
  | enumeration
  deriving DecidableEq, Repr

def DeclKind.display : DeclKind → String
  | .interface => "interface"
  | .classType => "class"
  | .object => "object"
  | .enumeration => "enum"

structure PropertyDecl where
  name : String
  location : Location
  deriving DecidableEq, Repr

inductive FunctionMark
  | http (method : String) (path : Option String) (hasBody : Option Bool)
  | headers (values : List String)
  | form
  | multipart (subtype : Option String)
  deriving DecidableEq, Repr

def FunctionMark.label : FunctionMark → String
  | .http .. => "@Http"
  | .headers _ => "@Headers"
  | .form => "@FormUrlEncoded"
  | .multipart _ => "@Multipart"

/-- A mark on a parameter: the role that it plays. -/
inductive Role
  | path (name : Option String)
  | url
  | query (name : Option String)
  | queryMap
  | header (name : String)
  | headerMap
  | field (name : Option String)
  | fieldMap
  | part (name contentType : Option String)
  | partMap (contentType : Option String)
  | body (contentType : Option String)
  deriving DecidableEq, Repr

def Role.label : Role → String
  | .path _ => "@Path"
  | .url => "@Url"
  | .query _ => "@Query"
  | .queryMap => "@QueryMap"
  | .header _ => "@Header"
  | .headerMap => "@HeaderMap"
  | .field _ => "@Field"
  | .fieldMap => "@FieldMap"
  | .part .. => "@Part"
  | .partMap _ => "@PartMap"
  | .body _ => "@Body"

structure ParameterDecl where
  name : String
  type : TypeExpr
  roles : List Role
  location : Location
  deriving DecidableEq, Repr

structure FunctionDecl where
  name : String
  marks : List FunctionMark
  isSuspending : Bool
  hasDefaultBody : Bool
  typeParameters : List String
  parameters : List ParameterDecl
  returnType : TypeExpr
  location : Location
  deriving DecidableEq, Repr

structure ServiceDecl where
  name : String
  kind : DeclKind
  topLevel : Bool
  supertypes : List String
  typeParameters : List String
  properties : List PropertyDecl
  functions : List FunctionDecl
  serializableTypes : List String
  location : Location
  deriving DecidableEq, Repr

end HttpService
