import HttpService.Validation.Diagnostic
import HttpService.Endpoint.Basic

/-!
# Types in their positions

Which types may stand where.  A type is walked from the root down; the wildcard, a captured
outcome and a misplaced byte stream are reported and not looked into, a wrong number of arguments
and a type that cannot be serialized are reported and looked into.
-/

namespace HttpService

/-- Where a type is used.  An argument becomes text and is never serialized. -/
inductive Position
  | argument
  | body
  | part
  | field
  | return
  deriving DecidableEq, Repr

def Position.context? : Position → Option TypeContext
  | .argument => none
  | .body => some .body
  | .part => some .part
  | .field => some .field
  | .return => some .return

def Position.allowsByteStream : Position → Bool
  | .body | .part | .return => true
  | _ => false

namespace TypeExpr

/-- The violations of one node, and whether its arguments are looked into. -/
def nodeViolations (serializable : List String) (root : TypeExpr) (position : Position)
    (top : Bool) (t : TypeExpr) : List Violation × Bool :=
  if t.isStar then ([.wildcardNotAllowed root.display], false)
  else match t.family? with
    | some .result => ([.resultNotAllowed root.display], false)
    | some family =>
      if family = .byteStream && !(top && position.allowsByteStream) then
        ([.byteStreamNotAllowed root.display], false)
      else if family.arity ≠ t.arguments.length then
        ([.typeArity t.name family.arity t.arguments.length], true)
      else ([], true)
    | none =>
      match position.context? with
      | some context =>
        if serializable.contains t.name then ([], true)
        else ([.notSerializable t.name context], true)
      | none => ([], true)

mutual

def walk (serializable : List String) (root : TypeExpr) (position : Position) (top : Bool) :
    TypeExpr → List Violation
  | mk n b as =>
    let (here, deeper) := nodeViolations serializable root position top (mk n b as)
    here ++ if deeper then walkAll serializable root position as else []

def walkAll (serializable : List String) (root : TypeExpr) (position : Position) :
    List TypeExpr → List Violation
  | [] => []
  | t :: rest => walk serializable root position false t ++ walkAll serializable root position rest

end

def violations (serializable : List String) (position : Position) (t : TypeExpr) :
    List Violation :=
  walk serializable t position true t

/-- The shape of a declared result, and what is wrong with it apart from the method. -/
def returnShape (serializable : List String) (t : TypeExpr) : ReturnShape × List Violation :=
  if t.family? = some .result then
    match t.arguments with
    | [argument] =>
      if argument.isStar then (.discarded, [])
      else (.wrapped argument, walk serializable t .return true argument)
    | arguments => (.plain t, [.typeArity t.name 1 arguments.length])
  else (.plain t, violations serializable .return t)

end TypeExpr

/-- Whether a result of this shape has no value that a body would hold. -/
def ReturnShape.isBodyless : ReturnShape → Bool
  | .plain t => t.isUnit
  | .wrapped t => t.isUnit
  | .discarded => true

/-- The shape of a declared result and everything that is wrong with it; a response to `HEAD` has
no body. -/
def TypeExpr.checkReturn (serializable : List String) (method : Method) (t : TypeExpr) :
    ReturnShape × List Violation :=
  let (shape, vs) := t.returnShape serializable
  (shape, vs ++ if method = .head ∧ !shape.isBodyless then [.headReturnType t.display] else [])

end HttpService
