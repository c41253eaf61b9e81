import HttpService.Validation.Pass

/-!
# Checking a service

A service is checked as a whole and function by function.  `analyze` keeps whatever is valid next
to everything that is wrong; `validate` accepts a service only when nothing is.
-/

namespace HttpService

namespace ServiceDecl

/-- What is wrong with the declared type itself, apart from its functions. -/
def ownDiagnostics (s : ServiceDecl) : List Diagnostic :=
  let given (b : Bool) (v : Violation) : List Diagnostic := if b then [⟨s.location, v⟩] else []
  given (s.kind != .interface) (.notAnInterface s.name s.kind.display) ++
    given (!s.topLevel) (.notTopLevel s.name) ++
    given (!s.supertypes.isEmpty)
      (.hasSupertypes s.name (String.intercalate ", " s.supertypes)) ++
    given (!s.typeParameters.isEmpty) (.serviceTypeParameters s.name) ++
    s.properties.map fun p => ⟨p.location, .serviceProperty p.name⟩

def diagnostics (s : ServiceDecl) : List Diagnostic :=
  s.ownDiagnostics ++ s.functions.flatMap (FunctionDecl.diagnostics s.serializableTypes)

/-- The service with every function that is valid, unless the declared type itself is not. -/
def service? (s : ServiceDecl) : Option Service :=
  if s.ownDiagnostics.isEmpty then
    some {
      name := s.name ++ "Client"
      implements := s.name
      endpoints := s.functions.filterMap (FunctionDecl.endpoint? s.serializableTypes) }
  else none

end ServiceDecl

/-- The result of looking at a service: what is valid, and what is wrong. -/
structure Analysis where
  service : Option Service
  diagnostics : List Diagnostic

def Analysis.isClean (a : Analysis) : Bool :=
  a.diagnostics.isEmpty

/-- Looks at a service in one pass, with no diagnostics to begin with, and keeps whatever is
valid. -/
def ServiceDecl.analyze (s : ServiceDecl) : Analysis :=
  let (service, diagnostics) := s.check.run []
  ⟨service, diagnostics⟩

/-- The service, or everything that is wrong with it. -/
def ServiceDecl.validate (s : ServiceDecl) : Except (List Diagnostic) Service :=
  match s.analyze with
  | ⟨some service, []⟩ => .ok service
  | ⟨_, ds⟩ => .error ds

end HttpService
