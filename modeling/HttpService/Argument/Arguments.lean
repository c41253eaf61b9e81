import HttpService.Argument.Basic
import HttpService.Endpoint.Basic

/-!
# The arguments of a call

Arguments by the names of their parameters.  A parameter without an argument counts as null.
Bindings unpack arguments into name and value pairs for a query or a form.
-/

namespace HttpService

/-- The arguments of a call; each name stands once. -/
structure Arguments where
  entries : List (String × Argument)

namespace Arguments

def empty : Arguments :=
  ⟨[]⟩

/-- The arguments with one more, which takes the place of one of the same name. -/
def insert (args : Arguments) (name : String) (value : Argument) : Arguments :=
  ⟨(name, value) :: args.entries.filter (·.1 ≠ name)⟩

/-- The arguments of a list; of equal names the last wins. -/
def ofList (l : List (String × Argument)) : Arguments :=
  l.foldl (fun args e => args.insert e.1 e.2) empty

def get? (args : Arguments) (name : String) : Option Argument :=
  args.entries.lookup name

/-- The argument of a name, or null. -/
def value (args : Arguments) (name : String) : Argument :=
  (args.get? name).getD .null

end Arguments

/-- Values under their names as texts; null has no text and no pair. -/
def textPairs (parameter : String) :
    List (String × Argument) → Except ArgumentFault (List (String × String))
  | [] => .ok []
  | (name, a) :: rest => do
    let text ← a.toText parameter
    let pairs ← textPairs parameter rest
    return (text.toList.map fun t => (name, t)) ++ pairs

/-- The values of an argument that a binding unpacks, each with its name. -/
def unpack (name parameter : String) (mode : ValueMode) (a : Argument) :
    Except ArgumentFault (List (String × Argument)) :=
  match mode with
  | .single => .ok [(name, a)]
  | .iterable => .ok (a.elements.map fun v => (name, v))
  | .map kind => a.entries kind parameter

def ValueBinding.pairs (b : ValueBinding) (args : Arguments) :
    Except ArgumentFault (List (String × String)) := do
  let values ← unpack (b.name.getD b.parameter) b.parameter b.mode (args.value b.parameter)
  textPairs b.parameter values

def bindingPairs (bindings : List ValueBinding) (args : Arguments) :
    Except ArgumentFault (List (String × String)) :=
  (bindings.mapM fun (b : ValueBinding) => b.pairs args).map List.flatten

end HttpService
