import HttpService.Validation.Diagnostic

/-!
# Checks

All that is wrong with a declaration goes to one list of diagnostics, which every check is handed
and reports to at its end.  A check that has to know whether something was found takes a mark
before it starts, and asks afterwards whether the list has grown since (`watch`).
-/

namespace HttpService

/-- A check: what it makes of a declaration, and what it does to the diagnostics reported so far,
of which the first one stands first. -/
abbrev Check := StateM (List Diagnostic)

namespace Check

def report (location : Location) (v : Violation) : Check Unit :=
  modify (· ++ [⟨location, v⟩])

def reportIf (broken : Prop) [Decidable broken] (location : Location) (v : Violation) :
    Check Unit :=
  if broken then report location v else return ()

def reportAll (location : Location) : List Violation → Check Unit
  | [] => return ()
  | v :: vs => do
    report location v
    reportAll location vs

/-- How many diagnostics there are so far. -/
def mark : Check Nat := do
  return (← get).length

/-- Whether anything was reported after a mark. -/
def since (mark : Nat) : Check Bool := do
  return mark < (← get).length

/-- A check, and whether it reported anything. -/
def watch {α : Type} (c : Check α) : Check (α × Bool) := do
  let start ← mark
  let a ← c
  return (a, ← since start)

end Check

end HttpService
