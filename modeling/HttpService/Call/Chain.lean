import HttpService.Call.Outcome

/-!
# Chains of interceptors

The interceptors of a chain run in order.  Each either answers on its own or proceeds, as often as
it likes, with a request for the rest of the chain; the last one has nothing to proceed to.

What an interceptor does is a `Plan`: it ends, or it proceeds and says how it goes on.  All of a
run shares one cursor, which holds the index of the running interceptor and the current request.
Proceeding moves the cursor on and puts its index back when the rest of the chain is done, but not
its request: that stays as the rest of the chain left it.  Every run keeps a trace of who was
entered and left.
-/

namespace HttpService

/-- What an interceptor sees: its place in the chain and the current request. -/
structure Cursor where
  index : Nat
  request : Request
  deriving DecidableEq, Repr

/-- What an interceptor does, with a state that all share: it ends with an outcome or a fault, or
it proceeds with a request and resumes with the outcome.  Whoever proceeds waits for the outcome: a
proceed that is dropped before it answers, and would leave the cursor further on, is no plan. -/
inductive Plan (σ : Type)
  | finish (state : σ) (result : Except CallFault Outcome)
  | proceed (state : σ) (request : Request) (resume : Cursor → σ → Outcome → Plan σ)

/-- An interceptor: what it does where it stands. -/
abbrev Interceptor (σ : Type) := Cursor → σ → Plan σ

inductive Event
  | entered (cursor : Cursor)
  | proceeded (index : Nat) (request : Request)
  | resumed (cursor : Cursor) (outcome : Outcome)
  | left (index : Nat) (outcome : Outcome)
  deriving DecidableEq, Repr

/-- What a run leaves: the shared state, the cursor, the outcome, and the steps that were taken. -/
structure Run (σ : Type) where
  state : σ
  cursor : Cursor
  outcome : Outcome
  trace : List Event

namespace Run

variable {σ : Type}

/-- A run that is entered at a cursor. -/
def enter (cursor : Cursor) (run : Run σ) : Run σ :=
  { run with trace := .entered cursor :: run.trace }

/-- A run that is what an interceptor did after it proceeded with a request, when the steps of the
rest of the chain were taken before it was resumed. -/
def after (index : Nat) (request : Request) (steps : List Event) (cursor : Cursor)
    (outcome : Outcome) (run : Run σ) : Run σ :=
  { run with trace := .proceeded index request :: steps ++ .resumed cursor outcome :: run.trace }

end Run

namespace Chain

variable {σ : Type}

/-- The failure of a chain that is left at a request. -/
def fail (request : Request) (fault : CallFault) : Outcome :=
  .failed ⟨request, fault⟩

/-- The outcome of an interceptor that has ended.  A fault becomes a failure of the current
request. -/
def conclude (request : Request) : Except CallFault Outcome → Outcome
  | .ok outcome => outcome
  | .error fault => fail request fault

/-- Follows a plan with the cursor of a chain of the given size.  The rest of the chain is run with
the cursor moved on.  That the index does not fall below where the plan began is only there to
see that the chain comes to its end. -/
def follow (size start : Nat) (invoke : (c : Cursor) → start < c.index → σ → Run σ) :
    (c : Cursor) → start ≤ c.index → Plan σ → Run σ
  | c, _, .finish state result =>
    let outcome := conclude c.request result
    ⟨state, c, outcome, [.left c.index outcome]⟩
  | c, h, .proceed state request resume =>
    if size ≤ c.index + 1 then
      let back : Cursor := { c with request }
      let outcome := fail back.request (.chain .proceedPastTerminal)
      (follow size start invoke back h (resume back state outcome)).after c.index request []
        back outcome
    else
      let inner := invoke ⟨c.index + 1, request⟩ (Nat.lt_succ_of_le h) state
      let back : Cursor := { inner.cursor with index := c.index }
      (follow size start invoke back h (resume back inner.state inner.outcome)).after c.index
        request inner.trace back inner.outcome

/-- Runs the interceptor at the cursor, and the rest of the chain below it. -/
def invoke (interceptors : List (Interceptor σ)) (c : Cursor) (state : σ) : Run σ :=
  if h : c.index < interceptors.length then
    (follow interceptors.length c.index (fun next _ state => invoke interceptors next state) c
      (Nat.le_refl _) (interceptors[c.index] c state)).enter c
  else ⟨state, c, fail c.request (.chain .proceedPastTerminal), []⟩
termination_by interceptors.length - c.index

def run (interceptors : List (Interceptor σ)) (request : Request) (state : σ) : Run σ :=
  if interceptors.isEmpty then
    ⟨state, ⟨0, request⟩, fail request (.chain .empty), []⟩
  else invoke interceptors ⟨0, request⟩ state

end Chain

/-- A transport: it sends a request and gives a response or a fault. -/
abbrev Transport (σ : Type) := Request → σ → Except TransportFault Response × σ

def Transport.outcome (request : Request) : Except TransportFault Response → Outcome
  | .ok response => .answered ⟨request, response⟩
  | .error fault => .failed ⟨request, .transport fault⟩

/-- The interceptor that sends the request; it stands at the end of a client's chain. -/
def Transport.interceptor {σ : Type} (send : Transport σ) : Interceptor σ :=
  fun cursor state =>
    let (result, after) := send cursor.request state
    .finish after (.ok (Transport.outcome cursor.request result))

end HttpService
