import HttpService.Call.Fault
import HttpService.Message.Response

/-!
# Outcomes

An exchange is a request and the response it got.  A run through the interceptors ends with an
exchange or with a failure; a caller who wants failures as values receives an `Answer`.
-/

namespace HttpService

structure Exchange where
  request : Request
  response : Response
  deriving DecidableEq, Repr

/-- A fault, and the request as it stood then. -/
structure Failure where
  request : Request
  fault : CallFault
  deriving DecidableEq, Repr

inductive Outcome
  | answered (exchange : Exchange)
  | failed (failure : Failure)
  deriving DecidableEq, Repr

def Outcome.request : Outcome → Request
  | .answered e => e.request
  | .failed f => f.request

/-- What a caller receives who wants failures as values.  A failure has no request when none could
be built. -/
inductive Answer (α : Type)
  | success (value : α) (exchange : Exchange)
  | error (exchange : Exchange)
  | failure (fault : CallFault) (request : Option Request)
  deriving DecidableEq, Repr

namespace Answer

variable {α β : Type}

def value? : Answer α → Option α
  | success value _ => some value
  | _ => none

def isSuccess (a : Answer α) : Bool :=
  a.value?.isSome

def map (f : α → β) : Answer α → Answer β
  | success value exchange => success (f value) exchange
  | error exchange => error exchange
  | failure fault request => failure fault request

/-- The value, or what stood in its way as a fault. -/
def collapse : Answer α → Except CallFault α
  | success value _ => .ok value
  | error exchange => .error (.status exchange.response.status exchange.response.body)
  | failure fault _ => .error fault

end Answer

end HttpService
