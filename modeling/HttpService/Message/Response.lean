import HttpService.Message.Request

/-!
# Responses

A response as it was received: its status, its header lines and its whole body.
-/

namespace HttpService

structure Response where
  status : UInt16
  headers : List HeaderLine
  body : Bytes
  version : String
  deriving DecidableEq, Repr

namespace Response

/-- The version of the protocol that is spoken when nothing else is said. -/
def defaultVersion : String := "HTTP/1.1"

def contentType? (r : Response) : Option String :=
  headerValue? r.headers "content-type"

def isSuccess (r : Response) : Bool :=
  200 ≤ r.status && r.status < 300

end Response

end HttpService
