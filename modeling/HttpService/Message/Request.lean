import HttpService.Body.RequestBody
import HttpService.Lexical
import HttpService.Url.Any

/-!
# Requests

A request as it is sent: its method, its URL, its header lines in order, and its content.  Header
names are compared without regard to case.
-/

namespace HttpService

structure HeaderLine where
  name : String
  value : String
  deriving DecidableEq, Repr

/-- Whether a header line has a name, in whatever case. -/
def HeaderLine.hasName (h : HeaderLine) (name : String) : Bool :=
  Lexical.sameIgnoringCase h.name name

def headerValue? (headers : List HeaderLine) (name : String) : Option String :=
  (headers.find? (·.hasName name)).map (·.value)

structure Request where
  method : Method
  url : AnyUrl
  headers : List HeaderLine
  body : Option RequestBody
  deriving DecidableEq, Repr

namespace Request

def ofUrl (method : Method) (url : AnyUrl) : Request :=
  ⟨method, url, [], none⟩

def header? (r : Request) (name : String) : Option String :=
  headerValue? r.headers name

def addHeader (r : Request) (name value : String) : Request :=
  { r with headers := r.headers ++ [⟨name, value⟩] }

/-- The request with a header line in place of all of the same name. -/
def setHeader (r : Request) (name value : String) : Request :=
  { r with headers := r.headers.filter (fun h => !h.hasName name) ++ [⟨name, value⟩] }

end Request

end HttpService
