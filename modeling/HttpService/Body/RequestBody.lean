import HttpService.Body.Multipart
import HttpService.Endpoint.Basic
import HttpService.Text.Quoted
import HttpService.Url.FormPairs

/-!
# Request bodies

The content of a request, which can be written again and again with the same outcome: a payload
with its media type, or a multipart body.
-/

namespace HttpService

inductive RequestBody
  | single (contentType : Option String) (payload : Payload)
  | multipart (content : Multipart)
  deriving DecidableEq, Repr

namespace RequestBody

def ofBytes (contentType : Option String) (content : Bytes) : RequestBody :=
  single contentType (.bytes content)

def ofForm (pairs : List (String × String)) : RequestBody :=
  ofBytes (some formMediaType) (Utf8.encode (FormPairs.encode pairs))

def contentType : RequestBody → Option String
  | single contentType _ => contentType
  | multipart content => some content.contentType

/-- The length that is declared for every write, if it is known. -/
def length? : RequestBody → Option UInt64
  | single _ payload => payload.length?
  | multipart content => content.length?

/-- Writes the content, to an output that takes all bytes: a write fails only through the source of
a stream. -/
def write : RequestBody → Written
  | single _ payload => payload.write
  | multipart content => content.write

def typeText (t : Option String) : String :=
  match t with
  | none => "None"
  | some t => "Some(" ++ Text.quoted t ++ ")"

def summary (b : RequestBody) : String :=
  "RequestBody \x7b content_type: " ++ typeText b.contentType ++ ", content_length: " ++
    ByteSource.lengthText b.length? ++ " \x7d"

end RequestBody

end HttpService
