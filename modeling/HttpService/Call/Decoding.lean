import HttpService.Call.Outcome

/-!
# Decoding responses

A response is decoded against its declared type, and then given to the caller in one of three
shapes: the value itself, an answer with the value, or an answer whose body is not looked at.
A traversal is never part of an answer; it always ends the call.
-/

namespace HttpService

variable {α : Type}

namespace Decoding

/-- Bytes as an array of numbers. -/
def bytesJson (body : Bytes) : Json :=
  .array (body.map fun b => .nat b.toNat)

/-- The JSON value of a response.  For the unit type the body is not looked at, and for a byte
stream it is taken as it is.  An empty body is null, if the type allows that; any other goes
through the converter for its media type. -/
def json (response : Response) (converters : List Converter) (declared : TypeExpr) :
    Except DecodingFault Json :=
  if declared.isUnit then .ok .null
  else if declared.isByteStream then .ok (bytesJson response.body)
  else if response.body.isEmpty then
    if declared.nullable then .ok .null else .error (.emptyBody declared.display)
  else
    match Converter.reader? converters response.contentType? with
    | none => .error (.noReader response.contentType?)
    | some reader => (reader.read response.body response.contentType?).mapError .conversion

def value (read : Json → Option α) (response : Response) (converters : List Converter)
    (declared : TypeExpr) : Except DecodingFault α := do
  match read (← json response converters declared) with
  | some v => return v
  | none => throw .mismatch

end Decoding

/-- A fault as an answer, unless it is a traversal. -/
def CallFault.capture (fault : CallFault) (request : Option Request) :
    Except CallFault (Answer α) :=
  if fault.isSecurity then .error fault else .ok (.failure fault request)

namespace Outcome

/-- The value itself: everything but a success that can be decoded is a fault. -/
def plain (read : Json → Option α) (converters : List Converter) (declared : TypeExpr) :
    Outcome → Except CallFault α
  | failed f => .error f.fault
  | answered e =>
    if e.response.isSuccess then
      (Decoding.value read e.response converters declared).mapError .decoding
    else .error (.status e.response.status e.response.body)

/-- An answer, whose value is decoded in the given way. -/
def answer (decode : Response → Except DecodingFault α) : Outcome → Except CallFault (Answer α)
  | failed f => f.fault.capture (some f.request)
  | answered e =>
    if e.response.isSuccess then
      match decode e.response with
      | .ok v => .ok (.success v e)
      | .error fault => .ok (.failure (.decoding fault) (some e.request))
    else .ok (.error e)

def wrapped (read : Json → Option α) (converters : List Converter) (declared : TypeExpr) :
    Outcome → Except CallFault (Answer α) :=
  answer fun response => Decoding.value read response converters declared

def discarded : Outcome → Except CallFault (Answer Unit) :=
  answer fun _ => .ok ()

end Outcome

end HttpService
