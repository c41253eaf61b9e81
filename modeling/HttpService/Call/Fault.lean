import HttpService.Call.Encoding
import HttpService.Call.Resolution

/-!
# Faults of a call

Everything that can end a call, from a missing argument to a response that does not have the
declared type.  A traversal and a fault of an argument stand on their own, wherever they were
found; the rules on what is passed on to the caller depend on it.
-/

namespace HttpService

inductive ChainFault
  | empty
  | proceedPastTerminal
  deriving DecidableEq, Repr

def ChainFault.message : ChainFault → String
  | .empty => "interceptor chain is empty"
  | .proceedPastTerminal => "the last interceptor must not call proceed"

inductive TransportFault
  | body (fault : IoFault)
  | invalidMethod (method : String)
  | other (text : String)
  deriving DecidableEq, Repr

def TransportFault.message : TransportFault → String
  | .body fault => "could not write request body: " ++ fault.message
  | .invalidMethod method => "invalid HTTP method " ++ Text.quoted method
  | .other text => text

inductive DecodingFault
  | noReader (contentType : Option String)
  | emptyBody (type : String)
  | conversion (fault : ConversionFault)
  | mismatch
  deriving DecidableEq, Repr

def DecodingFault.message : DecodingFault → String
  | .noReader contentType =>
    "no converter can read " ++ contentType.getD "a response without Content-Type"
  | .emptyBody type => "response body is empty but " ++ type ++ " is not nullable"
  | .conversion fault => fault.message
  | .mismatch => "response does not match the declared type"

inductive CallFault
  | configuration (fault : ConfigurationFault)
  | traversal (t : Traversal)
  | argument (fault : ArgumentFault)
  | resolution (fault : ResolutionFault)
  | encoding (fault : EncodingFault)
  | decoding (fault : DecodingFault)
  | chain (fault : ChainFault)
  | transport (fault : TransportFault)
  | status (status : UInt16) (body : Bytes)
  | unknownFunction (name : String)
  | shapeMismatch (function declared requested : String)
  | interceptor (text : String)
  deriving DecidableEq, Repr

namespace CallFault

def message : CallFault → String
  | configuration fault => "configuration error: " ++ fault.message
  | traversal t => "security error: " ++ t.message
  | argument fault => fault.message
  | resolution fault => "URL error: " ++ fault.message
  | encoding fault => "encode error: " ++ fault.message
  | decoding fault => "decode error: " ++ fault.message
  | chain fault => "chain error: " ++ fault.message
  | transport fault => "transport error: " ++ fault.message
  | status n _ => "server responded with status " ++ toString n.toNat
  | unknownFunction name => "service has no function named " ++ name
  | shapeMismatch function declared requested =>
    "function " ++ function ++ " returns " ++ declared ++ ", which cannot be called as " ++
      requested
  | interceptor text => "interceptor error: " ++ text

def ofResolution : ResolutionFault → CallFault
  | .traversal t => traversal t
  | .argument fault => argument fault
  | fault => resolution fault

/-- Whether the fault is one that no caller may receive as a value. -/
def isSecurity : CallFault → Bool
  | traversal _ => true
  | _ => false

end CallFault

end HttpService
