import HttpService.Argument.Arguments
import HttpService.Converter.Basic
import HttpService.Message.Request

/-!
# The headers and the content of a call

The arguments of a call become header lines and a request body.  What arrives with a call is
checked as a declaration is: no argument can break out of its header line or take the place of a
header that belongs to the content.
-/

namespace HttpService

inductive EncodingFault
  | noWriter (contentType : String)
  | conversion (fault : ConversionFault)
  | argument (fault : ArgumentFault)
  | invalidHeaderName (name : String) (reason : Lexical.Flaw)
  | invalidHeaderValue (name : String) (reason : Lexical.Flaw)
  | contentHeader (name : String)
  deriving DecidableEq, Repr

def EncodingFault.message : EncodingFault → String
  | .noWriter contentType => "no converter can write " ++ contentType
  | .conversion fault => fault.message
  | .argument fault => fault.message
  | .invalidHeaderName name reason =>
    "header " ++ Text.quoted name ++ " is invalid: " ++ reason.message
  | .invalidHeaderValue name reason =>
    "value of header " ++ name ++ " is invalid: " ++ reason.message
  | .contentHeader name =>
    name ++ " is set by the request content and cannot be supplied as a header"

/-! ## Headers -/

namespace HeaderBinding

/-- The header line of a name and an argument; null has none. -/
def line (name parameter : String) (a : Argument) : Except EncodingFault (List HeaderLine) := do
  match ← (a.toText parameter).mapError .argument with
  | none => return []
  | some text =>
    (Lexical.checkHeaderValue text).mapError (.invalidHeaderValue name)
    return [⟨name, text⟩]

/-- The header line of an entry, whose name comes with the call. -/
def entryLine (parameter : String) (e : String × Argument) :
    Except EncodingFault (List HeaderLine) := do
  if Lexical.isContentHeader e.1 then throw (.contentHeader e.1)
  (Lexical.checkHeaderName e.1).mapError (.invalidHeaderName e.1)
  line e.1 parameter e.2

def lines (b : HeaderBinding) (args : Arguments) : Except EncodingFault (List HeaderLine) :=
  match b with
  | .static name value => .ok [⟨name, value⟩]
  | .single name parameter iterable => do
    let a := args.value parameter
    let values := if iterable then a.elements else [a]
    return (← values.mapM (line name parameter)).flatten
  | .map parameter kind => do
    let entries ← ((args.value parameter).entries kind parameter).mapError .argument
    return (← entries.mapM (entryLine parameter)).flatten

end HeaderBinding

def headerLines (bindings : List HeaderBinding) (args : Arguments) :
    Except EncodingFault (List HeaderLine) := do
  return (← bindings.mapM fun (b : HeaderBinding) => b.lines args).flatten

/-! ## Content -/

/-- The bytes of an argument by way of the converter for a media type. -/
def convert (converters : List Converter) (parameter contentType : String) (a : Argument) :
    Except EncodingFault Bytes :=
  match Converter.writer? converters contentType with
  | none => .error (.noWriter contentType)
  | some writer => do
    let value ← (a.toJson parameter).mapError .argument
    (writer.write value contentType).mapError .conversion

/-- The payload of an argument.  Streams and bytes are taken as they are, and so is a text that is
raw; everything else goes through a converter. -/
def payload (converters : List Converter) (parameter contentType : String) (raw : Bool)
    (a : Argument) : Except EncodingFault Payload :=
  match a with
  | .stream source => .ok (.stream source)
  | .bytes content => .ok (.bytes content)
  | .string text =>
    if raw then .ok (.bytes (Utf8.encode text.toList))
    else (convert converters parameter contentType (.string text)).map .bytes
  | _ => (convert converters parameter contentType a).map .bytes

/-- The body of an argument; null is an empty one. -/
def BodyBinding.encode (b : BodyBinding) (args : Arguments) (converters : List Converter) :
    Except EncodingFault RequestBody :=
  match args.value b.parameter with
  | .null => .ok (.ofBytes (some b.contentType) [])
  | a => (payload converters b.parameter b.contentType b.raw a).map
      (.single (some b.contentType))

namespace PartBinding

/-- The values that a binding contributes, each with the name of its part; an entry brings its own
name. -/
def named (b : PartBinding) (a : Argument) :
    Except ArgumentFault (List (Option String × Argument)) :=
  match b.mode with
  | .single => .ok [(b.name, a)]
  | .iterable => .ok (a.elements.map fun v => (b.name, v))
  | .map kind => (a.entries kind b.parameter).map (·.map fun e => (some e.1, e.2))

def part (b : PartBinding) (converters : List Converter) (v : Option String × Argument) :
    Except EncodingFault Part :=
  (payload converters b.parameter b.contentType b.raw v.2).map (⟨v.1, some b.contentType, ·⟩)

/-- The parts that a binding contributes; null has none. -/
def parts (b : PartBinding) (args : Arguments) (converters : List Converter) :
    Except EncodingFault (List Part) := do
  let values ← (b.named (args.value b.parameter)).mapError .argument
  (values.filter fun v => !v.2.isNull).mapM (b.part converters)

end PartBinding

/-- The body of a call.  A multipart body has the given boundary between its parts. -/
def ContentBinding.encode (b : ContentBinding) (boundary : String) (args : Arguments)
    (converters : List Converter) : Except EncodingFault RequestBody :=
  match b with
  | .body binding => binding.encode args converters
  | .form fields => ((bindingPairs fields args).mapError .argument).map .ofForm
  | .multipart subtype bindings => do
    let parts ← bindings.mapM fun (p : PartBinding) => p.parts args converters
    return .multipart ⟨subtype, boundary, parts.flatten⟩

end HttpService
