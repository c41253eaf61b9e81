import HttpService.Json.Printer
import HttpService.Json.Reader
import HttpService.Lexical

/-!
# Converters

A converter turns JSON values into the bytes of a message and back, for the media types that it
says it handles.  The converters of a client are asked in turn, and the first that handles a type
is taken.
-/

namespace HttpService

inductive ConversionFault
  | json (fault : Json.Fault)
  | notUtf8 (contentType : String)
  | unsupported (kind contentType : String)
  deriving DecidableEq, Repr

def Json.Fault.message : Json.Fault → String
  | .truncated => "the text ends too early"
  | .malformed => "the text is not JSON"

def ConversionFault.message : ConversionFault → String
  | .json fault => "JSON error: " ++ fault.message
  | .notUtf8 contentType => contentType ++ " payload is not valid UTF-8"
  | .unsupported kind contentType => "cannot write a " ++ kind ++ " value as " ++ contentType

/-- A converter: the media types that it writes and reads, and how.  A response may come without
a media type. -/
structure Converter where
  writes : String → Bool
  reads : Option String → Bool
  write : Json → String → Except ConversionFault Bytes
  read : Bytes → Option String → Except ConversionFault Json

namespace Converter

/-! ## JSON -/

/-- Whether a media type is JSON, or a type that is written as JSON. -/
def isJson (contentType : String) : Bool :=
  let kind := Lexical.essence contentType
  kind == "application/json" || "+json".toList.isSuffixOf kind.toList

/-- JSON, which also reads responses without a media type. -/
def json : Converter where
  writes := isJson
  reads := fun contentType => contentType.all isJson
  write := fun value _ => .ok (Utf8.encode value.compactChars)
  read := fun body _ => (Json.parseNormal body).mapError .json

/-! ## Text -/

def isText (contentType : String) : Bool :=
  "text/".toList.isPrefixOf (Lexical.essence contentType).toList

/-- The text of a value without parts; null is empty. -/
def scalarText (contentType : String) : Json → Except ConversionFault (List Char)
  | .null => .ok []
  | .string s => .ok s.toList
  | .bool b => .ok (Json.boolText b)
  | .number n => .ok (Json.numberText n)
  | .array _ => .error (.unsupported "list" contentType)
  | .object _ => .error (.unsupported "map" contentType)

def readText (body : Bytes) (contentType : Option String) : Except ConversionFault Json :=
  match Utf8.decode? body with
  | some cs => .ok (.string (String.ofList cs))
  | none => .error (.notUtf8 (contentType.getD "text/plain"))

/-- Plain text.  What is read is always a string. -/
def text : Converter where
  writes := isText
  reads := fun contentType => contentType.any isText
  write := fun value contentType => (scalarText contentType value).map Utf8.encode
  read := readText

/-! ## Lists of converters -/

/-- The converters of a client that names none: JSON first, then text. -/
def defaults : List Converter :=
  [json, text]

def writer? (converters : List Converter) (contentType : String) : Option Converter :=
  converters.find? fun (c : Converter) => c.writes contentType

def reader? (converters : List Converter) (contentType : Option String) : Option Converter :=
  converters.find? fun (c : Converter) => c.reads contentType

def summary (converters : List Converter) : String :=
  "ConverterRegistry \x7b len: " ++ toString converters.length ++ " \x7d"

end Converter

end HttpService
