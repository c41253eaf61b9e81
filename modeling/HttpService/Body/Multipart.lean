import HttpService.Body.ByteSource
import HttpService.Text.Digits

/-!
# Multipart bodies

A multipart body is a list of parts between delimiter lines.  Each part has a head, whose lines
give its name, its media type and its length as far as they are known, and a payload.  The length
of the whole is known when that of each part is.

The boundary is drawn at random, again and again while a part in memory holds it.  What is drawn is
a parameter here (`drawBoundary`), and everything else is told of any boundary.
-/

namespace HttpService

/-- Some bytes, or a source of them. -/
inductive Payload
  | bytes (content : Bytes)
  | stream (source : ByteSource)
  deriving DecidableEq, Repr

/-- What reached an output, and the fault that ended it if there was one. -/
structure Written where
  bytes : Bytes
  fault : Option IoFault
  deriving DecidableEq, Repr

namespace Written

def pure (bytes : Bytes) : Written :=
  ⟨bytes, none⟩

/-- One output after another; a fault ends it. -/
def append (a b : Written) : Written :=
  match a.fault with
  | some _ => a
  | none => ⟨a.bytes ++ b.bytes, b.fault⟩

instance : Append Written :=
  ⟨append⟩

end Written

def Copy.toWritten (c : Copy) : Written :=
  ⟨c.written, match c.result with
    | .ok _ => none
    | .error e => some e⟩

namespace Payload

def length? : Payload → Option UInt64
  | bytes content => some (UInt64.ofNat content.length)
  | stream source => source.length

def write : Payload → Written
  | bytes content => .pure content
  | stream source => source.copy.toWritten

end Payload

structure Part where
  name : Option String
  contentType : Option String
  payload : Payload
  deriving DecidableEq, Repr

/-- A multipart body: its subtype, the boundary between its parts, and the parts. -/
structure Multipart where
  subtype : String
  boundary : String
  parts : List Part
  deriving DecidableEq, Repr

def crlf : List Char :=
  ['\r', '\n']

/-- A character of a part's name; a quote or a line break would end the name early. -/
def escapeNameChar (c : Char) : List Char :=
  if c = '"' then ['%', '2', '2']
  else if c = '\r' then ['%', '0', 'D']
  else if c = '\n' then ['%', '0', 'A']
  else [c]

def escapeName (name : String) : List Char :=
  name.toList.flatMap escapeNameChar

namespace Part

/-- The line that says what a part is, with its name if it has one. -/
def dispositionLine (p : Part) : List Char :=
  "Content-Disposition: form-data".toList ++
    ((p.name.map fun n => "; name=\"".toList ++ escapeName n ++ ['"']).getD []) ++ crlf

def typeLine (p : Part) : List Char :=
  (p.contentType.map fun t => "Content-Type: ".toList ++ t.toList ++ crlf).getD []

def lengthLine (p : Part) : List Char :=
  (p.payload.length?.map fun n =>
    "Content-Length: ".toList ++ Text.digitsOf n.toNat ++ crlf).getD []

/-- What stands before the payload of a part: the delimiter, the lines of its head, and an empty
line. -/
def head (boundary : String) (p : Part) : List Char :=
  '-' :: '-' :: boundary.toList ++ crlf ++ p.dispositionLine ++ p.typeLine ++ p.lengthLine ++ crlf

end Part

namespace Multipart

def closing (boundary : String) : List Char :=
  '-' :: '-' :: boundary.toList ++ ['-', '-'] ++ crlf

/-- The media type of the body, with its boundary. -/
def contentType (m : Multipart) : String :=
  "multipart/" ++ m.subtype ++ "; boundary=" ++ m.boundary

/-- The length of some parts after `sum` bytes, if each is known; it is counted in 64 bits. -/
def lengthFrom (boundary : String) : UInt64 → List Part → Option UInt64
  | sum, [] => some sum
  | sum, p :: rest =>
    match p.payload.length? with
    | none => none
    | some n =>
      lengthFrom boundary (sum + UInt64.ofNat (Utf8.size (p.head boundary)) + n + 2) rest

def length? (m : Multipart) : Option UInt64 :=
  lengthFrom m.boundary (UInt64.ofNat (Utf8.size (closing m.boundary))) m.parts

def writePart (boundary : String) (p : Part) : Written :=
  .pure (Utf8.encode (p.head boundary)) ++ p.payload.write ++ .pure (Utf8.encode crlf)

def writeParts (boundary : String) : List Part → Written
  | [] => .pure (Utf8.encode (closing boundary))
  | p :: rest => writePart boundary p ++ writeParts boundary rest

def write (m : Multipart) : Written :=
  writeParts m.boundary m.parts

end Multipart

/-! ## Drawing a boundary -/

/-- A boundary as it is drawn: some letters and digits. -/
structure Draw where
  text : String
  length_toList : text.toList.length = 32
  alphanumeric : ∀ c ∈ text.toList, c.isAlphanum = true

def Draw.bytes (d : Draw) : Bytes :=
  Utf8.encode d.text.toList

/-- All stretches of some bytes that have a length. -/
def windows (length : Nat) (bytes : Bytes) : List Bytes :=
  (List.range (bytes.length + 1 - length)).map fun i => (bytes.drop i).take length

/-- Whether a payload in memory holds some bytes.  A stream is not looked into. -/
def Payload.holds (sought : Bytes) : Payload → Bool
  | bytes content => (windows sought.length content).any (· == sought)
  | stream _ => false

namespace Multipart

/-- The boundary that is kept of those that are drawn one after the other: the first one that no
part in memory holds.  `none` stands for drawing on. -/
def drawBoundary (parts : List Part) (draws : List Draw) : Option Draw :=
  draws.find? fun d => !parts.any fun p => p.payload.holds d.bytes

/-- A draw like any other. -/
def defaultDraw : Draw where
  text := String.ofList (List.replicate 32 'B')
  length_toList := by decide
  alphanumeric := List.all_eq_true.mp (by decide)

def defaultBoundary : String :=
  defaultDraw.text

end Multipart

end HttpService
