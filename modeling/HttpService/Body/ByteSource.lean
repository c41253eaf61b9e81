import HttpService.Text.Utf8

/-!
# Byte sources

A source of bytes that can be opened again and again, each time with the same outcome: chunks of
bytes, then an end or a fault.  Its length may be declared, rightly or wrongly.  `copy` writes
exactly the declared number of bytes or fails, whatever the chunks are.

Two things that a reader and a writer may do are left out.  No read is interrupted: whoever reads
asks again after an interruption, so that it leaves no trace.  And what is written to takes all
bytes: a copy fails only through its source.
-/

namespace HttpService

/-- A fault of a source of bytes, which ends its reading; an interruption is none. -/
inductive IoFault
  | invalidData (text : String)
  | other (text : String)
  deriving DecidableEq, Repr

def IoFault.message : IoFault → String
  | .invalidData text => text
  | .other text => text

/-- What the reads of a source give, one after the other.  None of them is empty, since a read that
gives nothing is the end. -/
structure Chunks where
  toList : List Bytes
  ne_nil : ∀ c ∈ toList, c ≠ []
  deriving DecidableEq, Repr

namespace Chunks

/-- The chunks of a list that can be read. -/
def ofList (cs : List Bytes) : Chunks where
  toList := cs.filter (· ≠ [])
  ne_nil c hc := by simpa using (List.mem_filter.mp hc).2

instance : Coe (List Bytes) Chunks where
  coe := ofList

end Chunks

/-- A source of bytes: its chunks, the fault after the last one if any, and the length that is
declared for it if any. -/
structure ByteSource where
  chunks : Chunks
  fault : Option IoFault
  length : Option UInt64
  deriving DecidableEq, Repr

/-- What was written, and how many bytes that is unless a fault stopped it. -/
structure Copy where
  written : Bytes
  result : Except IoFault Nat

namespace ByteSource

def content (s : ByteSource) : Bytes :=
  s.chunks.toList.flatten

def readAll (s : ByteSource) : Copy :=
  ⟨s.content, match s.fault with
    | none => .ok s.content.length
    | some e => .error e⟩

/-- The first bytes of some chunks, up to a limit, and the chunks that are left. -/
def takeBytes : Nat → List Bytes → Bytes × List Bytes
  | _, [] => ([], [])
  | limit, c :: rest =>
    if limit = 0 then ([], c :: rest)
    else if c.length ≤ limit then
      let (taken, left) := takeBytes (limit - c.length) rest
      (c ++ taken, left)
    else (c.take limit, c.drop limit :: rest)

def endedEarly (copied declared : Nat) : IoFault :=
  .invalidData s!"stream ended after {copied} of {declared} declared bytes"

def tooLong (declared : Nat) : IoFault :=
  .invalidData s!"stream is longer than its declared {declared} bytes"

/-- Copies the source to an output that takes all bytes.  With a declared length, that many bytes
are written, unless the source ends before; then one more byte is asked for, which must not
come. -/
def copy (s : ByteSource) : Copy :=
  match s.length with
  | none => s.readAll
  | some declared =>
    let n := declared.toNat
    let (taken, left) := takeBytes n s.chunks.toList
    if taken.length < n then ⟨taken, .error (s.fault.getD (endedEarly taken.length n))⟩
    else match left, s.fault with
      | _ :: _, _ => ⟨taken, .error (tooLong n)⟩
      | [], some e => ⟨taken, .error e⟩
      | [], none => ⟨taken, .ok n⟩

def lengthText (n : Option UInt64) : String :=
  match n with
  | none => "None"
  | some n => "Some(" ++ toString n.toNat ++ ")"

def summary (s : ByteSource) : String :=
  "StreamSource \x7b length: " ++ lengthText s.length ++ ", .. \x7d"

end ByteSource

end HttpService
