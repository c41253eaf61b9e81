import HttpService.Json.Basic
import HttpService.Text.Utf8

/-!
# The lexemes of JSON

The numbers, strings and words that a JSON text is made of, read from bytes.  Two faults are told
apart: the text ended too early, or it is wrong where it stands.

Rules worth knowing: a string has to be valid UTF-8 and its surrogate escapes paired; a whole number
within 64 bits stays a whole number, every other number is a double.  A double is computed from the
leading digits that fit into 64 bits and one scaling by a power of ten, so its last bit may differ
from the nearest double.
-/

namespace HttpService.Json

inductive Fault
  | truncated
  | malformed
  deriving DecidableEq, Repr

namespace Lexeme

def isSpace (b : UInt8) : Bool :=
  b == 0x20 || b == 0x09 || b == 0x0A || b == 0x0D

/-- The bytes from the first that is no white space. -/
def skipSpace (bytes : Bytes) : Bytes :=
  bytes.dropWhile isSpace

/-! ## Numbers -/

def isDigit (b : UInt8) : Bool :=
  48 ≤ b && b ≤ 57

/-- The largest whole number that fits into 64 bits. -/
def maxWhole : Nat := UInt64.size - 1

/-- Appends digits to a number while the result fits into 64 bits; also how many digits were left
over. -/
def appendDigits : Nat → Bytes → Nat × Nat
  | n, [] => (n, 0)
  | n, d :: rest =>
    let next := n * 10 + (d.toNat - 48)
    if next ≤ maxWhole then appendDigits next rest else (n, rest.length + 1)

def natOfDigits (ds : Bytes) : Nat :=
  ds.foldl (fun n d => n * 10 + (d.toNat - 48)) 0

/-- A double scaled down by a power of ten: as long as the power is beyond the range of doubles,
by the largest one in it, which at most three times leaves anything but zero. -/
def scaleDown : Nat → Binary64 → Nat → Binary64
  | 0, x, _ => x
  | fuel + 1, x, places =>
    if places ≤ 308 then x.div (Binary64.ofDecimal false 1 places)
    else scaleDown fuel (x.div (Binary64.ofDecimal false 1 308)) (places - 308)

/-- The double of a significand and a power of ten, if it is in range. -/
def scale? (significand : Nat) (exponent : Int) : Option Binary64 :=
  let x := Binary64.ofNat significand
  if significand = 0 then some x
  else if exponent < 0 then some (scaleDown 4 x exponent.natAbs)
  else if 308 < exponent then none
  else
    let y := x.mul (Binary64.ofDecimal false 1 exponent)
    if y.isFinite then some y else none

structure Numeral where
  negative : Bool
  integer : Bytes
  fraction : Option Bytes
  exponent : Option Int

/-- The value of a number: whole if it is written so and fits, otherwise a double. -/
def Numeral.value (n : Numeral) : Except Fault JsonNumber :=
  let (start, dropped) := appendDigits 0 n.integer
  if n.fraction.isNone && n.exponent.isNone && dropped = 0 then
    if !n.negative then .ok (.whole start)
    else if start = 0 || Nat.pow 2 63 < start then .ok (.float (Binary64.ofNat start).negate)
    else .ok (.whole (-start))
  else
    let ds := n.fraction.getD []
    let (significand, unused) := appendDigits start ds
    let places : Int := (dropped : Int) - (ds.length - unused : Nat)
    match scale? significand (places + n.exponent.getD 0) with
    | some x => .ok (.float (if n.negative then x.negate else x))
    | none => .error .malformed

def someDigits (bytes : Bytes) : Except Fault (Bytes × Bytes) :=
  match bytes with
  | [] => .error .truncated
  | b :: _ =>
    if isDigit b then .ok (bytes.takeWhile isDigit, bytes.dropWhile isDigit)
    else .error .malformed

/-- The digits before the point: a zero stands alone. -/
def integerPart (bytes : Bytes) : Except Fault (Bytes × Bytes) := do
  let (ds, rest) ← someDigits bytes
  match ds with
  | 48 :: _ :: _ => .error .malformed
  | _ => .ok (ds, rest)

def fractionPart (bytes : Bytes) : Except Fault (Option Bytes × Bytes) :=
  match bytes with
  | 0x2E :: rest => (someDigits rest).map fun (ds, more) => (some ds, more)
  | _ => .ok (none, bytes)

def exponentPart (bytes : Bytes) : Except Fault (Option Int × Bytes) :=
  match bytes with
  | b :: rest =>
    if b = 0x65 || b = 0x45 then
      let (negative, ds) : Bool × Bytes := match rest with
        | 0x2D :: r => (true, r)
        | 0x2B :: r => (false, r)
        | r => (false, r)
      (someDigits ds).map fun (ds, more) =>
        let n : Int := natOfDigits ds
        (some (if negative then -n else n), more)
    else .ok (none, bytes)
  | [] => .ok (none, bytes)

def numeral (bytes : Bytes) : Except Fault (Numeral × Bytes) := do
  let (negative, bytes) : Bool × Bytes := match bytes with
    | 0x2D :: r => (true, r)
    | r => (false, r)
  let (integer, bytes) ← integerPart bytes
  let (fraction, bytes) ← fractionPart bytes
  let (exponent, bytes) ← exponentPart bytes
  return (⟨negative, integer, fraction, exponent⟩, bytes)

def number (bytes : Bytes) : Except Fault (JsonNumber × Bytes) := do
  let (parts, rest) ← numeral bytes
  let value ← parts.value
  return (value, rest)

/-! ## Strings -/

def hexDigit? (b : UInt8) : Option Nat :=
  if isDigit b then some (b.toNat - 48)
  else if 65 ≤ b && b ≤ 70 then some (b.toNat - 55)
  else if 97 ≤ b && b ≤ 102 then some (b.toNat - 87)
  else none

def fourHex (bytes : Bytes) : Except Fault (Nat × Bytes) :=
  match bytes with
  | a :: b :: c :: d :: rest =>
    match hexDigit? a, hexDigit? b, hexDigit? c, hexDigit? d with
    | some a, some b, some c, some d => .ok (((a * 16 + b) * 16 + c) * 16 + d, rest)
    | _, _, _, _ => .error .malformed
  | _ => .error .truncated

/-- What follows a high surrogate: the escape of a low one. -/
def lowSurrogate (bytes : Bytes) : Except Fault (Nat × Bytes) :=
  match bytes with
  | [] => .error .truncated
  | a :: rest =>
    if a ≠ 0x5C then .error .malformed
    else match rest with
      | [] => .error .truncated
      | u :: rest => if u ≠ 0x75 then .error .malformed else fourHex rest

/-- The character of a numeric escape, after its `\u`. -/
def unicodeChar (bytes : Bytes) : Except Fault (Char × Bytes) := do
  let (n, rest) ← fourHex bytes
  if 0xDC00 ≤ n ∧ n ≤ 0xDFFF then .error .malformed
  else if n < 0xD800 ∨ 0xDBFF < n then .ok (Char.ofNat n, rest)
  else
    let (m, rest) ← lowSurrogate rest
    if 0xDC00 ≤ m ∧ m ≤ 0xDFFF then
      .ok (Char.ofNat (0x10000 + (n - 0xD800) * 0x400 + (m - 0xDC00)), rest)
    else .error .malformed

def letterEscape? (b : UInt8) : Option UInt8 :=
  if b = 0x22 || b = 0x5C || b = 0x2F then some b
  else if b = 0x62 then some 0x08
  else if b = 0x66 then some 0x0C
  else if b = 0x6E then some 0x0A
  else if b = 0x72 then some 0x0D
  else if b = 0x74 then some 0x09
  else none

def escaped (bytes : Bytes) : Except Fault (Bytes × Bytes) :=
  match bytes with
  | [] => .error .truncated
  | b :: rest =>
    if b = 0x75 then (unicodeChar rest).map fun (c, more) => (String.utf8EncodeChar c, more)
    else match letterEscape? b with
      | some c => .ok ([c], rest)
      | none => .error .malformed

/-- The rest of a string after its opening quote; `acc` holds the bytes so far, the last one
first, and `fuel` is at least the number of bytes. -/
def stringBody : Nat → Bytes → Bytes → Except Fault (String × Bytes)
  | 0, _, _ => .error .truncated
  | _ + 1, _, [] => .error .truncated
  | fuel + 1, acc, b :: rest =>
    if b = 0x22 then
      match Utf8.decode? acc.reverse with
      | some cs => .ok (String.ofList cs, rest)
      | none => .error .malformed
    else if b = 0x5C then
      match escaped rest with
      | .ok (bs, more) => stringBody fuel (bs.reverse ++ acc) more
      | .error e => .error e
    else if b < 0x20 then .error .malformed
    else stringBody fuel (b :: acc) rest

/-! ## Words -/

def word : Bytes → Bytes → Except Fault Bytes
  | [], rest => .ok rest
  | _ :: _, [] => .error .truncated
  | e :: es, b :: rest => if e = b then word es rest else .error .malformed

def nullTail : Bytes := [0x75, 0x6C, 0x6C]

def trueTail : Bytes := [0x72, 0x75, 0x65]

def falseTail : Bytes := [0x61, 0x6C, 0x73, 0x65]

end Lexeme

end HttpService.Json
