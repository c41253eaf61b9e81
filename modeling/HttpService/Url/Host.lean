import HttpService.Text.Digits
import HttpService.Url.DomainName

/-!
# Hosts

The host of a web URL: a domain name, an IPv4 address or an IPv6 address, after the URL standard.
-/

namespace HttpService

inductive Host
  | domain (name : List Char)
  | ipv4 (address : UInt32)
  | ipv6 (pieces : List UInt16)
  deriving DecidableEq, Repr

inductive UrlFault
  | relativeWithoutBase
  | emptyHost
  | invalidPort
  | invalidIpv4
  | invalidIpv6
  | invalidDomainName
  | invalidDomainCharacter
  deriving DecidableEq, Repr

def UrlFault.message : UrlFault → String
  | .relativeWithoutBase => "relative URL without a base"
  | .emptyHost => "empty host"
  | .invalidPort => "invalid port number"
  | .invalidIpv4 => "invalid IPv4 address"
  | .invalidIpv6 => "invalid IPv6 address"
  | .invalidDomainName => "invalid international domain name"
  | .invalidDomainCharacter => "invalid domain character"

namespace Host

/-! ## IPv4 -/

def digit? (base : Nat) (c : Char) : Option Nat :=
  let n :=
    if c.isDigit then c.toNat - 48
    else if 'a' ≤ c ∧ c ≤ 'f' then c.toNat - 87
    else if 'A' ≤ c ∧ c ≤ 'F' then c.toNat - 55
    else 16
  if n < base then some n else none

def natOfDigits? (base : Nat) (cs : List Char) : Option Nat :=
  (cs.mapM (digit? base)).map fun ds => ds.foldl (fun n d => n * base + d) 0

/-- A number of an IPv4 address: decimal, octal after `0`, hexadecimal after `0x`. -/
def ipv4Number? (cs : List Char) : Option Nat :=
  match cs with
  | [] => none
  | '0' :: 'x' :: rest => natOfDigits? 16 rest
  | '0' :: 'X' :: rest => natOfDigits? 16 rest
  | '0' :: c :: rest => natOfDigits? 8 (c :: rest)
  | cs => natOfDigits? 10 cs

/-- Pieces without an empty one at the end, if there is another. -/
def dropEmptyLast (ps : List (List Char)) : List (List Char) :=
  match ps.reverse with
  | [] :: p :: rest => (p :: rest).reverse
  | _ => ps

/-- Whether a domain name ends in a number, so that it has to be an IPv4 address. -/
def endsInNumber (cs : List Char) : Bool :=
  match (dropEmptyLast (Text.splitAll (· == '.') cs)).getLast? with
  | none => false
  | some last => (!last.isEmpty && last.all Char.isDigit) || (ipv4Number? last).isSome

/-- The address of up to four numbers: all but the last take one byte, the last takes the rest. -/
def ipv4OfNumbers? (numbers : List Nat) : Option UInt32 :=
  match numbers.reverse with
  | [] => none
  | last :: front =>
    let front := front.reverse
    if 3 < front.length || front.any (255 < ·) || Nat.pow 256 (4 - front.length) ≤ last then none
    else
      let high := front.foldl (fun n d => n * 256 + d) 0
      some (UInt32.ofNat (high * Nat.pow 256 (4 - front.length) + last))

def ipv4? (cs : List Char) : Option UInt32 :=
  let ps := dropEmptyLast (Text.splitAll (· == '.') cs)
  if 4 < ps.length then none else (ps.mapM ipv4Number?).bind ipv4OfNumbers?

def ipv4Chars (address : UInt32) : List Char :=
  let n := address.toNat
  let byte (k : Nat) : List Char := Text.digitsOf (n / Nat.pow 256 k % 256)
  byte 3 ++ '.' :: byte 2 ++ '.' :: byte 1 ++ '.' :: byte 0

/-! ## IPv6 -/

/-- A piece of an IPv6 address: up to four hexadecimal digits. -/
def ipv6Piece? (cs : List Char) : Option Nat :=
  if cs.isEmpty || 4 < cs.length then none else natOfDigits? 16 cs

/-- A byte in decimal, without leading zeros. -/
def decimalByte? (cs : List Char) : Option Nat :=
  match cs with
  | [] => none
  | ['0'] => some 0
  | '0' :: _ => none
  | cs => (natOfDigits? 10 cs).filter (· ≤ 255)

/-- The two pieces of an IPv4 address that ends an IPv6 address. -/
def ipv4Tail? (cs : List Char) : Option (List Nat) :=
  match (Text.splitAll (· == '.') cs).mapM decimalByte? with
  | some [a, b, c, d] => some [a * 256 + b, c * 256 + d]
  | _ => none

/-- Pieces with colons between them; the last of them may be an IPv4 address. -/
def ipv6Group? (tail : Bool) (cs : List Char) : Option (List Nat) :=
  if cs.isEmpty then some []
  else
    let ps := Text.splitAll (· == ':') cs
    match ps.reverse with
    | [] => none
    | last :: front => do
      let front ← front.reverse.mapM ipv6Piece?
      let last ←
        if tail && last.contains '.' then ipv4Tail? last else (ipv6Piece? last).map ([·])
      return front ++ last

/-- What stands before and after the first two colons in a row. -/
def cutDoubleColon : List Char → Option (List Char × List Char)
  | ':' :: ':' :: rest => some ([], rest)
  | [] => none
  | c :: rest => (cutDoubleColon rest).map fun p => (c :: p.1, p.2)

/-- An IPv6 address: eight pieces, or fewer with two colons for the missing zeros. -/
def ipv6? (cs : List Char) : Option (List UInt16) :=
  match cutDoubleColon cs with
  | none => do
    let ps ← ipv6Group? true cs
    if ps.length = 8 then some (ps.map UInt16.ofNat) else none
  | some (left, right) => do
    let front ← ipv6Group? false left
    let back ← ipv6Group? true right
    if front.length + back.length ≤ 7 then
      let zeros := List.replicate (8 - front.length - back.length) 0
      some ((front ++ zeros ++ back).map UInt16.ofNat)
    else none

def leadingZeros (ps : List UInt16) : Nat :=
  (ps.takeWhile (· == 0)).length

/-- The first longest run of zeros, as its start and its length, from a given index on. -/
def longestZeros : Nat → List UInt16 → Nat × Nat
  | _, [] => (0, 0)
  | i, p :: rest =>
    let here := leadingZeros (p :: rest)
    let later := longestZeros (i + 1) rest
    if later.2 ≤ here then (i, here) else later

def joinPieces (ps : List UInt16) : List Char :=
  [':'].intercalate (ps.map fun p => Nat.toDigits 16 p.toNat)

/-- The text of an IPv6 address; the first longest run of at least two zeros is left out. -/
def ipv6Chars (ps : List UInt16) : List Char :=
  let (start, length) := longestZeros 0 ps
  if length < 2 then joinPieces ps
  else joinPieces (ps.take start) ++ ':' :: ':' :: joinPieces (ps.drop (start + length))

/-! ## Reading and writing -/

def bracketed? (cs : List Char) : Except UrlFault Host :=
  match cs.getLast? with
  | some ']' =>
    match ipv6? cs.dropLast with
    | some ps => .ok (.ipv6 ps)
    | none => .error .invalidIpv6
  | _ => .error .invalidIpv6

def parse [DomainNames] (cs : List Char) : Except UrlFault Host :=
  match cs with
  | '[' :: rest => bracketed? rest
  | cs =>
    match DomainNames.toAscii? (Utf8.decodeLossy (Percent.decodeText cs)) with
    | none => .error .invalidDomainName
    | some [] => .error .emptyHost
    | some name =>
      if endsInNumber name then
        match ipv4? name with
        | some address => .ok (.ipv4 address)
        | none => .error .invalidIpv4
      else .ok (.domain name)

def chars : Host → List Char
  | .domain name => name
  | .ipv4 address => ipv4Chars address
  | .ipv6 ps => '[' :: ipv6Chars ps ++ [']']

end Host

end HttpService
