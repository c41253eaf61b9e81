import HttpService.Number.Shortest
import HttpService.Text.Digits

/-!
# Numbers as text

The two ways a double is written and the one in which it is read.  In a URL, a header or a form a
number is written plainly, never with an exponent; in a JSON document it keeps a fraction and
takes an exponent outside a range.  Both have the fewest digits that read back.  They part where two
such decimals are equally near: plainly written the larger one stands, in JSON the even one.
-/

namespace HttpService.Binary64

open Text (digitsOf natOfDigits signed)

/-- Digits and a power of ten in positional notation, with a point only before a fraction. -/
def positional (d : Decimal) : List Char :=
  let ds := digitsOf d.digits
  if 0 ≤ d.exponent then ds ++ List.replicate d.exponent.toNat '0'
  else
    let places := (-d.exponent).toNat
    if places < ds.length then
      ds.take (ds.length - places) ++ '.' :: ds.drop (ds.length - places)
    else ['0', '.'] ++ List.replicate (places - ds.length) '0' ++ ds

/-- The plain text of a double: the shortest digits that read back, without an exponent. -/
def plainText (x : Binary64) : String :=
  match x.view with
  | .nan => "NaN"
  | .infinite negative => String.ofList (signed negative ['i', 'n', 'f'])
  | .finite negative m q => String.ofList (signed negative (positional (shortest .away m q)))

/-- The exponents for which a JSON number is written without one, from the first to the last. -/
def positionalRange : Int × Int := (-5, 15)

/-- The JSON text of a finite double: a whole number keeps `.0`, and outside the positional range
one digit stands before the point and the exponent has a sign. -/
def jsonText (negative : Bool) (d : Decimal) : List Char :=
  let ds := digitsOf d.digits
  let e := d.exponent + ds.length - 1
  let magnitude : List Char :=
    if d.digits = 0 then ['0', '.', '0']
    else if positionalRange.1 ≤ e ∧ e ≤ positionalRange.2 then
      positional d ++ if 0 ≤ d.exponent then ['.', '0'] else []
    else
      let mark : List Char := if 0 ≤ e then ['e', '+'] else ['e', '-']
      ds.take 1 ++ (if ds.length = 1 then [] else '.' :: ds.drop 1) ++ mark ++ digitsOf e.natAbs
  signed negative magnitude

def exponentText? (cs : List Char) : Option Int :=
  let (negative, ds) : Bool × List Char := match cs with
    | '-' :: r => (true, r)
    | '+' :: r => (false, r)
    | r => (false, r)
  if ds.isEmpty || !ds.all Char.isDigit then none
  else some (if negative then -(natOfDigits ds : Int) else natOfDigits ds)

def magnitude? (negative : Bool) (cs : List Char) : Option Binary64 :=
  let isMark (c : Char) : Bool := c == 'e' || c == 'E'
  let body := cs.takeWhile fun c => !isMark c
  let tail := cs.dropWhile fun c => !isMark c
  let whole := body.takeWhile fun c => c != '.'
  let fraction := (body.dropWhile fun c => c != '.').drop 1
  if !(whole ++ fraction).all Char.isDigit || (whole ++ fraction).isEmpty then none
  else
    let digits := natOfDigits (whole ++ fraction)
    match tail with
    | [] => some (ofDecimal negative digits (-(fraction.length : Int)))
    | _ :: e => (exponentText? e).map fun n => ofDecimal negative digits (n - fraction.length)

/-- The double nearest to a decimal text; infinity and the undefined number have names. -/
def ofText? (s : String) : Option Binary64 :=
  let (negative, cs) : Bool × List Char := match s.toList with
    | '-' :: r => (true, r)
    | '+' :: r => (false, r)
    | r => (false, r)
  let lower := String.ofList (cs.map Char.toLower)
  if lower == "nan" then some nan
  else if lower == "inf" || lower == "infinity" then some (infinity negative)
  else magnitude? negative cs

end HttpService.Binary64
