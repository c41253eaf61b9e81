import HttpService.Number.Binary64

/-!
# The shortest decimal that reads back

Among the decimals that round to a given double, the ones with the fewest digits are looked for,
and of those the one nearest to it.  The search goes over the grids of one, two, three, … digits;
on each grid only the double's two neighbours can lie in the interval of numbers that round to
it, and on a grid of seventeen digits one always does.  Where both do and neither is nearer, a rule
of the text that is written decides.
-/

namespace HttpService.Binary64

structure Decimal where
  digits : Nat
  exponent : Int
  deriving DecidableEq, Repr

/-- `num / den < digits · 10 ^ exponent`, or equality allowed. -/
def Decimal.above (d : Decimal) (num den : Nat) (orEqual : Bool) : Bool :=
  let (l, r) :=
    if 0 ≤ d.exponent then (num, d.digits * Nat.pow 10 d.exponent.toNat * den)
    else (num * Nat.pow 10 (-d.exponent).toNat, d.digits * den)
  if orEqual then l ≤ r else l < r

/-- `digits · 10 ^ exponent < num / den`, or equality allowed. -/
def Decimal.below (d : Decimal) (num den : Nat) (orEqual : Bool) : Bool :=
  let (l, r) :=
    if 0 ≤ d.exponent then (d.digits * Nat.pow 10 d.exponent.toNat * den, num)
    else (d.digits * den, num * Nat.pow 10 (-d.exponent).toNat)
  if orEqual then l ≤ r else l < r

/-- The same number without zeros at the end of its digits, for at most `fuel` of them. -/
def Decimal.strip : Nat → Decimal → Decimal
  | 0, d => d
  | fuel + 1, d =>
    if d.digits ≠ 0 ∧ d.digits % 10 = 0 then Decimal.strip fuel ⟨d.digits / 10, d.exponent + 1⟩
    else d

/-- The numbers that round to a double: two fractions over one denominator, and whether the ends
belong to them. -/
structure Interval where
  low : Nat
  middle : Nat
  high : Nat
  den : Nat
  closed : Bool

/-- The interval of the finite double `mantissa · 2 ^ exponent`.  Below a power of two the
neighbours stand half as far apart. -/
def interval (mantissa : Nat) (exponent : Int) : Interval :=
  let half : Nat := if mantissa = Nat.pow 2 52 ∧ -1074 < exponent then 1 else 2
  let e := exponent - 2
  let p := Nat.pow 2 e.toNat
  { low := (4 * mantissa - half) * p
    middle := 4 * mantissa * p
    high := (4 * mantissa + 2) * p
    den := Nat.pow 2 (-e).toNat
    closed := mantissa % 2 == 0 }

def Interval.holds (i : Interval) (d : Decimal) : Bool :=
  d.above i.low i.den i.closed && d.below i.high i.den i.closed

/-- The largest `e` with `10 ^ e ≤ num / den`, for a positive quotient: an estimate from the
binary logarithms, put right by at most one step. -/
def leadingExponent (num den : Nat) : Int :=
  let guess : Int := (((Nat.log2 num : Int) - Nat.log2 den) * 30103).fdiv 100000
  if (Decimal.mk 1 (guess + 1)).below num den true then guess + 1
  else if (Decimal.mk 1 guess).below num den true then guess
  else guess - 1

/-- The neighbours of the middle on the grid `10 ^ exponent`: the one below it and the one above. -/
def Interval.neighbours (i : Interval) (exponent : Int) : Decimal × Decimal :=
  let d :=
    if 0 ≤ exponent then i.middle / (i.den * Nat.pow 10 exponent.toNat)
    else i.middle * Nat.pow 10 (-exponent).toNat / i.den
  (⟨d, exponent⟩, ⟨d + 1, exponent⟩)

/-- Which of two decimals is chosen that stand equally far from a double: the one whose last digit
is even, or the one farther from zero. -/
inductive Tie
  | even
  | away
  deriving DecidableEq, Repr

/-- The one of two neighbours, the lower given first, that a tie goes to. -/
def Tie.choose (tie : Tie) (a b : Decimal) : Decimal :=
  match tie with
  | .even => if a.digits % 2 = 0 then a else b
  | .away => b

def Interval.nearer (i : Interval) (tie : Tie) (a b : Decimal) : Decimal :=
  let centre : Decimal := ⟨10 * a.digits + 5, a.exponent - 1⟩
  if centre.below i.middle i.den false then b
  else if centre.above i.middle i.den false then a
  else tie.choose a b

/-- The decimal on the grid that rounds to the double, if there is one. -/
def Interval.onGrid? (i : Interval) (tie : Tie) (exponent : Int) : Option Decimal :=
  let (a, b) := i.neighbours exponent
  match i.holds a, i.holds b with
  | true, true => some (i.nearer tie a b)
  | true, false => some a
  | false, true => some b
  | false, false => none

/-- The first grid with a hit, from the one given on, for at most `fuel` finer grids. -/
def Interval.search (i : Interval) (tie : Tie) : Nat → Int → Decimal
  | 0, e => (i.neighbours e).1
  | fuel + 1, e => (i.onGrid? tie e).getD (i.search tie fuel (e - 1))

/-- The shortest decimal that rounds to `mantissa · 2 ^ exponent`, and of several the nearest. -/
def shortest (tie : Tie) (mantissa : Nat) (exponent : Int) : Decimal :=
  if mantissa = 0 then ⟨0, 0⟩
  else
    let i := interval mantissa exponent
    (i.search tie 17 (leadingExponent i.middle i.den)).strip 20

end HttpService.Binary64
