import HttpService.Text.Digits

/-!
# Double-precision numbers

A double is its 64 bits, so that two doubles are equal exactly when they have the same bits and
every operation is a function on natural numbers.  `view` reads the bits as a sign, a whole
number and a power of two; `ofRatio` goes the other way and rounds a quotient to the nearest
double, a tie going to the even one, with gradual underflow and with infinity above the range.
-/

namespace HttpService

structure Binary64 where
  bits : UInt64
  deriving DecidableEq, Repr, Inhabited

namespace Binary64

/-- What the bits stand for: `finite s m q` is `m · 2 ^ q`, negative when `s` is set. -/
inductive View
  | nan
  | infinite (negative : Bool)
  | finite (negative : Bool) (mantissa : Nat) (exponent : Int)
  deriving DecidableEq, Repr

/-- The sign, the whole number and the power of two in the bits. -/
def view (x : Binary64) : View :=
  let n := x.bits.toNat
  let negative := n / Nat.pow 2 63 % 2 == 1
  let e : Nat := n / Nat.pow 2 52 % Nat.pow 2 11
  let f : Nat := n % Nat.pow 2 52
  if e = 2047 then (if f = 0 then .infinite negative else .nan)
  else if e = 0 then .finite negative f (-1074)
  else .finite negative (Nat.pow 2 52 + f) ((e : Int) - 1075)

def ofMagnitude (negative : Bool) (magnitude : Nat) : Binary64 :=
  ⟨UInt64.ofNat (magnitude + if negative then Nat.pow 2 63 else 0)⟩

def zero (negative : Bool) : Binary64 :=
  ofMagnitude negative 0

def infinity (negative : Bool) : Binary64 :=
  ofMagnitude negative (2047 * Nat.pow 2 52)

def nan : Binary64 :=
  ofMagnitude false (2047 * Nat.pow 2 52 + Nat.pow 2 51)

/-- The whole number nearest to a quotient; a tie goes to the even one. -/
def roundDiv (num den : Nat) : Nat :=
  let q := num / den
  let twice := 2 * (num % den)
  if twice < den then q
  else if den < twice then q + 1
  else if q % 2 = 0 then q else q + 1

/-- The quotient as a fraction of `2 ^ q`. -/
def scaled (num den : Nat) (q : Int) : Nat × Nat :=
  if 0 ≤ q then (num, den * Nat.pow 2 q.toNat) else (num * Nat.pow 2 (-q).toNat, den)

/-- The power of two that gives the quotient 53 binary digits, or the least one there is. -/
def unitExponent (num den : Nat) : Int :=
  let rough : Int := max ((Nat.log2 num : Int) - Nat.log2 den - 53) (-1074)
  let s := scaled num den rough
  if Nat.pow 2 53 ≤ s.1 / s.2 then rough + 1 else rough

/-- The double nearest to `num / den`, for a positive `den`. -/
def ofRatio (negative : Bool) (num den : Nat) : Binary64 :=
  if num = 0 then zero negative
  else
    let q := unitExponent num den
    let s := scaled num den q
    let magnitude := (q + 1074).toNat * Nat.pow 2 52 + roundDiv s.1 s.2
    if 2047 * Nat.pow 2 52 ≤ magnitude then infinity negative else ofMagnitude negative magnitude

def ofNat (n : Nat) : Binary64 :=
  ofRatio false n 1

/-- The double nearest to `digits · 10 ^ exponent`.  Beyond these bounds the answer is zero or
infinity whatever the digits are, so no large power is computed. -/
def ofDecimal (negative : Bool) (digits : Nat) (exponent : Int) : Binary64 :=
  if digits = 0 then zero negative
  else
    let top : Int := (Text.digitsOf digits).length + exponent
    if 400 < top then infinity negative
    else if top < -400 then zero negative
    else if 0 ≤ exponent then ofRatio negative (digits * Nat.pow 10 exponent.toNat) 1
    else ofRatio negative digits (Nat.pow 10 (-exponent).toNat)

def isFinite (x : Binary64) : Bool :=
  match x.view with
  | .finite .. => true
  | _ => false

def negate (x : Binary64) : Binary64 :=
  ⟨x.bits ^^^ 0x8000000000000000⟩

def mul (x y : Binary64) : Binary64 :=
  match x.view, y.view with
  | .finite s m p, .finite t n q =>
    let e := p + q
    let negative := s != t
    if 0 ≤ e then ofRatio negative (m * n * Nat.pow 2 e.toNat) 1
    else ofRatio negative (m * n) (Nat.pow 2 (-e).toNat)
  | _, _ => nan

/-- The double nearest to a quotient; both numbers are finite and the second is not zero. -/
def div (x y : Binary64) : Binary64 :=
  match x.view, y.view with
  | .finite s m p, .finite t n q =>
    let e := p - q
    let negative := s != t
    if n = 0 then nan
    else if 0 ≤ e then ofRatio negative (m * Nat.pow 2 e.toNat) n
    else ofRatio negative m (n * Nat.pow 2 (-e).toNat)
  | _, _ => nan

end Binary64

end HttpService
