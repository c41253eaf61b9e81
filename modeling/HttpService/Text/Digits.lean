/-!
# Decimal digits

The digits of a number, most significant first, and the number that digits stand for.
-/

namespace HttpService.Text

def digitsOf (n : Nat) : List Char :=
  Nat.toDigits 10 n

def natOfDigits (cs : List Char) : Nat :=
  cs.foldl (fun n c => n * 10 + (c.toNat - 48)) 0

/-- Digits after a minus sign, or without one. -/
def signed (negative : Bool) (cs : List Char) : List Char :=
  if negative then '-' :: cs else cs

end HttpService.Text
