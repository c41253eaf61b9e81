import HttpService.Text.Utf8

/-!
# Percent encoding

A byte is written as `%` and two upper-case hexadecimal digits.  `encode` escapes every byte of a
character that is not ASCII, and every ASCII character of a given class; `decode` undoes each
escape and leaves a `%` that begins none alone.
-/

namespace HttpService.Percent

/-- The upper-case hexadecimal digit of a number below sixteen. -/
def upperHex (n : Nat) : Char :=
  if n < 10 then Char.ofNat (48 + n) else Char.ofNat (55 + n)

def hexValue? (b : UInt8) : Option UInt8 :=
  if 48 ≤ b ∧ b ≤ 57 then some (b - 48)
  else if 65 ≤ b ∧ b ≤ 70 then some (b - 55)
  else if 97 ≤ b ∧ b ≤ 102 then some (b - 87)
  else none

def escape (b : UInt8) : List Char :=
  ['%', upperHex (b.toNat / 16), upperHex (b.toNat % 16)]

/-- A character as it is, or each of its bytes escaped. -/
def encodeChar (escaped : Char → Bool) (c : Char) : List Char :=
  if c.toNat < 0x80 && !escaped c then [c] else (String.utf8EncodeChar c).flatMap escape

/-- Text with the characters of a class, and all that are not ASCII, escaped. -/
def encode (escaped : Char → Bool) (cs : List Char) : List Char :=
  cs.flatMap (encodeChar escaped)

/-- Each `%` and the two hexadecimal digits after it become the byte they stand for. -/
def decode : Bytes → Bytes
  | [] => []
  | b :: rest =>
    if b = 0x25 then
      match rest with
      | x :: y :: more =>
        match hexValue? x, hexValue? y with
        | some h, some l => (h * 16 + l) :: decode more
        | _, _ => b :: decode (x :: y :: more)
      | short => b :: decode short
    else b :: decode rest

/-- The bytes a text stands for once its escapes are undone. -/
def decodeText (cs : List Char) : Bytes :=
  decode (Utf8.encode cs)

def isControl (c : Char) : Bool :=
  c.toNat < 0x20 || c.toNat == 0x7F

end HttpService.Percent
