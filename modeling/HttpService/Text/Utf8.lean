/-!
# UTF-8

Text as bytes, and bytes as text.  `encode` is the usual encoding.  A reader `scan` walks over
arbitrary bytes and gives a character for each well-formed sequence and `none` for each longest
ill-formed stretch; `decode?` accepts only bytes without such a stretch, and `decodeLossy` puts
one replacement character in its place.
-/

namespace HttpService

abbrev Bytes := List UInt8

namespace Utf8

def encode (cs : List Char) : Bytes :=
  cs.flatMap String.utf8EncodeChar

def size : List Char → Nat
  | [] => 0
  | c :: cs => c.utf8Size + size cs

/-- A sequence that has begun: its bits so far, the bounds of the next byte, and how many bytes
come after that one. -/
structure Begun where
  bits : Nat
  low : Nat
  high : Nat
  more : Nat

/-- What a byte says when no sequence has begun. -/
inductive Lead
  | complete (c : Char)
  | begun (s : Begun)
  | invalid

/-- The first byte of a sequence fixes its length and the bounds of its second byte, which rule
out overlong forms, surrogates and numbers above the last code point. -/
def lead (b : Nat) : Lead :=
  if b < 0x80 then .complete (Char.ofNat b)
  else if b < 0xC2 then .invalid
  else if b < 0xE0 then .begun ⟨b - 0xC0, 0x80, 0xBF, 0⟩
  else if b = 0xE0 then .begun ⟨0, 0xA0, 0xBF, 1⟩
  else if b = 0xED then .begun ⟨0x0D, 0x80, 0x9F, 1⟩
  else if b < 0xF0 then .begun ⟨b - 0xE0, 0x80, 0xBF, 1⟩
  else if b = 0xF0 then .begun ⟨0, 0x90, 0xBF, 2⟩
  else if b < 0xF4 then .begun ⟨b - 0xF0, 0x80, 0xBF, 2⟩
  else if b = 0xF4 then .begun ⟨4, 0x80, 0x8F, 2⟩
  else .invalid

/-- What is read so far and the sequence that has begun, after a first byte. -/
def start (n : Nat) : List (Option Char) × Option Begun :=
  match lead n with
  | .complete c => ([some c], none)
  | .begun s => ([], some s)
  | .invalid => ([none], none)

/-- The same after a byte that may continue a sequence.  A byte that does not is read again as a
first byte. -/
def step (state : Option Begun) (n : Nat) : List (Option Char) × Option Begun :=
  match state with
  | none => start n
  | some s =>
    if s.low ≤ n ∧ n ≤ s.high then
      let bits := s.bits * 64 + (n - 0x80)
      match s.more with
      | 0 => ([some (Char.ofNat bits)], none)
      | more + 1 => ([], some ⟨bits, 0x80, 0xBF, more⟩)
    else (none :: (start n).1, (start n).2)

/-- Reads bytes with a sequence possibly begun: a character for each whole sequence, `none` for
each stretch that is none. -/
def scan : Option Begun → Bytes → List (Option Char)
  | none, [] => []
  | some _, [] => [none]
  | state, b :: rest =>
    let (read, next) := step state b.toNat
    read ++ scan next rest

def decode? (bytes : Bytes) : Option (List Char) :=
  (scan none bytes).mapM id

/-- The text of any bytes: each longest ill-formed stretch becomes one U+FFFD. -/
def decodeLossy (bytes : Bytes) : List Char :=
  (scan none bytes).map fun c => c.getD '\uFFFD'

end Utf8

end HttpService
