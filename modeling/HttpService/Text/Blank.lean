/-!
# White space

The characters that count as white space in a type expression, a media type and a setting, and
the trimming that goes with them.  The class is Unicode's `White_Space` property, so it is wider
than ASCII: the no-break space and the ideographic space belong to it.

`trim` keeps what stands between the first and the last character outside the class.
-/

namespace HttpService.Text

/-- Unicode's `White_Space` property. -/
def isBlank (c : Char) : Bool :=
  let n := c.toNat
  (9 ≤ n && n ≤ 13) || n == 0x20 || n == 0x85 || n == 0xA0 || n == 0x1680 ||
    (0x2000 ≤ n && n ≤ 0x200A) || n == 0x2028 || n == 0x2029 || n == 0x202F || n == 0x205F ||
    n == 0x3000

/-- The list without its longest ending inside the class `p`. -/
def dropEndWhile {α : Type} (p : α → Bool) (l : List α) : List α :=
  (l.reverse.dropWhile p).reverse

/-- The list without its longest ends inside the class `p`, on both sides. -/
def trimBy {α : Type} (p : α → Bool) (l : List α) : List α :=
  dropEndWhile p (l.dropWhile p)

def trim (cs : List Char) : List Char :=
  trimBy isBlank cs

def trimEnd (cs : List Char) : List Char :=
  dropEndWhile isBlank cs

end HttpService.Text
