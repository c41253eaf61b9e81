import HttpService.Text.Cut
import HttpService.Text.Percent

/-!
# Traversal segments

A path segment that is `.` or `..` once its percent escapes are undone would be resolved away by
a URL reader and so lead out of the path it stands in.  A template is tested segment by segment;
a value that goes into a path is decoded as a whole first, so that an encoded slash hides
nothing.
-/

namespace HttpService.Template

/-- Whether a segment stands for the current or the parent directory. -/
def isTraversalSegment (segment : List Char) : Bool :=
  let decoded := Percent.decodeText segment
  decoded == [0x2E] || decoded == [0x2E, 0x2E]

def segments (cs : List Char) : List (List Char) :=
  Text.splitAll (· == '/') cs

def traversalSegment? (cs : List Char) : Option (List Char) :=
  (segments cs).find? isTraversalSegment

/-- The first traversal segment of a value that goes into a path, after decoding. -/
def valueTraversalSegment? (cs : List Char) : Option (List Char) :=
  (segments (Utf8.decodeLossy (Percent.decodeText cs))).find? fun s => s == ['.'] || s == ['.', '.']

end HttpService.Template
