import HttpService.Lexical
import HttpService.Proofs.Body.Head
import HttpService.Proofs.Text.Percent

/-!
# A receiver of multipart bodies

A receiver of a multipart body knows nothing but the boundary.  `Multipart.read` is such a
receiver, by the grammar and without regard to what a writer may have meant: after a delimiter it
takes header lines up to the first empty one, then everything up to the next delimiter, and it
accepts only what ends with the closing delimiter.  Each part that it takes is shorter than what
was left of the body, so it comes to an end.

Lines and bodies both end at the first mark behind them.  A mark whose first element stands nowhere
else in it cannot begin earlier and reach into itself (`dropInfix?_append_mark`).
-/

namespace HttpService

structure ReceivedPart where
  fields : List HeaderLine
  body : Bytes
  deriving DecidableEq, Repr

/-! ## The first mark in a list -/

section Mark

variable {α : Type} [BEq α] [LawfulBEq α]

/-- A mark behind a text that does not hold it is the first one, if nothing in the mark is like its
first element. -/
theorem dropInfix?_append_mark {a : α} {mark text : List α} (hmark : a ∉ mark)
    (htext : ¬ (a :: mark) <:+: text) (rest : List α) :
    (text ++ ((a :: mark) ++ rest)).dropInfix? (a :: mark) = some (text, rest) := by
  rw [List.dropInfix?_eq_some_iff]
  refine ⟨⟨a :: mark, by simp, by simp⟩, ?_⟩
  intro before found after hsplit hfound
  obtain rfl : found = a :: mark := by simpa using hfound
  by_contra hshort
  -- an earlier mark begins in the text, so it ends in the text or reaches the other mark
  rw [List.append_assoc, List.append_eq_append_iff] at hsplit
  rcases hsplit with ⟨more, hbefore, -⟩ | ⟨more, htail, hover⟩
  · exact hshort (by simp [hbefore])
  · rw [List.append_eq_append_iff] at hover
    rcases hover with ⟨more', hwhole, -⟩ | ⟨more', hpart, hnext⟩
    · exact htext ⟨before, more', by rw [htail, hwhole, List.append_assoc]⟩
    · cases more with
      | nil => exact hshort (by simp [htail])
      | cons b more =>
        rw [List.cons_append, List.cons.injEq] at hpart
        cases more' with
        | nil =>
          rw [List.append_nil] at hpart
          exact htext ⟨before, [], by rw [htail, hpart.1, hpart.2, List.append_nil]⟩
        | cons c more' =>
          rw [List.cons_append, List.cons_append, List.cons.injEq] at hnext
          exact hmark (by rw [hpart.2, hnext.1]; simp)

theorem length_lt_of_dropInfix? {text mark before after : List α} (hmark : mark ≠ [])
    (h : text.dropInfix? mark = some (before, after)) : after.length < text.length := by
  obtain ⟨⟨found, rfl, hfound⟩, -⟩ := List.dropInfix?_eq_some_iff.mp h
  obtain rfl := eq_of_beq hfound
  have := List.length_pos_iff.mpr hmark
  simp only [List.length_append]
  omega

end Mark

/-! ## The receiver -/

namespace Multipart

/-- What ends the body of a part. -/
def mark (boundary : String) : Bytes :=
  Utf8.encode (crlf ++ Part.delimiterLine boundary)

/-- The lines up to the first empty one, and what follows that. -/
def readLines (bytes : Bytes) : Option (List Bytes × Bytes) :=
  match _ : bytes.dropInfix? (Utf8.encode crlf) with
  | none => none
  | some (line, rest) =>
    if line = [] then some ([], rest)
    else (readLines rest).map fun r => (line :: r.1, r.2)
termination_by bytes.length
decreasing_by
  exact length_lt_of_dropInfix? (by decide) ‹bytes.dropInfix? (Utf8.encode crlf) = some (line, rest)›

theorem readLines_of_eq_some {bytes line rest : Bytes}
    (h : bytes.dropInfix? (Utf8.encode crlf) = some (line, rest)) :
    readLines bytes = if line = [] then some ([], rest)
      else (readLines rest).map fun r => (line :: r.1, r.2) := by
  rw [readLines]
  split
  · next hnone => cases hnone.symm.trans h
  · next hsome =>
    obtain ⟨rfl, rfl⟩ := Prod.mk.inj (Option.some.inj (hsome.symm.trans h))
    rfl

/-- A header line: a name, a colon and a space, and a value. -/
def readField (line : Bytes) : Option HeaderLine := do
  let text ← Utf8.decode? line
  let (name, after) ← Text.cut (· == ':') text
  let value ← after.dropPrefix? [' ']
  return ⟨String.ofList name, String.ofList value⟩

/-- The part after a delimiter, and what follows the next delimiter. -/
def readPart (boundary : String) (bytes : Bytes) : Option (ReceivedPart × Bytes) := do
  let afterDelimiter ← bytes.dropPrefix? (Utf8.encode crlf)
  let (lines, content) ← readLines afterDelimiter
  let fields ← lines.mapM readField
  let (body, rest) ← content.dropInfix? (mark boundary)
  return (⟨fields, body⟩, rest)

theorem mark_ne_nil (boundary : String) : mark boundary ≠ [] := by
  simp [mark, crlf, Utf8.encode_eq_nil]

theorem length_le_of_readLines {bytes rest : Bytes} {lines : List Bytes}
    (h : readLines bytes = some (lines, rest)) : rest.length ≤ bytes.length := by
  fun_induction readLines bytes generalizing lines with
  | case1 bytes hcut => cases h
  | case2 bytes rest' hcut =>
    obtain ⟨-, rfl⟩ := Prod.mk.inj (Option.some.inj h)
    exact Nat.le_of_lt (length_lt_of_dropInfix? (by decide) hcut)
  | case3 bytes line rest' hcut hline ih =>
    obtain ⟨r, hr, heq⟩ := Option.map_eq_some_iff.mp h
    obtain ⟨-, rfl⟩ := Prod.mk.inj heq
    have := length_lt_of_dropInfix? (by decide) hcut
    have := ih hr
    omega

theorem length_lt_of_readPart {boundary : String} {bytes rest : Bytes} {part : ReceivedPart}
    (h : readPart boundary bytes = some (part, rest)) : rest.length < bytes.length := by
  simp only [readPart, Option.bind_eq_bind, Option.bind_eq_some_iff, Option.pure_def,
    Option.some.injEq, Prod.mk.injEq] at h
  obtain ⟨after, hafter, ⟨lines, content⟩, hlines, fields, -, ⟨body, next⟩, hbody, -, rfl⟩ := h
  obtain ⟨found, rfl, -⟩ := List.dropPrefix?_eq_some_iff.mp hafter
  have hcontent : content.length ≤ after.length := length_le_of_readLines hlines
  have hnext : next.length < content.length := length_lt_of_dropInfix? (mark_ne_nil boundary) hbody
  show next.length < _
  rw [List.length_append]
  omega

/-- The parts after a delimiter, up to the closing one, behind which nothing may follow. -/
def readParts (boundary : String) (bytes : Bytes) : Option (List ReceivedPart) :=
  if bytes = Utf8.encode (['-', '-'] ++ crlf) then some []
  else match _ : readPart boundary bytes with
    | none => none
    | some (part, rest) => (readParts boundary rest).map (part :: ·)
termination_by bytes.length
decreasing_by exact length_lt_of_readPart ‹readPart boundary bytes = some (part, rest)›

theorem readParts_of_eq_some {boundary : String} {bytes rest : Bytes} {part : ReceivedPart}
    (hopen : bytes ≠ Utf8.encode (['-', '-'] ++ crlf))
    (h : readPart boundary bytes = some (part, rest)) :
    readParts boundary bytes = (readParts boundary rest).map (part :: ·) := by
  rw [readParts, if_neg hopen]
  split
  · next hnone => cases hnone.symm.trans h
  · next hsome =>
    obtain ⟨rfl, rfl⟩ := Prod.mk.inj (Option.some.inj (hsome.symm.trans h))
    rfl

def read (boundary : String) (bytes : Bytes) : Option (List ReceivedPart) := do
  let rest ← bytes.dropPrefix? (Utf8.encode (Part.delimiterLine boundary))
  readParts boundary rest

end Multipart

namespace ReceivedPart

def field? (r : ReceivedPart) (name : String) : Option String :=
  (r.fields.find? fun h => Lexical.sameIgnoringCase h.name name).map (·.value)

/-- The name of a part, which stands between quotes. -/
def name? (r : ReceivedPart) : Option String := do
  let disposition ← r.field? "Content-Disposition"
  let after ← disposition.toList.dropPrefix? "form-data; name=\"".toList
  match Text.cut (· == '"') after with
  | some (name, []) => some (String.ofList name)
  | _ => none

def contentType? (r : ReceivedPart) : Option String :=
  r.field? "Content-Type"

def length? (r : ReceivedPart) : Option Nat := do
  let digits ← r.field? "Content-Length"
  if digits.toList ≠ [] ∧ digits.toList.all Char.isDigit then
    some (Text.natOfDigits digits.toList)
  else none

end ReceivedPart

end HttpService
