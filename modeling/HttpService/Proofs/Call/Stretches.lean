import HttpService.Call.Resolution
import HttpService.Proofs.Success
import HttpService.Proofs.Text.Percent

/-!
# Stretches of a completed path

A path with its values put in is a row of stretches: runs of the template's own text, with the
placeholders that have no value, and between them the values.  Each stands for some bytes on its
own: a run for what it is once decoded, a value for its text as it was passed
(`Stretch.decodeText_chars`).
-/

namespace HttpService

namespace Template

/-- A run of a template's own text, or a value. -/
inductive Stretch
  | literal (text : List Char)
  | value (text : List Char)
  deriving DecidableEq, Repr

namespace Stretch

/-- The text of a stretch, as the template has it or as it was passed. -/
def text : Stretch → List Char
  | literal t => t
  | value t => t

/-- What a stretch contributes to the completed path. -/
def chars : Stretch → List Char
  | literal t => t
  | value t => Resolution.escapePercent t

/-- What a stretch stands for on its own. -/
def bytes : Stretch → Bytes
  | literal t => Percent.decodeText t
  | value t => Utf8.encode t

end Stretch

/-- A run of literal text in front of some stretches. -/
def prependLiteral (cs : List Char) : List Stretch → List Stretch
  | .literal t :: rest => .literal (cs ++ t) :: rest
  | rest => .literal cs :: rest

/-- The stretches of pieces, with the values of the placeholders that have one. -/
def stretchesOf (value : String → Option (List Char)) : List Piece → List Stretch
  | [] => []
  | p :: rest =>
    match p.name?.bind value with
    | some v => .value v :: stretchesOf value rest
    | none => prependLiteral p.chars (stretchesOf value rest)

def stretches (value : String → Option (List Char)) (path : List Char) : List Stretch :=
  stretchesOf value (pieces path)

/-! ## What is put into the path -/

theorem flatMap_chars_prependLiteral (cs : List Char) (l : List Stretch) :
    (prependLiteral cs l).flatMap Stretch.chars = cs ++ l.flatMap Stretch.chars := by
  unfold prependLiteral
  split
  · simp [Stretch.chars]
  · rfl

/-- **The stretches end to end are the completed path.** -/
theorem flatMap_chars_stretches (value : String → Option (List Char)) (path : List Char) :
    (stretches value path).flatMap Stretch.chars
      = substitute (fun name => (value name).map Resolution.escapePercent) path := by
  unfold stretches substitute
  induction pieces path with
  | nil => rfl
  | cons p rest ih =>
    rw [stretchesOf, List.flatMap_cons, ← ih, Piece.fill]
    cases hname : p.name? with
    | none => simp [flatMap_chars_prependLiteral]
    | some name =>
      cases hvalue : value name with
      | none => simp [hvalue, flatMap_chars_prependLiteral]
      | some v => simp [hvalue, Stretch.chars]

/-! ## What is stood for -/

/-- **A value comes back as it was passed.** -/
theorem decodeText_escapePercent (cs : List Char) :
    Percent.decodeText (Resolution.escapePercent cs) = Utf8.encode cs := by
  induction cs with
  | nil => rfl
  | cons c cs ih =>
    unfold Percent.decodeText Resolution.escapePercent at *
    rw [List.flatMap_cons, Utf8.encode_append, Utf8.encode_cons, ← ih]
    split
    · next hc =>
      subst hc
      exact Percent.decode_escape 0x25 _
    · next hc =>
      rw [show Utf8.encode [c] = String.utf8EncodeChar c from List.append_nil _]
      exact Percent.decode_append_of_ne (fun b hb => Percent.ne_of_mem_utf8EncodeChar hc hb) _

theorem Stretch.decodeText_chars (s : Stretch) : Percent.decodeText s.chars = s.bytes := by
  cases s with
  | literal t => rfl
  | value t => exact decodeText_escapePercent t

/-- A backslash of a completed path was passed in or stands in the template. -/
theorem Stretch.backslash_mem_chars (s : Stretch) : '\\' ∈ s.chars ↔ '\\' ∈ s.text := by
  cases s with
  | literal t => rfl
  | value t =>
    simp only [chars, text, Resolution.escapePercent, List.mem_flatMap]
    constructor
    · rintro ⟨c, hc, hmem⟩
      split at hmem
      · exact absurd hmem (by decide)
      · exact List.mem_singleton.mp hmem ▸ hc
    · exact fun h => ⟨'\\', h, by simp⟩

end Template

namespace Resolution

/-- The text that a binding puts into the path, as it was passed. -/
def passedText? (b : PathBinding) (args : Arguments) : Option (List Char) :=
  (pathText b.parameter (args.value b.parameter)).toOption.map String.toList

/-- The text that was passed for a placeholder.  Of two bindings the later wins. -/
def passedFor (args : Arguments) : List PathBinding → String → Option (List Char)
  | [], _ => none
  | b :: rest, name =>
    match passedFor args rest name with
    | some v => some v
    | none => if b.placeholder = name then passedText? b args else none

/-- A placeholder gets the text that was passed for it, with its `%` escaped. -/
theorem lookup_pathValues {args : Arguments} {path : List PathBinding}
    {values : List (String × List Char)} (h : pathValues args path = .ok values) (name : String) :
    values.lookup name = (passedFor args path name).map escapePercent := by
  induction path generalizing values with
  | nil =>
    obtain rfl := Except.ok.inj h
    rfl
  | cons b rest ih =>
    simp only [pathValues, pathValue, bind_ok_iff, pure_ok_iff, mapError_ok_iff] at h
    obtain ⟨_, ⟨text, htext, -, -, rfl⟩, later, hlater, rfl⟩ := h
    rw [List.lookup_append, ih hlater, passedFor]
    cases passedFor args rest name with
    | some v => rfl
    | none =>
      by_cases hname : b.placeholder = name
      · subst hname
        simp [passedText?, htext, Except.toOption]
      · simp [Ne.symm hname, hname]

end Resolution

end HttpService
