import HttpService.Proofs.Text.Decoding
import HttpService.Proofs.Url.Slashes

/-!
# Segments before and after decoding

A path is parted at its slashes; decoding it as a whole first only parts it further, at the slashes
that were escaped (`segments_decoded`).  So a dot segment of the path is also one of the decoded
path, and the test of a value is at least as strict as that of a template
(`traversalSegment?_eq_none`).

A template and a reader of URLs agree on what a dot segment is, whether it is told by what it
decodes to, by its six spellings, or by the reader, which keeps every other segment
(`traversalSegments_exact`).
-/

namespace HttpService

namespace Url

/-- The spellings of dot segments in small letters, those of one dot first. -/
def dotSpellings : List String :=
  [".", "%2e", "..", ".%2e", "%2e.", "%2e%2e"]

/-- A segment that a reader of paths keeps: wherever it stands, it goes below the directories that
are already entered. -/
def IsKept (s : List Char) : Prop :=
  ∀ dirs rest,
    resolveSegments dirs (s :: rest) = resolveSegments (Percent.encode inPath s :: dirs) rest

theorem mem_dotSpellings_iff {s : List Char} :
    String.ofList (s.map Char.toLower) ∈ dotSpellings ↔
      (isSingleDot s || isDoubleDot s) = true := by
  have hspelled (t : String) :
      String.ofList (s.map Char.toLower) = t ↔ s.map Char.toLower = t.toList := by
    rw [← String.toList_inj, String.toList_ofList]
  simp only [dotSpellings, List.mem_cons, List.not_mem_nil, or_false, hspelled, isSingleDot,
    isDoubleDot, Bool.or_eq_true, beq_iff_eq, or_assoc]
  rfl

/-- A path of one dot segment is a path that ends in its directory. -/
theorem resolveSegments_dot {s : List Char} (h : (isSingleDot s || isDoubleDot s) = true) :
    resolveSegments [] [s] = [[]] := by
  rw [resolveSegments]
  by_cases hdouble : isDoubleDot s = true
  · rw [if_pos hdouble]
    rfl
  · have hsingle : isSingleDot s = true := by simpa [hdouble] using h
    rw [if_neg hdouble, if_pos hsingle]
    rfl

/-- **A reader of paths keeps every segment but the dot segments.** -/
theorem isKept_iff {s : List Char} : IsKept s ↔ (isSingleDot s || isDoubleDot s) = false := by
  constructor
  · intro hkept
    by_contra hdot
    rw [Bool.not_eq_false] at hdot
    have hempty : [[]] = [Percent.encode inPath s] :=
      (resolveSegments_dot hdot).symm.trans (hkept [] [])
    -- only the empty segment is written as nothing, and it is no dot segment
    cases s with
    | nil => cases hdot
    | cons c s =>
      rw [Percent.encode_cons, List.cons.injEq, eq_comm, List.append_eq_nil_iff] at hempty
      exact Percent.encodeChar_ne_nil _ _ hempty.1.1
  · intro h dirs rest
    obtain ⟨hsingle, hdouble⟩ := Bool.or_eq_false_iff.mp h
    rw [resolveSegments, hsingle, hdouble]
    rfl

end Url

namespace Template

open Percent (decodeText)
open Utf8 (decodeLossy)

/-- **The segments of a decoded path are those of its decoded segments.** -/
theorem segments_decoded (cs : List Char) :
    segments (decodeLossy (decodeText cs))
      = (segments cs).flatMap fun s => segments (decodeLossy (decodeText s)) := by
  induction hn : cs.length using Nat.strongRecOn generalizing cs with
  | ind n ih =>
    by_cases hslash : '/' ∈ cs
    · obtain ⟨front, back, rfl, hfront⟩ := List.eq_append_cons_of_mem hslash
      have hsingle : segments front = [front] :=
        Text.splitAll_eq_singleton fun c hc => by
          simpa using fun he : c = '/' => hfront (he ▸ hc)
      have hparts : segments (front ++ '/' :: back) = front :: segments back := by
        rw [segments, Text.splitAll_append_cons rfl]
        exact congrArg (· ++ segments back) hsingle
      have hback := ih back.length (by simp at hn; omega) back rfl
      rw [hparts, List.flatMap_cons, ← hback, Url.decodeText_append_slash,
        Utf8.decodeLossy_append_ascii (by decide)]
      exact Text.splitAll_append_cons rfl _ _
    · have hsingle : segments cs = [cs] :=
        Text.splitAll_eq_singleton fun c hc => by
          simpa using fun he : c = '/' => hslash (he ▸ hc)
      rw [hsingle, List.flatMap_singleton]

/-- **A path that is let through as a value is let through as a template.** -/
theorem traversalSegment?_eq_none {cs : List Char} (h : valueTraversalSegment? cs = none) :
    traversalSegment? cs = none := by
  rw [valueTraversalSegment?, segments_decoded, List.find?_eq_none] at h
  refine List.find?_eq_none.mpr fun s hs htraversal => ?_
  simp only [isTraversalSegment, Bool.or_eq_true, beq_iff_eq] at htraversal
  rcases htraversal with hdot | hdots
  · refine h ['.'] (List.mem_flatMap.mpr ⟨s, hs, ?_⟩) rfl
    rw [hdot]
    decide
  · refine h ['.', '.'] (List.mem_flatMap.mpr ⟨s, hs, ?_⟩) rfl
    rw [hdots]
    decide

/-- **What a traversal segment is**: a segment that is spelled in one of six ways but for the case
of its letters, and so one that a reader of URLs takes for a dot or two and does not keep.  A path
that is let through as a value has none.  Behind both tests every escape is undone, and a `%` that
begins none is left alone. -/
theorem traversalSegments_exact :
    (∀ s : List Char,
      (isTraversalSegment s = true ↔ String.ofList (s.map Char.toLower) ∈ Url.dotSpellings) ∧
      (isTraversalSegment s = true ↔ Url.isSingleDot s = true ∨ Url.isDoubleDot s = true) ∧
      (isTraversalSegment s = true ↔ ¬ Url.IsKept s)) ∧
    (∀ cs : List Char, valueTraversalSegment? cs = none → traversalSegment? cs = none) ∧
    ∀ bs out : Bytes, Percent.decode bs = out ↔ Percent.Undone bs out := by
  refine ⟨fun s => ?_, fun cs => traversalSegment?_eq_none, fun bs out => Percent.decode_eq_iff⟩
  rw [Url.isTraversalSegment_eq]
  exact ⟨Url.mem_dotSpellings_iff.symm, Bool.or_eq_true_iff,
    by rw [Url.isKept_iff, Bool.not_eq_false]⟩

/-- A segment with an escape of either case, and a path whose escapes are those of escapes. -/
theorem traversalSegments_exact_escaped :
    isTraversalSegment "%2E.".toList = true ∧ isTraversalSegment "%2e%2".toList = false ∧
      valueTraversalSegment? "a/%252e./b".toList = none ∧
      traversalSegment? "a/%252e./b".toList = none := by
  have hvalue : valueTraversalSegment? "a/%252e./b".toList = none := by decide +kernel
  refine ⟨(traversalSegments_exact.1 _).1.mpr (by decide +kernel), ?_, hvalue,
    traversalSegments_exact.2.1 _ hvalue⟩
  rw [Bool.eq_false_iff]
  exact fun h => absurd ((traversalSegments_exact.1 _).1.mp h) (by decide +kernel)

/-- The test of a value is stricter: an escaped slash hides a dot segment from that of a
template. -/
example : traversalSegment? "a%2F..".toList = none ∧
    valueTraversalSegment? "a%2F..".toList = some "..".toList := by
  decide +kernel

end Template

end HttpService
