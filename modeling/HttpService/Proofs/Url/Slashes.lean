import HttpService.Proofs.Text.Joining
import HttpService.Proofs.Url.Directory
import Mathlib.Data.List.Flatten

/-!
# What a path stands for after it was read

A reader parts a path at slashes of both kinds and writes it out with one (`straighten`); dot
segments are resolved away.  So what a path stands for can only become less
(`length_decodeText_resolveSegments_le`), and where no segment between two slashes is a dot
segment, it stays the same exactly when there is no backslash
(`decodeText_resolveSegments_eq_iff`).
-/

namespace HttpService.Url

open Percent (decodeText)
open scoped List

/-! ## Slashes -/

/-- A character of a path as it is written out: a backslash counts as a slash. -/
def straighten (c : Char) : Char :=
  if isSlash c then '/' else c

theorem segmentChars_splitAll (cs : List Char) :
    segmentChars (Text.splitAll isSlash cs) = '/' :: cs.map straighten := by
  induction cs with
  | nil => rfl
  | cons c cs ih =>
    by_cases hc : isSlash c = true
    · rw [Text.splitAll, if_pos hc, segmentChars_cons, ih, List.map_cons, straighten, if_pos hc]
      rfl
    · cases hs : Text.splitAll isSlash cs with
      | nil => exact absurd hs (Text.splitAll_ne_nil isSlash cs)
      | cons s l =>
        rw [hs, segmentChars_cons, List.cons_append, List.cons.injEq] at ih
        rw [Text.splitAll, if_neg hc, hs, List.map_cons, straighten, if_neg hc, ← ih.2]
        rfl

theorem map_straighten_eq_self {cs : List Char} (h : '\\' ∉ cs) : cs.map straighten = cs := by
  refine List.map_congr_left (fun c hc => ?_) |>.trans (List.map_id cs)
  have hne : c ≠ '\\' := fun he => h (he ▸ hc)
  unfold straighten
  split
  · next hs =>
    simp only [isSlash, Bool.or_eq_true, beq_iff_eq, hne, or_false] at hs
    exact hs.symm
  · rfl

theorem decodeText_append_slash (front back : List Char) :
    decodeText (front ++ '/' :: back) = decodeText front ++ 0x2F :: decodeText back :=
  Percent.decodeText_append_cons rfl (by decide) front back

theorem decodeText_append_backslash (front back : List Char) :
    decodeText (front ++ '\\' :: back) = decodeText front ++ 0x5C :: decodeText back :=
  Percent.decodeText_append_cons rfl (by decide) front back

/-- A slash for a backslash is one byte for another. -/
theorem length_decodeText_map_straighten (cs : List Char) :
    (decodeText (cs.map straighten)).length = (decodeText cs).length := by
  induction hn : cs.length using Nat.strongRecOn generalizing cs with
  | ind n ih =>
    by_cases h : '\\' ∈ cs
    · obtain ⟨front, back, rfl, hfront⟩ := List.eq_append_cons_of_mem h
      have hback := ih back.length (by simp at hn; omega) back rfl
      rw [List.map_append, List.map_cons, map_straighten_eq_self hfront,
        show straighten '\\' = '/' from rfl, decodeText_append_slash, decodeText_append_backslash,
        List.length_append, List.length_append, List.length_cons, List.length_cons, hback]
    · rw [map_straighten_eq_self h]

/-- Backslashes are seen in what a text stands for. -/
theorem decodeText_map_straighten_eq_iff (cs : List Char) :
    decodeText (cs.map straighten) = decodeText cs ↔ '\\' ∉ cs := by
  refine ⟨fun h hmem => ?_, fun h => by rw [map_straighten_eq_self h]⟩
  obtain ⟨front, back, rfl, hfront⟩ := List.eq_append_cons_of_mem hmem
  rw [List.map_append, List.map_cons, map_straighten_eq_self hfront,
    show straighten '\\' = '/' from rfl, decodeText_append_slash, decodeText_append_backslash] at h
  have hslash := (List.cons.inj (List.append_cancel_left h)).1
  revert hslash
  decide

/-! ## Segments -/

theorem decodeText_segmentChars (l : List (List Char)) :
    decodeText (segmentChars l) = l.flatMap fun s => 0x2F :: decodeText s := by
  induction l with
  | nil => rfl
  | cons s l ih =>
    have hjoins : ¬ Percent.Joins ('/' :: s) (segmentChars l) := by
      cases l with
      | nil => exact Percent.not_joins_nil_right _
      | cons t l => exact Percent.not_joins_cons rfl _ _
    rw [segmentChars_cons, Percent.decodeText_append hjoins, ih, List.flatMap_cons,
      ← List.nil_append ('/' :: s), decodeText_append_slash]
    rfl

theorem decodeText_segmentChars_append (l l' : List (List Char)) :
    decodeText (segmentChars (l ++ l'))
      = decodeText (segmentChars l) ++ decodeText (segmentChars l') := by
  simp only [decodeText_segmentChars, List.flatMap_append]

theorem decodeText_segmentChars_map_encode (l : List (List Char)) :
    decodeText (segmentChars (l.map (Percent.encode inPath))) = decodeText (segmentChars l) := by
  simp only [decodeText_segmentChars, List.flatMap_map, decodeText_encode_inPath]

theorem sublist_decodeText_segmentChars {l l' : List (List Char)} (h : l <+ l') :
    decodeText (segmentChars l) <+ decodeText (segmentChars l') := by
  simp only [decodeText_segmentChars]
  exact h.flatMap _

theorem shorten_suffix (done : List (List Char)) : shorten done <:+ done := by
  unfold shorten
  split
  · exact List.suffix_refl _
  · split
    · exact List.suffix_refl _
    · exact List.suffix_cons _ _

/-- **Resolving segments only takes away** from what they stand for. -/
theorem sublist_decodeText_resolveSegments (segs : List (List Char)) :
    ∀ dirs, decodeText (segmentChars (resolveSegments dirs segs))
      <+ decodeText (segmentChars (dirs.reverse ++ segs)) := by
  induction segs with
  | nil =>
    intro dirs
    rw [resolveSegments, List.append_nil]
  | cons s rest ih =>
    intro dirs
    -- A dot segment goes, with the directory above it or alone; at the end its slash stays.
    have hdot {dirs' : List (List Char)} (h : dirs' <:+ dirs) :
        decodeText (segmentChars
            (resolveSegments (if rest.isEmpty then [] :: dirs' else dirs') rest))
          <+ decodeText (segmentChars (dirs.reverse ++ s :: rest)) := by
      have hdirs : dirs'.reverse <+ dirs.reverse := (List.reverse_sublist.mpr h.sublist)
      refine (ih _).trans ?_
      cases rest with
      | nil =>
        simp only [List.isEmpty_nil, if_true, List.reverse_cons, List.append_nil,
          decodeText_segmentChars_append]
        refine (sublist_decodeText_segmentChars hdirs).append ?_
        simp only [decodeText_segmentChars, List.flatMap_cons, List.flatMap_nil, List.append_nil]
        exact (List.nil_sublist _).cons_cons 0x2F
      | cons t rest =>
        simp only [List.isEmpty_cons, Bool.false_eq_true, if_false]
        exact sublist_decodeText_segmentChars
          (hdirs.append (List.sublist_cons_self s (t :: rest)))
    rw [resolveSegments]
    split
    · exact hdot (shorten_suffix dirs)
    · split
      · exact hdot (List.suffix_refl dirs)
      · have hkept : decodeText (segmentChars
              ((Percent.encode inPath s :: dirs).reverse ++ rest))
            = decodeText (segmentChars (dirs.reverse ++ s :: rest)) := by
          simp only [decodeText_segmentChars, List.reverse_cons, List.append_assoc,
            List.singleton_append, List.flatMap_append, List.flatMap_cons,
            decodeText_encode_inPath]
        exact hkept ▸ ih _

theorem resolveSegments_eq {segs : List (List Char)}
    (h : ∀ s ∈ segs, isDoubleDot s = false ∧ isSingleDot s = false) (dirs : List (List Char)) :
    resolveSegments dirs segs = dirs.reverse ++ segs.map (Percent.encode inPath) := by
  induction segs generalizing dirs with
  | nil => simp [resolveSegments]
  | cons s rest ih =>
    rw [List.forall_mem_cons] at h
    simp [resolveSegments, h.1, ih h.2]

/-! ## Paths -/

section

variable (dirs : List (List Char)) (path : List Char)

/-- What the segments of a path stand for behind some directories, when nothing is resolved. -/
theorem decodeText_segmentChars_splitAll :
    decodeText (segmentChars (dirs.reverse ++ Text.splitAll isSlash path))
      = decodeText (segmentChars (dirs.reverse ++ [[]])) ++ decodeText (path.map straighten) := by
  rw [decodeText_segmentChars_append, decodeText_segmentChars_append, segmentChars_splitAll,
    List.append_assoc]
  congr 1
  exact decodeText_append_slash [] (path.map straighten)

theorem sublist_decodeText_pathSegments :
    decodeText (segmentChars
        (resolveSegments dirs (Text.splitAll isSlash (Percent.encode inPath path))))
      <+ decodeText (segmentChars (dirs.reverse ++ [[]])) ++ decodeText (path.map straighten) := by
  rw [← decodeText_segmentChars_splitAll, splitAll_encode_inPath,
    decodeText_segmentChars_append, ← decodeText_segmentChars_map_encode (Text.splitAll _ _),
    ← decodeText_segmentChars_append]
  exact sublist_decodeText_resolveSegments _ dirs

/-- **A path never stands for more once it was read.** -/
theorem length_decodeText_resolveSegments_le :
    (decodeText (segmentChars
        (resolveSegments dirs (Text.splitAll isSlash (Percent.encode inPath path))))).length
      ≤ (decodeText (segmentChars (dirs.reverse ++ [[]])) ++ decodeText path).length := by
  have h := (sublist_decodeText_pathSegments dirs path).length_le
  rwa [List.length_append, length_decodeText_map_straighten, ← List.length_append] at h

variable {dirs path}

/-- **A path that was read stands for the same exactly when it has no backslash**, if no segment
between two slashes is a dot segment. -/
theorem decodeText_resolveSegments_eq_iff
    (hdots : ∀ s ∈ Text.splitAll (· == '/') path, isDoubleDot s = false ∧ isSingleDot s = false) :
    decodeText (segmentChars
        (resolveSegments dirs (Text.splitAll isSlash (Percent.encode inPath path))))
      = decodeText (segmentChars (dirs.reverse ++ [[]])) ++ decodeText path ↔ '\\' ∉ path := by
  constructor
  · intro h
    have hsub := sublist_decodeText_pathSegments dirs path
    have heq := hsub.eq_of_length (by
      rw [h, List.length_append, List.length_append, length_decodeText_map_straighten])
    rw [h] at heq
    exact (decodeText_map_straighten_eq_iff path).mp (List.append_cancel_left heq).symm
  · intro h
    have hsep : Text.splitAll isSlash path = Text.splitAll (· == '/') path :=
      Text.splitAll_congr fun c hc => by
        have hne : c ≠ '\\' := fun he => h (he ▸ hc)
        simp [isSlash, hne]
    have hescaped : ∀ s ∈ (Text.splitAll isSlash path).map (Percent.encode inPath),
        isDoubleDot s = false ∧ isSingleDot s = false := by
      intro s hs
      obtain ⟨t, ht, rfl⟩ := List.mem_map.mp hs
      rw [isDoubleDot_encode, isSingleDot_encode]
      exact hdots t (hsep ▸ ht)
    have hwritten := decodeText_segmentChars_splitAll dirs path
    rw [map_straighten_eq_self h, decodeText_segmentChars_append] at hwritten
    rw [splitAll_encode_inPath, resolveSegments_eq hescaped, decodeText_segmentChars_append,
      decodeText_segmentChars_map_encode, decodeText_segmentChars_map_encode, hwritten]

end

end HttpService.Url
