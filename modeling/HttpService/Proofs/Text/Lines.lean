import HttpService.Proofs.Text.Decoding
import HttpService.Text.Quoted
import Mathlib.Data.List.Basic

/-!
# Lines

A line ends at a line feed.  Texts that are written with a line feed behind each of them take one
line each, and one more for every line feed of their own (`length_lines_flatMap`); so they are read
back as lines exactly when none of them has one (`lines_flatMap_iff`).  A quoted text has none
(`lineFeeds_quoted`), whatever it quotes.
-/

namespace HttpService.Text

/-- The lines of a text.  Behind the last line feed there is a line only if something stands
there. -/
def lines : List Char → List (List Char)
  | [] => []
  | c :: cs =>
    if c = '\n' then [] :: lines cs
    else match lines cs with
      | [] => [[c]]
      | l :: ls => (c :: l) :: ls

def lineFeeds (s : String) : Nat :=
  s.toList.count '\n'

/-! ## Lines that are written one after another -/

theorem lines_append_of_notMem {l : List Char} (h : '\n' ∉ l) (rest : List Char) :
    lines (l ++ '\n' :: rest) = l :: lines rest := by
  induction l with
  | nil => rfl
  | cons c l ih =>
    rw [List.mem_cons, not_or] at h
    rw [List.cons_append, lines, if_neg (Ne.symm h.1), ih h.2]

/-- A text and a line feed end as many lines as there are line feeds. -/
theorem length_lines_append (l rest : List Char) :
    (lines (l ++ '\n' :: rest)).length = l.count '\n' + 1 + (lines rest).length := by
  induction l with
  | nil =>
    show (lines rest).length + 1 = _
    rw [List.count_nil, Nat.zero_add, Nat.add_comm]
  | cons c l ih =>
    rw [List.cons_append, lines]
    by_cases hc : c = '\n'
    · subst hc
      rw [if_pos rfl, List.length_cons, ih, List.count_cons_self]
      omega
    · rw [if_neg hc, List.count_cons_of_ne hc, ← ih]
      cases hlines : lines (l ++ '\n' :: rest) with
      | nil =>
        rw [hlines, List.length_nil] at ih
        omega
      | cons line more => rfl

theorem length_lines_flatMap (ls : List (List Char)) :
    (lines (ls.flatMap (· ++ ['\n']))).length = ls.length + (ls.map (List.count '\n')).sum := by
  induction ls with
  | nil => rfl
  | cons l ls ih =>
    rw [List.flatMap_cons, List.append_assoc, List.singleton_append, length_lines_append, ih,
      List.length_cons, List.map_cons, List.sum_cons]
    omega

/-- **Texts that are ended by a line feed are the lines that are read exactly when they have none of
their own.** -/
theorem lines_flatMap_iff {ls : List (List Char)} :
    lines (ls.flatMap (· ++ ['\n'])) = ls ↔ ∀ l ∈ ls, '\n' ∉ l := by
  constructor
  · intro h
    have hlength := length_lines_flatMap ls
    rw [h] at hlength
    have hsum : (ls.map (List.count '\n')).sum = 0 := by omega
    have hzero := List.sum_eq_zero_iff_forall_eq_nat.mp hsum
    exact fun l hl => List.count_eq_zero.mp (hzero _ (List.mem_map_of_mem hl))
  · intro h
    induction ls with
    | nil => rfl
    | cons l ls ih =>
      rw [List.forall_mem_cons] at h
      rw [List.flatMap_cons, List.append_assoc, List.singleton_append,
        lines_append_of_notMem h.1, ih h.2]

/-! ## Line feeds -/

theorem lineFeeds_eq_zero_iff {s : String} : lineFeeds s = 0 ↔ '\n' ∉ s.toList :=
  List.count_eq_zero

theorem sum_lineFeeds_eq_zero_iff {texts : List String} :
    (texts.map lineFeeds).sum = 0 ↔ ∀ s ∈ texts, '\n' ∉ s.toList := by
  simp only [List.sum_eq_zero_iff_forall_eq_nat, List.forall_mem_map, lineFeeds_eq_zero_iff]

theorem lineFeeds_append (s t : String) : lineFeeds (s ++ t) = lineFeeds s + lineFeeds t := by
  rw [lineFeeds, String.toList_append, List.count_append]
  rfl

theorem lineFeeds_toString (n : Nat) : lineFeeds (toString n) = 0 := by
  refine lineFeeds_eq_zero_iff.mpr fun hmem => ?_
  have hdigits : (toString n).toList = Nat.toDigits 10 n := Nat.toList_repr
  rw [hdigits] at hmem
  obtain ⟨k, hk, hchar⟩ := exists_digitChar (by decide) _ hmem
  revert k
  decide

theorem newline_notMem_lowerHex (n : Nat) : '\n' ∉ lowerHex n := by
  intro hmem
  obtain ⟨k, hk, hchar⟩ := exists_digitChar (by decide) _ hmem
  revert k
  decide

/-- What stands for a character between quotes is no line feed. -/
theorem newline_notMem_quoteChar (quote c : Char) : '\n' ∉ quoteChar quote c := by
  unfold quoteChar
  split
  · decide
  split
  · decide
  split
  · decide
  split
  · decide
  next hfeed =>
  split
  · decide
  split
  · simp [Ne.symm hfeed]
  split
  · simp [newline_notMem_lowerHex]
  · simp [Ne.symm hfeed]

theorem lineFeeds_quoted (s : String) : lineFeeds (quoted s) = 0 := by
  refine lineFeeds_eq_zero_iff.mpr ?_
  rw [quoted, String.toList_ofList]
  simp [newline_notMem_quoteChar]

theorem lineFeeds_quotedChar (c : Char) : lineFeeds (quotedChar c) = 0 := by
  refine lineFeeds_eq_zero_iff.mpr ?_
  rw [quotedChar, String.toList_ofList]
  simp [newline_notMem_quoteChar]

end HttpService.Text
