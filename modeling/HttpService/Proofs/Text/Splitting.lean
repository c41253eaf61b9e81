import HttpService.Text.Cut
import Mathlib.Data.List.TakeWhile

/-!
# Splitting a text

`splitAll` is the library's `List.splitOnP`, so its laws carry over.  What is added here is how
splitting meets a rewriting of the text: a substitution that turns separators, and nothing else,
into separators commutes with it (`splitAll_flatMap`), and of a separator class only what it says
about the text itself counts (`splitAll_congr`).
-/

namespace HttpService.Text

variable {α : Type} {sep : α → Bool}

theorem cut_append_cons {s : α} (hs : sep s = true) {before : List α}
    (h : ∀ a ∈ before, sep a = false) (after : List α) :
    cut sep (before ++ s :: after) = some (before, after) := by
  induction before with
  | nil => rw [List.nil_append, cut, if_pos hs]
  | cons a before ih =>
    rw [List.forall_mem_cons] at h
    rw [List.cons_append, cut, if_neg (by simp [h.1]), ih h.2]
    rfl

/-- A text is cut at a sign where that stands first. -/
theorem cut_sign (sign : Char) (cs : List Char) :
    cut (· == sign) cs
      = if sign ∈ cs then some (cs.takeWhile (· != sign), (cs.dropWhile (· != sign)).drop 1)
        else none := by
  cases hcut : cut (· == sign) cs with
  | none =>
    have hmem : sign ∉ cs := fun h => by simpa using cut_eq_none.mp hcut sign h
    rw [if_neg hmem]
  | some p =>
    obtain ⟨⟨s, hs, rfl⟩, hbefore⟩ := cut_eq_some hcut
    obtain rfl := eq_of_beq hs
    have hfree : ∀ c ∈ p.1, (c != s) = true := fun c hc => by simpa using hbefore c hc
    rw [List.takeWhile_append_of_pos hfree, List.dropWhile_append_of_pos hfree]
    simp

/-- A text that holds a sign is what stands before the first one, the sign, and what is left. -/
theorem eq_append_cons_of_mem {sign : Char} {cs : List Char} (h : sign ∈ cs) :
    cs = cs.takeWhile (· != sign) ++ sign :: (cs.dropWhile (· != sign)).drop 1 := by
  have hcut := cut_sign sign cs
  rw [if_pos h] at hcut
  obtain ⟨⟨s, hs, hcs⟩, -⟩ := cut_eq_some hcut
  obtain rfl := eq_of_beq hs
  exact hcs

theorem takeWhile_of_notMem {sign : Char} {cs : List Char} (h : sign ∉ cs) :
    cs.takeWhile (· != sign) = cs ∧ cs.dropWhile (· != sign) = [] := by
  have hfree : ∀ c ∈ cs, (c != sign) = true := fun c hc => bne_iff_ne.mpr fun heq => h (heq ▸ hc)
  exact ⟨List.takeWhile_eq_self_iff.mpr hfree, List.dropWhile_eq_nil_iff.mpr hfree⟩

theorem takeWhile_append {run rest : List α} (hrun : ∀ a ∈ run, sep a = true)
    (hrest : ∀ a ∈ rest.head?, sep a = false) :
    (run ++ rest).takeWhile sep = run ∧ (run ++ rest).dropWhile sep = rest := by
  rw [List.takeWhile_append_of_pos hrun, List.dropWhile_append_of_pos hrun]
  cases rest with
  | nil => simp
  | cons a rest =>
    have ha : sep a = false := hrest a rfl
    simp [ha]

theorem splitAll_eq_splitOnP (sep : α → Bool) (l : List α) : splitAll sep l = l.splitOnP sep := by
  induction l with
  | nil => rfl
  | cons a l ih =>
    rw [List.splitOnP_cons_eq_if_modifyHead, splitAll, ih]
    split
    · rfl
    · cases h : l.splitOnP sep with
      | nil => exact absurd h (List.splitOnP_ne_nil sep l)
      | cons p ps => rfl

theorem splitAll_ne_nil (sep : α → Bool) (l : List α) : splitAll sep l ≠ [] := by
  rw [splitAll_eq_splitOnP]
  exact List.splitOnP_ne_nil sep l

/-- A text without a separator is one piece. -/
theorem splitAll_eq_singleton {l : List α} (h : ∀ a ∈ l, sep a = false) : splitAll sep l = [l] := by
  rw [splitAll_eq_splitOnP, List.splitOnP_eq_singleton h]

/-- At a separator the pieces fall into those before it and those after it. -/
theorem splitAll_append_cons {s : α} (hs : sep s = true) (l r : List α) :
    splitAll sep (l ++ s :: r) = splitAll sep l ++ splitAll sep r := by
  simp only [splitAll_eq_splitOnP, List.splitOnP_append_cons l r hs]

/-- Pieces that are joined by a sign which none of them holds come apart again. -/
theorem splitAll_intercalate [BEq α] [LawfulBEq α] {sign : α} {pieces : List (List α)}
    (h : ∀ p ∈ pieces, sign ∉ p) (hne : pieces ≠ []) :
    splitAll (· == sign) ([sign].intercalate pieces) = pieces := by
  rw [splitAll_eq_splitOnP]
  exact List.splitOn_intercalate sign h hne

theorem mem_of_mem_splitAll {l p : List α} (hp : p ∈ splitAll sep l) {a : α} (ha : a ∈ p) :
    a ∈ l ∧ sep a = false := by
  have h : a ∈ (splitAll sep l).flatten := List.mem_flatten.mpr ⟨p, hp, ha⟩
  simpa [flatten_splitAll] using h

/-- Of a separator class only what it says about the text counts. -/
theorem splitAll_congr {sep' : α → Bool} {l : List α} (h : ∀ a ∈ l, sep a = sep' a) :
    splitAll sep l = splitAll sep' l := by
  induction l with
  | nil => rfl
  | cons a l ih =>
    rw [List.forall_mem_cons] at h
    simp only [splitAll, h.1, ih h.2]

/-- A front without a separator goes to the first piece. -/
theorem splitAll_append_of_forall {front : List α} (hf : ∀ a ∈ front, sep a = false)
    (l : List α) : splitAll sep (front ++ l) = (splitAll sep l).modifyHead (front ++ ·) := by
  induction front with
  | nil => cases h : splitAll sep l <;> simp [h]
  | cons b front ih =>
    rw [List.forall_mem_cons] at hf
    rw [List.cons_append, splitAll, if_neg (by simp [hf.1]), ih hf.2]
    cases h : splitAll sep l with
    | nil => exact absurd h (splitAll_ne_nil sep l)
    | cons p ps => rfl

section Rewriting

variable {β : Type} {sep' : β → Bool} {f : α → List β}

/-- Rewriting every element of a text and splitting commute, if a separator becomes one and nothing
else does. -/
theorem splitAll_flatMap (hsep : ∀ a, sep a = true → ∃ b, f a = [b] ∧ sep' b = true)
    (hother : ∀ a, sep a = false → ∀ b ∈ f a, sep' b = false) (l : List α) :
    splitAll sep' (l.flatMap f) = (splitAll sep l).map (·.flatMap f) := by
  induction l with
  | nil => rfl
  | cons a l ih =>
    rw [List.flatMap_cons]
    cases ha : sep a with
    | true =>
      obtain ⟨b, hb, hsep'⟩ := hsep a ha
      simp [hb, hsep', splitAll, ha, ih]
    | false =>
      rw [splitAll_append_of_forall (hother a ha), ih, splitAll, if_neg (by simp [ha])]
      cases h : splitAll sep l with
      | nil => exact absurd h (splitAll_ne_nil sep l)
      | cons p ps => simp

/-- The same of a cut. -/
theorem cut_flatMap (hsep : ∀ a, sep a = true → ∃ b, f a = [b] ∧ sep' b = true)
    (hother : ∀ a, sep a = false → ∀ b ∈ f a, sep' b = false) (l : List α) :
    cut sep' (l.flatMap f) = (cut sep l).map fun p => (p.1.flatMap f, p.2.flatMap f) := by
  cases hcut : cut sep l with
  | none =>
    refine cut_eq_none.mpr fun b hb => ?_
    obtain ⟨a, ha, hb⟩ := List.mem_flatMap.mp hb
    exact hother a (cut_eq_none.mp hcut a ha) b hb
  | some p =>
    obtain ⟨⟨s, hs, rfl⟩, hbefore⟩ := cut_eq_some hcut
    obtain ⟨b, hb, hsep'⟩ := hsep s hs
    rw [List.flatMap_append, List.flatMap_cons, hb, List.singleton_append]
    refine cut_append_cons hsep' (fun c hc => ?_) _
    obtain ⟨a, ha, hc⟩ := List.mem_flatMap.mp hc
    exact hother a (hbefore a ha) c hc

end Rewriting

end HttpService.Text
