/-!
# Cutting text at a separator

`cut` divides a list at the first separator, and `splitAll` at every one.  Both keep all that is
not a separator: `cut_eq_some` and `flatten_splitAll` say so.
-/

namespace HttpService.Text

variable {α : Type}

/-- What stands before and after the first element of the class `sep`, if there is one. -/
def cut (sep : α → Bool) : List α → Option (List α × List α)
  | [] => none
  | a :: l => if sep a then some ([], l) else (cut sep l).map fun p => (a :: p.1, p.2)

/-- The pieces between the elements of the class `sep`; there is always at least one. -/
def splitAll (sep : α → Bool) : List α → List (List α)
  | [] => [[]]
  | a :: l =>
    if sep a then [] :: splitAll sep l
    else match splitAll sep l with
      | [] => [[a]]
      | p :: ps => (a :: p) :: ps

/-- A text cut at a sign: what is before it, and what is after it if it is there. -/
def cutOff (sign : Char) (cs : List Char) : List Char × Option (List Char) :=
  match cut (· == sign) cs with
  | none => (cs, none)
  | some (before, after) => (before, some after)

/-- A cut loses nothing but the separator, which the first half does not hold. -/
theorem cut_eq_some {sep : α → Bool} {l before after : List α}
    (h : cut sep l = some (before, after)) :
    (∃ s, sep s = true ∧ l = before ++ s :: after) ∧ ∀ a ∈ before, sep a = false := by
  induction l generalizing before with
  | nil => simp [cut] at h
  | cons a l ih =>
    by_cases ha : sep a = true
    · simp only [cut, ha, if_true, Option.some.injEq, Prod.mk.injEq] at h
      obtain ⟨rfl, rfl⟩ := h
      exact ⟨⟨a, ha, rfl⟩, by simp⟩
    · simp only [cut, ha, Bool.false_eq_true, if_false, Option.map_eq_some_iff, Prod.mk.injEq] at h
      obtain ⟨⟨b, c⟩, hc, rfl, rfl⟩ := h
      obtain ⟨⟨s, hs, hl⟩, hb⟩ := ih hc
      exact ⟨⟨s, hs, by simp [hl]⟩, by simpa [ha] using hb⟩

/-- Nothing is cut exactly when no separator is there. -/
theorem cut_eq_none {sep : α → Bool} {l : List α} : cut sep l = none ↔ ∀ a ∈ l, sep a = false := by
  induction l with
  | nil => simp [cut]
  | cons a l ih => by_cases ha : sep a = true <;> simp [cut, ha, ih]

/-- The pieces, joined, are the list without its separators. -/
theorem flatten_splitAll (sep : α → Bool) (l : List α) :
    (splitAll sep l).flatten = l.filter fun a => !sep a := by
  induction l with
  | nil => rfl
  | cons a l ih =>
    by_cases ha : sep a = true
    · simp [splitAll, ha, ih]
    · simp only [splitAll, ha]
      cases h : splitAll sep l with
      | nil => simp [ha, ← ih, h]
      | cons p ps => simp [ha, ← ih, h]

end HttpService.Text
