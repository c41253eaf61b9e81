import HttpService.Proofs.Text.Percent

/-!
# Escapes across a boundary

Undoing the escapes of two texts end to end is undoing them in each, unless an escape begins in
the first and is completed by the second (`Joins`).  That is exact: a joined escape costs two bytes
(`length_decodeText_of_joins`), so for any number of texts end to end nothing is lost or altered
exactly when no text joins with what follows it (`Apart.decodeText_flatten`, `apart_of_length_le`).
-/

namespace HttpService.Percent

/-- An escape begins at the end of the first text and is completed by the second. -/
inductive Joins : List Char → List Char → Prop
  | percent (front : List Char) {back : List Char} {x y : Char} (hx : isHexDigit x = true)
    (hy : isHexDigit y = true) : Joins (front ++ ['%']) (x :: y :: back)
  | digit (front : List Char) {back : List Char} {x y : Char} (hx : isHexDigit x = true)
    (hy : isHexDigit y = true) : Joins (front ++ ['%', x]) (y :: back)

/-- Texts of which none joins with all that follows it. -/
def Apart : List (List Char) → Prop
  | [] => True
  | text :: rest => ¬ Joins text rest.flatten ∧ Apart rest

/-! ## The test -/

/-- Whether an escape joins, by the end of the first text, read backwards, and the start of the
second. -/
def joins (front back : List Char) : Bool :=
  (match front.reverse, back with
    | c :: _, x :: y :: _ => c == '%' && isHexDigit x && isHexDigit y
    | _, _ => false) ||
  match front.reverse, back with
  | x :: c :: _, y :: _ => c == '%' && isHexDigit x && isHexDigit y
  | _, _ => false

theorem joins_iff {front back : List Char} : joins front back = true ↔ Joins front back := by
  unfold joins
  rw [Bool.or_eq_true]
  constructor
  · rintro (h | h)
    · split at h
      · next c before x y after hfront =>
        simp only [Bool.and_eq_true, beq_iff_eq] at h
        rw [← List.reverse_reverse front, hfront, List.reverse_cons, h.1.1]
        exact .percent _ h.1.2 h.2
      · cases h
    · split at h
      · next x c before y after hfront =>
        simp only [Bool.and_eq_true, beq_iff_eq] at h
        rw [← List.reverse_reverse front, hfront, List.reverse_cons, List.reverse_cons,
          List.append_assoc, h.1.1]
        exact .digit _ h.1.2 h.2
      · cases h
  · intro h
    cases h with
    | percent _ hx hy => exact .inl (by simp [hx, hy])
    | digit _ hx hy => exact .inr (by simp [hx, hy])

instance (front back : List Char) : Decidable (Joins front back) :=
  decidable_of_iff _ joins_iff

instance Apart.decidable : (texts : List (List Char)) → Decidable (Apart texts)
  | [] => isTrue trivial
  | text :: rest =>
    have := Apart.decidable rest
    inferInstanceAs (Decidable (¬ Joins text rest.flatten ∧ Apart rest))

/-- A `%` of one text, and two digits of the next. -/
example : ¬ Apart ["50%".toList, "41".toList] := by decide

/-! ## Where no escape joins -/

theorem Joins.cons (c : Char) {front back : List Char} (h : Joins front back) :
    Joins (c :: front) back := by
  cases h with
  | percent front hx hy => exact .percent (c :: front) hx hy
  | digit front hx hy => exact .digit (c :: front) hx hy

theorem not_joins_cons {c : Char} (hc : isHexDigit c = false) (front back : List Char) :
    ¬ Joins front (c :: back) := by
  intro h
  cases h with
  | percent _ hx _ => rw [hc] at hx; cases hx
  | digit _ _ hy => rw [hc] at hy; cases hy

theorem not_joins_nil_right (front : List Char) : ¬ Joins front [] := nofun

theorem decodeText_cons {c : Char} (hc : c ≠ '%') (cs : List Char) :
    decodeText (c :: cs) = String.utf8EncodeChar c ++ decodeText cs := by
  rw [decodeText, Utf8.encode_cons]
  exact decode_append_of_ne (fun b hb => ne_of_mem_utf8EncodeChar hc hb) _

theorem decodeText_percent {cs : List Char}
    (h : ∀ x y more, cs = x :: y :: more → isHexDigit x = false ∨ isHexDigit y = false) :
    decodeText ('%' :: cs) = 0x25 :: decodeText cs :=
  showsHex_encode.decode_percent h

theorem exists_decodeText_hex {x y : Char} (hx : isHexDigit x = true) (hy : isHexDigit y = true) :
    ∃ b, ∀ cs, decodeText ('%' :: x :: y :: cs) = b :: decodeText cs := by
  have hvx := hx
  have hvy := hy
  simp only [isHexDigit, Bool.and_eq_true, Option.isSome_iff_exists] at hvx hvy
  obtain ⟨-, h, hh⟩ := hvx
  obtain ⟨-, l, hl⟩ := hvy
  refine ⟨h * 16 + l, fun cs => ?_⟩
  have hraw : Utf8.encode ('%' :: x :: y :: cs) = 0x25 :: Utf8.encode (x :: y :: cs) := rfl
  rw [decodeText, hraw, showsHex_encode.digit _ _ hx, showsHex_encode.digit _ _ hy,
    decode_hex hh hl]
  rfl

/-- **Texts that do not join are decoded each on its own.** -/
theorem decodeText_append : ∀ {front back : List Char}, ¬ Joins front back →
    decodeText (front ++ back) = decodeText front ++ decodeText back
  | [], _, _ => rfl
  | c :: front, back, h => by
    have hfront : ¬ Joins front back := fun hj => h (hj.cons c)
    by_cases hc : c = '%'
    · subst hc
      by_cases hp : ∃ x y more, front = x :: y :: more ∧ isHexDigit x = true ∧ isHexDigit y = true
      · obtain ⟨x, y, more, rfl, hx, hy⟩ := hp
        have hmore : ¬ Joins more back := fun hj => hfront ((hj.cons y).cons x)
        obtain ⟨b, hb⟩ := exists_decodeText_hex hx hy
        rw [List.cons_append, List.cons_append, List.cons_append, hb, hb,
          decodeText_append hmore, List.cons_append]
      · have hown : ∀ x y more, front = x :: y :: more →
            isHexDigit x = false ∨ isHexDigit y = false := by
          intro x y more he
          by_contra hn
          simp only [not_or, Bool.not_eq_false] at hn
          exact hp ⟨x, y, more, he, hn⟩
        -- Behind the `%`, two digits can only come from both texts, and then they join.
        have hboth : ∀ x y more, front ++ back = x :: y :: more →
            isHexDigit x = false ∨ isHexDigit y = false := by
          intro x y more he
          by_contra hn
          simp only [not_or, Bool.not_eq_false] at hn
          rcases front with _ | ⟨x', _ | ⟨y', front⟩⟩
          · subst he
            exact h (.percent [] hn.1 hn.2)
          · obtain ⟨rfl, rfl⟩ := List.cons.inj he
            exact h (.digit [] hn.1 hn.2)
          · simp only [List.cons_append, List.cons.injEq] at he
            obtain ⟨rfl, rfl, -⟩ := he
            rcases hown x' y' front rfl with hx | hy
            · rw [hx] at hn; cases hn.1
            · rw [hy] at hn; cases hn.2
        rw [List.cons_append, decodeText_percent hboth, decodeText_percent hown,
          decodeText_append hfront, List.cons_append]
    · rw [List.cons_append, decodeText_cons hc, decodeText_cons hc, decodeText_append hfront,
        List.append_assoc]

/-- At a character that belongs to no escape a text falls into two. -/
theorem decodeText_append_cons {c : Char} (hc : isHexDigit c = false) (hpercent : c ≠ '%')
    (front back : List Char) :
    decodeText (front ++ c :: back)
      = decodeText front ++ (String.utf8EncodeChar c ++ decodeText back) := by
  rw [decodeText_append (not_joins_cons hc front back), decodeText_cons hpercent]

/-! ## Where one joins -/

theorem ne_percent_of_isHexDigit {c : Char} (h : isHexDigit c = true) : c ≠ '%' := by
  rintro rfl
  cases h

theorem length_decodeText_cons {c : Char} (hc : isHexDigit c = true) (cs : List Char) :
    (decodeText (c :: cs)).length = (decodeText cs).length + 1 := by
  have hlt := hc
  simp only [isHexDigit, Bool.and_eq_true, decide_eq_true_eq] at hlt
  rw [decodeText_cons (ne_percent_of_isHexDigit hc), Utf8.utf8EncodeChar_of_lt hlt.1,
    List.singleton_append, List.length_cons]

/-- **A joined escape costs two bytes.** -/
theorem length_decodeText_of_joins {front back : List Char} (h : Joins front back) :
    (decodeText (front ++ back)).length + 2
      = (decodeText front).length + (decodeText back).length := by
  have hpercent : isHexDigit '%' = false := rfl
  -- Either way the texts are cut at the `%`, which joins with nothing before it.
  have hwhole (front back : List Char) {x y : Char} (hx : isHexDigit x = true)
      (hy : isHexDigit y = true) :
      (decodeText (front ++ '%' :: x :: y :: back)).length
        = (decodeText front).length + 1 + (decodeText back).length := by
    obtain ⟨b, hb⟩ := exists_decodeText_hex hx hy
    rw [decodeText_append (not_joins_cons hpercent _ _), hb, List.length_append, List.length_cons]
    omega
  cases h with
  | @percent front back x y hx hy =>
    have hfront : (decodeText (front ++ ['%'])).length = (decodeText front).length + 1 := by
      rw [decodeText_append (not_joins_cons hpercent _ _), List.length_append]
      rfl
    rw [List.append_assoc, List.singleton_append, hwhole front back hx hy, hfront,
      length_decodeText_cons hx, length_decodeText_cons hy]
    omega
  | @digit front back x y hx hy =>
    have hfront : (decodeText (front ++ ['%', x])).length = (decodeText front).length + 2 := by
      rw [decodeText_append (not_joins_cons hpercent _ _), decodeText_percent (by rintro _ _ _ ⟨⟩),
        List.length_append, List.length_cons, length_decodeText_cons hx]
      rfl
    rw [List.append_assoc, List.cons_append, List.singleton_append, hwhole front back hx hy,
      hfront, length_decodeText_cons hy]
    omega

/-! ## Many texts end to end -/

theorem Apart.decodeText_flatten {texts : List (List Char)} (h : Apart texts) :
    decodeText texts.flatten = texts.flatMap decodeText := by
  induction texts with
  | nil => rfl
  | cons text rest ih =>
    rw [List.flatten_cons, decodeText_append h.1, ih h.2, List.flatMap_cons]

/-- Texts end to end never stand for more than they stand for on their own. -/
theorem length_decodeText_flatten_le (texts : List (List Char)) :
    (decodeText texts.flatten).length ≤ (texts.flatMap decodeText).length := by
  induction texts with
  | nil => exact Nat.le_refl _
  | cons text rest ih =>
    rw [List.flatten_cons, List.flatMap_cons, List.length_append]
    by_cases h : Joins text rest.flatten
    · have := length_decodeText_of_joins h
      omega
    · rw [decodeText_append h, List.length_append]
      omega

theorem apart_of_length_le {texts : List (List Char)}
    (h : (texts.flatMap decodeText).length ≤ (decodeText texts.flatten).length) :
    Apart texts := by
  induction texts with
  | nil => trivial
  | cons text rest ih =>
    have hrest := length_decodeText_flatten_le rest
    rw [List.flatten_cons, List.flatMap_cons, List.length_append] at h
    have hjoins : ¬ Joins text rest.flatten := fun hj => by
      have := length_decodeText_of_joins hj
      omega
    rw [decodeText_append hjoins, List.length_append] at h
    exact ⟨hjoins, ih (by omega)⟩

end HttpService.Percent
