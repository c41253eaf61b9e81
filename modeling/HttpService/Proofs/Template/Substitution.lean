import HttpService.Proofs.Template.Pieces

/-!
# Substitution in one pass

Values are put in place of the placeholders of a text all at once.  `Filled` says what that means
without reading the text: it is cut at the names in braces, the runs between them stay, and a
placeholder is replaced by its value, or by itself if there is none; no rule looks into a value.
`substitute` gives the one result there is (`substitute_eq_iff_filled`).  `splice` is the same as a
walk over bytes: a cursor moves from one placeholder that was found to the next, copies what lies
between, and never goes back (`encode_substitute`).
-/

namespace HttpService.Template

/-- A text without a name in braces. -/
def IsPlain (text : List Char) : Prop :=
  ∀ before name after, isName name = true →
    text ≠ before ++ (Piece.placeholder name).chars ++ after

/-- The second text is the first one with values in place of its placeholders. -/
inductive Filled (lookup : String → Option (List Char)) : List Char → List Char → Prop
  | last {text : List Char} : IsPlain text → Filled lookup text text
  | next {text name rest out : List Char} : IsPlain text → isName name = true →
      Filled lookup rest out →
      Filled lookup (text ++ (Piece.placeholder name).chars ++ rest)
        (text ++ (lookup (String.ofList name)).getD (Piece.placeholder name).chars ++ out)

/-- The bytes of a text from a cursor on, with values in place of the placeholders that come. -/
def splice (lookup : String → Option (List Char)) (bytes : Bytes) : Nat → List Placeholder → Bytes
  | cursor, [] => bytes.drop cursor
  | cursor, p :: rest =>
    bytes.extract cursor p.start ++
      ((lookup p.name).map Utf8.encode).getD (bytes.extract p.start p.stop) ++
      splice lookup bytes p.stop rest

/-! ## Names that count -/

theorem mem_names_iff {cs : List Char} {n : String} :
    n ∈ names cs ↔ .placeholder n.toList ∈ pieces cs := by
  rw [names, List.mem_filterMap]
  constructor
  · rintro ⟨p, hp, hname⟩
    cases p with
    | placeholder name =>
      obtain rfl := Option.some.inj hname
      rwa [String.toList_ofList]
    | plain c | group inside | stray brace => cases hname
  · intro h
    exact ⟨_, h, by simp [Piece.name?]⟩

/-- **Only the values of the names in a text count.** -/
theorem substitute_congr {lookup lookup' : String → Option (List Char)} {cs : List Char}
    (h : ∀ n ∈ names cs, lookup n = lookup' n) : substitute lookup cs = substitute lookup' cs := by
  have hfill : ∀ p ∈ pieces cs, p.fill lookup = p.fill lookup' := by
    intro p hp
    cases p with
    | placeholder name =>
      have hname : String.ofList name ∈ names cs :=
        mem_names_iff.mpr (by rwa [String.toList_ofList])
      simp only [Piece.fill, Piece.name?, Option.bind_some, h _ hname]
    | plain c | group inside | stray brace => rfl
  exact List.flatMap_congr hfill

theorem substitute_none (cs : List Char) : substitute (fun _ => none) cs = cs := by
  have hfill : Piece.fill (fun _ => none) = Piece.chars := by
    funext p
    simp [Piece.fill]
  rw [substitute, hfill, flatMap_chars_pieces]

/-- A text whose names have no value stays as it is. -/
theorem substitute_of_forall_none {lookup : String → Option (List Char)} {cs : List Char}
    (h : ∀ n ∈ names cs, lookup n = none) : substitute lookup cs = cs :=
  (substitute_congr h).trans (substitute_none cs)

/-! ## Runs and placeholders -/

theorem names_of_isPlain {text : List Char} (h : IsPlain text) : names text = [] := by
  rw [List.eq_nil_iff_forall_not_mem]
  intro n hn
  obtain ⟨hname, before, after, htext⟩ := placeholder_mem_pieces_iff.mp (mem_names_iff.mp hn)
  exact h before n.toList after hname htext

theorem substitute_of_isPlain (lookup : String → Option (List Char)) {text : List Char}
    (h : IsPlain text) : substitute lookup text = text := by
  apply substitute_of_forall_none
  rw [names_of_isPlain h]
  simp

/-- What stands on both sides of a placeholder is filled on its own. -/
theorem substitute_placeholder (lookup : String → Option (List Char)) {name : List Char}
    (h : isName name = true) (before after : List Char) :
    substitute lookup (before ++ (Piece.placeholder name).chars ++ after)
      = substitute lookup before ++
          (lookup (String.ofList name)).getD (Piece.placeholder name).chars ++
          substitute lookup after := by
  unfold substitute
  rw [pieces_placeholder h, List.flatMap_append, List.flatMap_cons, List.append_assoc]
  rfl

/-- A text is plain, or it is cut at its first placeholder. -/
theorem isPlain_or_exists_first (cs : List Char) :
    IsPlain cs ∨ ∃ text name rest, IsPlain text ∧ isName name = true ∧
      cs = text ++ (Piece.placeholder name).chars ++ rest := by
  induction hlength : cs.length using Nat.strongRecOn generalizing cs with
  | ind n ih =>
    by_cases hplain : IsPlain cs
    · exact Or.inl hplain
    · -- some placeholder there is; the first one is in front of it or is this one
      unfold IsPlain at hplain
      push Not at hplain
      obtain ⟨before, name, after, hname, rfl⟩ := hplain
      have hshorter : before.length < n := by
        rw [← hlength]
        simp [Piece.chars]
      right
      rcases ih before.length hshorter before rfl with
        hbefore | ⟨text, first, rest, htext, hfirst, rfl⟩
      · exact ⟨before, name, after, hbefore, hname, rfl⟩
      · exact ⟨text, first, rest ++ (Piece.placeholder name).chars ++ after, htext, hfirst,
          by simp only [List.append_assoc]⟩

theorem filled_substitute (lookup : String → Option (List Char)) (cs : List Char) :
    Filled lookup cs (substitute lookup cs) := by
  induction hlength : cs.length using Nat.strongRecOn generalizing cs with
  | ind n ih =>
    rcases isPlain_or_exists_first cs with h | ⟨text, name, rest, htext, hname, rfl⟩
    · rw [substitute_of_isPlain lookup h]
      exact Filled.last h
    · have hshorter : rest.length < n := by
        simp only [List.length_append, Piece.chars, List.length_cons] at hlength
        omega
      rw [substitute_placeholder lookup hname, substitute_of_isPlain lookup htext]
      exact Filled.next htext hname (ih rest.length hshorter rest rfl)

/-- **Substitution gives the one text that is filled.** -/
theorem substitute_eq_iff_filled {lookup : String → Option (List Char)} {cs out : List Char} :
    substitute lookup cs = out ↔ Filled lookup cs out := by
  constructor
  · rintro rfl
    exact filled_substitute lookup cs
  · intro h
    induction h with
    | last htext => exact substitute_of_isPlain lookup htext
    | next htext hname _ ih =>
      rw [substitute_placeholder lookup hname, substitute_of_isPlain lookup htext, ih]

/-! ## The walk over the bytes -/

theorem extract_encode (before text after : List Char) :
    (Utf8.encode (before ++ text ++ after)).extract (Utf8.size before) (Utf8.size (before ++ text))
      = Utf8.encode text := by
  rw [List.extract_eq_take_drop, Utf8.size_append, Nat.add_sub_cancel_left, Utf8.encode_append,
    Utf8.encode_append, List.append_assoc, ← Utf8.length_encode before, List.drop_left,
    ← Utf8.length_encode text, List.take_left]

/-- The cursor stands behind what was written; between it and the pieces that are left lies the
text that is copied next. -/
theorem splice_placeholdersFrom (lookup : String → Option (List Char)) (cs before gap : List Char)
    (ps : List Piece) (hcs : cs = before ++ gap ++ ps.flatMap Piece.chars) :
    splice lookup (Utf8.encode cs) (Utf8.size before)
        (placeholdersFrom (Utf8.size (before ++ gap)) ps)
      = Utf8.encode gap ++ Utf8.encode (ps.flatMap (Piece.fill lookup)) := by
  induction ps generalizing before gap with
  | nil =>
    rw [placeholdersFrom, splice, hcs, List.flatMap_nil, List.append_nil, Utf8.encode_append,
      ← Utf8.length_encode before, List.drop_left]
    exact (List.append_nil _).symm
  | cons p ps ih =>
    rw [List.flatMap_cons, ← List.append_assoc] at hcs
    rw [placeholdersFrom_cons, ← Utf8.size_append, List.flatMap_cons, Utf8.encode_append]
    cases hp : p.name? with
    | none =>
      -- the piece is no placeholder and becomes part of the gap
      have hfill : p.fill lookup = p.chars := by rw [Piece.fill, hp]; rfl
      have hlonger := ih before (gap ++ p.chars) (by rw [hcs]; simp only [List.append_assoc])
      rw [← List.append_assoc] at hlonger
      rw [hfill, ← List.append_assoc, ← Utf8.encode_append, ← hlonger]
      rfl
    | some n =>
      have hgap : (Utf8.encode cs).extract (Utf8.size before) (Utf8.size (before ++ gap))
          = Utf8.encode gap := by
        rw [hcs, List.append_assoc]
        exact extract_encode before gap _
      have hself : (Utf8.encode cs).extract (Utf8.size (before ++ gap))
          (Utf8.size (before ++ gap ++ p.chars)) = Utf8.encode p.chars := by
        rw [hcs]
        exact extract_encode (before ++ gap) _ _
      have hvalue : ((lookup n).map Utf8.encode).getD (Utf8.encode p.chars)
          = Utf8.encode (p.fill lookup) := by
        rw [Piece.fill, hp, Option.bind_some]
        cases lookup n <;> rfl
      have hrest := ih (before ++ gap ++ p.chars) [] (by rw [hcs, List.append_nil])
      rw [List.append_nil] at hrest
      show (Utf8.encode cs).extract (Utf8.size before) (Utf8.size (before ++ gap))
          ++ ((lookup n).map Utf8.encode).getD ((Utf8.encode cs).extract
            (Utf8.size (before ++ gap)) (Utf8.size (before ++ gap ++ p.chars)))
          ++ splice lookup (Utf8.encode cs) (Utf8.size (before ++ gap ++ p.chars))
            (placeholdersFrom (Utf8.size (before ++ gap ++ p.chars)) ps) = _
      rw [hgap, hself, hvalue, hrest, List.append_assoc]
      rfl

/-- **The walk over the bytes writes what substitution gives.** -/
theorem encode_substitute (lookup : String → Option (List Char)) (cs : List Char) :
    Utf8.encode (substitute lookup cs)
      = splice lookup (Utf8.encode cs) 0 (scan cs).placeholders :=
  (splice_placeholdersFrom lookup cs [] [] (pieces cs) (flatMap_chars_pieces cs).symm).symm

/-- **Substitution is one pass over the text.**  Its result is the only one in which the runs
between the placeholders stay and each placeholder is replaced by its value, or stays if it has
none; it is what a walk over the bytes that were scanned writes.  So a text whose placeholders have
no value stays, and only the values of its own placeholders count. -/
theorem substitute_simultaneous (lookup : String → Option (List Char)) (cs : List Char) :
    (∀ out, substitute lookup cs = out ↔ Filled lookup cs out) ∧
      Utf8.encode (substitute lookup cs)
        = splice lookup (Utf8.encode cs) 0 (scan cs).placeholders ∧
      substitute (fun _ => none) cs = cs ∧
      ∀ lookup', (∀ p ∈ (scan cs).placeholders, lookup p.name = lookup' p.name) →
        substitute lookup cs = substitute lookup' cs := by
  refine ⟨fun _ => substitute_eq_iff_filled, encode_substitute lookup cs, substitute_none cs, ?_⟩
  intro lookup' h
  apply substitute_congr
  intro n hn
  rw [← map_name_scan] at hn
  obtain ⟨p, hp, rfl⟩ := List.mem_map.mp hn
  exact h p hp

/-- A value that makes a placeholder together with the text behind it, and one that looks like a
placeholder. -/
theorem substitute_simultaneous_braces :
    let cs := "\x7bx\x7did\x7d/\x7by\x7d".toList
    let values : List (String × List Char) :=
      [("x", ['\x7b']), ("y", "\x7bx\x7d".toList), ("id", ['7'])]
    substitute (fun name => values.lookup name) cs = "\x7bid\x7d/\x7bx\x7d".toList ∧
      substitute (fun name => values.lookup name) cs
        = substitute (fun name => (values.take 2).lookup name) cs := by
  intro cs values
  have hresult : substitute (fun name => values.lookup name) cs
      = "\x7bid\x7d/\x7bx\x7d".toList := by decide +kernel
  have hagree : ∀ p ∈ (scan cs).placeholders,
      values.lookup p.name = (values.take 2).lookup p.name := by decide +kernel
  exact ⟨hresult, (substitute_simultaneous _ cs).2.2.2 _ hagree⟩

end HttpService.Template
