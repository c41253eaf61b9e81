import HttpService.Proofs.TypeExpr.Grammar

/-!
# Reading the text of a type again

What the reader accepts is grammatical: every name in it is a name, and the wildcard stands alone.
The text of a grammatical type spells it, and so it is read back as that type.

* `Grammatical.of_parse?`: a type that was read is grammatical.
* `Grammatical.argument`: so are its arguments.
* `Grammatical.spells`: the text of a grammatical type spells it.
* `parse?_display`: a grammatical type is read back from its text.
* `parse_exact`: the reader and the texts of types, taken together.
-/

namespace HttpService.TypeExpr

/-- A type that has a text in the grammar. -/
inductive Grammatical : TypeExpr → Prop
  | star : Grammatical star
  | mk {name : String} {nullable : Bool} {arguments : List TypeExpr} (hname : IsName name)
      (harguments : ∀ t ∈ arguments, Grammatical t) : Grammatical (.mk name nullable arguments)

theorem grammatical_unit : Grammatical unit :=
  .mk ⟨by decide +kernel, List.all_eq_true.mp (by decide +kernel)⟩ nofun

theorem Grammatical.argument {t argument : TypeExpr} (h : t.Grammatical)
    (hmem : argument ∈ t.arguments) : argument.Grammatical := by
  cases h with
  | star => cases hmem
  | mk hname harguments => exact harguments _ hmem

/-! ## What is read is grammatical -/

mutual

theorem Grammatical.of_spells {cs : List Char} {t : TypeExpr} (h : Spells cs t) :
    Grammatical t := by
  cases h with
  | star => exact .star
  | plain _ hname => exact .mk hname nofun
  | generic _ hname _ hinside => exact .mk hname (Grammatical.of_spellsAll hinside)

theorem Grammatical.of_spellsAll {cs : List Char} {ts : List TypeExpr} (h : SpellsAll cs ts) :
    ∀ t ∈ ts, Grammatical t := by
  cases h with
  | one ht => exact List.forall_mem_singleton.mpr (Grammatical.of_spells ht)
  | more ht _ hrest =>
    exact List.forall_mem_cons.mpr ⟨Grammatical.of_spells ht, Grammatical.of_spellsAll hrest⟩

end

theorem Grammatical.of_parse {s : String} {t : TypeExpr} (h : parse s = .ok t) :
    Grammatical t := by
  obtain ⟨front, back, -, hspells, -⟩ := parse_eq_ok_iff.mp h
  exact .of_spells hspells

theorem parse?_eq_some_iff {s : String} {t : TypeExpr} : parse? s = some t ↔ parse s = .ok t := by
  rw [parse?]
  cases parse s with
  | error fault => simp [Except.toOption]
  | ok t' => simp [Except.toOption]

theorem Grammatical.of_parse? {s : String} {t : TypeExpr} (h : parse? s = some t) :
    Grammatical t :=
  .of_parse (parse?_eq_some_iff.mp h)

/-! ## The text of a grammatical type -/

theorem blanks_nil : Blanks [] := by
  intro c hc
  cases hc

theorem Blanks.cons {cs : List Char} (h : Blanks cs) : Blanks (' ' :: cs) :=
  List.forall_mem_cons.mpr ⟨rfl, h⟩

theorem Spells.blank {cs : List Char} {t : TypeExpr} (h : Spells cs t) : Spells (' ' :: cs) t := by
  cases h with
  | star hbefore => exact .star hbefore.cons
  | plain hbefore hname hbetween nullable => exact .plain hbefore.cons hname hbetween nullable
  | generic hbefore hname hbetween hinside hafter nullable =>
    exact .generic hbefore.cons hname hbetween hinside hafter nullable

theorem SpellsAll.blank {cs : List Char} {ts : List TypeExpr} (h : SpellsAll cs ts) :
    SpellsAll (' ' :: cs) ts := by
  cases h with
  | one ht hafter => exact .one ht.blank hafter
  | more ht hafter hrest => exact .more ht.blank hafter hrest

theorem spellsAll_argumentChars {ts : List TypeExpr} (hne : ts ≠ [])
    (h : ∀ t ∈ ts, Spells t.chars t) : SpellsAll (argumentChars ts) ts := by
  induction ts with
  | nil => exact absurd rfl hne
  | cons t ts ih =>
    obtain ⟨ht, hts⟩ := List.forall_mem_cons.mp h
    cases ts with
    | nil =>
      have hone := SpellsAll.one ht blanks_nil
      rwa [List.append_nil] at hone
    | cons t' ts =>
      have hmore := SpellsAll.more ht blanks_nil (ih (List.cons_ne_nil t' ts) hts).blank
      rw [List.append_nil] at hmore
      simpa [argumentChars] using hmore

/-- **The text of a grammatical type spells it.** -/
theorem Grammatical.spells {t : TypeExpr} (h : t.Grammatical) : Spells t.chars t := by
  induction h with
  | star => exact .star blanks_nil
  | @mk name nullable arguments hname _ ih =>
    cases arguments with
    | nil =>
      have hplain := Spells.plain blanks_nil hname blanks_nil nullable
      simpa [chars, markChars] using hplain
    | cons t ts =>
      have hinside := spellsAll_argumentChars (List.cons_ne_nil t ts) ih
      have hgeneric := Spells.generic blanks_nil hname blanks_nil hinside blanks_nil nullable
      simpa [chars, markChars] using hgeneric

theorem Grammatical.standsFor {t : TypeExpr} (h : t.Grammatical) : StandsFor t.display t :=
  ⟨t.chars, [], by rw [display, String.toList_ofList, List.append_nil], h.spells, blanks_nil⟩

theorem parse_display {t : TypeExpr} (h : Grammatical t) : parse t.display = .ok t :=
  parse_eq_ok_iff.mpr h.standsFor

theorem parse?_display {t : TypeExpr} (h : Grammatical t) : parse? t.display = some t :=
  parse?_eq_some_iff.mpr (parse_display h)

/-- **Reading type expressions.**  A text is read as a type exactly when it stands for it, and any
other text gives a fault at a place between two of its characters or at one of its ends.  A
grammatical type is read back from its text, and so is every type that was read. -/
theorem parse_exact (s : String) :
    (∀ t, parse s = .ok t ↔ StandsFor s t) ∧
      ((¬ ∃ t, StandsFor s t) → ∃ fault, parse s = .error fault ∧
        fault.position ≤ s.utf8ByteSize ∧ String.Pos.Raw.IsValid s ⟨fault.position⟩) ∧
      (∀ t, Grammatical t → parse t.display = .ok t) ∧
      ∀ t, parse s = .ok t → parse t.display = .ok t := by
  refine ⟨fun t => parse_eq_ok_iff, ?_, fun t => parse_display, ?_⟩
  · intro hnone
    cases h : parse s with
    | ok t => exact absurd ⟨t, parse_eq_ok_iff.mp h⟩ hnone
    | error fault => exact ⟨fault, rfl, isValid_position h⟩
  · intro t h
    exact parse_display (.of_parse h)

/-- White space in all places, and a text that breaks off behind a character of two bytes. -/
theorem parse_exact_spaced :
    let t : TypeExpr := .mk "Map" true [.named "String", .mk "List" false [.mk "Int" true []]]
    StandsFor " Map < String ,List<Int ?> > ?\u00a0" t ∧ parse t.display = .ok t ∧
      parse "\u00a0List<Int" = .error (.expectedSeparator 10) ∧
      String.Pos.Raw.IsValid "\u00a0List<Int" ⟨10⟩ := by
  intro t
  have hread : parse " Map < String ,List<Int ?> > ?\u00a0" = .ok t := by decide +kernel
  have hstuck : parse "\u00a0List<Int" = .error (.expectedSeparator 10) := by decide +kernel
  obtain ⟨hiff, -, -, hagain⟩ := parse_exact " Map < String ,List<Int ?> > ?\u00a0"
  obtain ⟨hiff', hfault, -⟩ := parse_exact "\u00a0List<Int"
  have hnone : ¬ ∃ t, StandsFor "\u00a0List<Int" t := by
    rintro ⟨t, ht⟩
    rw [← hiff' t, hstuck] at ht
    cases ht
  obtain ⟨fault, hsame, -, hvalid⟩ := hfault hnone
  rw [hstuck] at hsame
  cases hsame
  exact ⟨(hiff t).mp hread, hagain t hread, hstuck, hvalid⟩

end HttpService.TypeExpr
