import Mathlib.Data.List.TakeWhile
import HttpService.Proofs.Lexical
import HttpService.Proofs.Text.Splitting
import HttpService.TypeExpr.Parser

/-!
# The grammar of type expressions

The texts of types as a relation, next to the reader.  With white space allowed where `ws` stands,

    text       ::=  type ws
    type       ::=  ws ('*'  |  name ws [ '<' arguments '>' ws ] [ '?' ])
    arguments  ::=  type ws [ ',' arguments ]
    name       ::=  [A-Za-z_] [A-Za-z0-9_.]*

* `spells_of_read`: what the reader takes off a text spells the type that it gives.
* `readType_of_spells`: a text that spells a type is read as that type, if what stands behind it
  cannot belong to it.
* `parse_eq_ok_iff`: a text is read as a type exactly when it stands for it.
* `isValid_position`: the position of a fault lies between two characters of the text, or at one of
  its ends.

A spelling may stop before white space that the reader takes along, so the reader's rest is
compared with what stands behind the spelling only up to white space.
-/

namespace HttpService.TypeExpr

def Blanks (cs : List Char) : Prop :=
  ∀ c ∈ cs, Text.isBlank c = true

def IsName (name : String) : Prop :=
  name.toList.head?.any isNameStart = true ∧ ∀ c ∈ name.toList, isNameChar c = true

/-- The text of the mark of a nullable type. -/
def markChars (nullable : Bool) : List Char :=
  if nullable then ['?'] else []

mutual

/-- A text that spells a type. -/
inductive Spells : List Char → TypeExpr → Prop
  | star {before : List Char} (hbefore : Blanks before) : Spells (before ++ ['*']) star
  | plain {before between : List Char} {name : String} (hbefore : Blanks before)
      (hname : IsName name) (hbetween : Blanks between) (nullable : Bool) :
      Spells (before ++ name.toList ++ between ++ markChars nullable) (.mk name nullable [])
  | generic {before between inside after : List Char} {name : String} {arguments : List TypeExpr}
      (hbefore : Blanks before) (hname : IsName name) (hbetween : Blanks between)
      (hinside : SpellsAll inside arguments) (hafter : Blanks after) (nullable : Bool) :
      Spells (before ++ name.toList ++ between ++ '<' :: inside ++ '>' :: after ++
        markChars nullable) (.mk name nullable arguments)

/-- A text that spells type arguments, of which there is at least one. -/
inductive SpellsAll : List Char → List TypeExpr → Prop
  | one {cs after : List Char} {t : TypeExpr} (ht : Spells cs t) (hafter : Blanks after) :
      SpellsAll (cs ++ after) [t]
  | more {cs after rest : List Char} {t : TypeExpr} {ts : List TypeExpr} (ht : Spells cs t)
      (hafter : Blanks after) (hrest : SpellsAll rest ts) :
      SpellsAll (cs ++ after ++ ',' :: rest) (t :: ts)

end

/-- A whole text that stands for a type: a spelling of it, and white space. -/
def StandsFor (s : String) (t : TypeExpr) : Prop :=
  ∃ front back, s.toList = front ++ back ∧ Spells front t ∧ Blanks back

/-! ## White space and names -/

theorem skipBlank_append {before : List Char} (h : Blanks before) (cs : List Char) :
    skipBlank (before ++ cs) = skipBlank cs := by
  rw [skipBlank, List.dropWhile_append_of_pos h, skipBlank]

theorem exists_skipBlank (cs : List Char) :
    ∃ before, Blanks before ∧ cs = before ++ skipBlank cs := by
  refine ⟨cs.takeWhile Text.isBlank, ?_, List.takeWhile_append_dropWhile.symm⟩
  intro c hc
  exact List.mem_takeWhile_imp hc

theorem skipBlank_eq {cs : List Char} (h : ∀ c ∈ cs.head?, Text.isBlank c = false) :
    skipBlank cs = cs := by
  cases cs with
  | nil => rfl
  | cons c cs =>
    have hc : Text.isBlank c = false := h c rfl
    rw [skipBlank, List.dropWhile_cons_of_neg (by simp [hc])]

theorem skipBlank_skipBlank (cs : List Char) : skipBlank (skipBlank cs) = skipBlank cs :=
  List.dropWhile_idempotent _ cs

theorem blanks_of_skipBlank {cs : List Char} (h : skipBlank cs = []) : Blanks cs := by
  rw [skipBlank, List.dropWhile_eq_nil_iff] at h
  exact h

theorem isNameChar_of_isNameStart {c : Char} (h : isNameStart c = true) : isNameChar c = true := by
  simp only [isNameStart, isNameChar, Char.isAlphanum, Bool.or_eq_true] at h ⊢
  rcases h with h | h
  · exact .inl (.inl (.inl h))
  · exact .inl (.inr h)

theorem isBlank_of_isNameChar {c : Char} (h : isNameChar c = true) : Text.isBlank c = false := by
  simp only [isNameChar, Bool.or_eq_true, beq_iff_eq] at h
  rcases h with (h | rfl) | rfl
  · have hrange := Lexical.toNat_of_isAlphanum h
    simp only [Text.isBlank, Bool.or_eq_false_iff, Bool.and_eq_false_iff, decide_eq_false_iff_not,
      beq_eq_false_iff_ne]
    omega
  · rfl
  · rfl

theorem isName_takeWhile {cs : List Char} (h : cs.head?.any isNameStart = true) :
    IsName (String.ofList (cs.takeWhile isNameChar)) := by
  cases cs with
  | nil => cases h
  | cons c cs =>
    have hchar : isNameChar c = true := isNameChar_of_isNameStart h
    rw [IsName, String.toList_ofList, List.takeWhile_cons_of_pos hchar]
    refine ⟨h, ?_⟩
    intro d hd
    rcases List.mem_cons.mp hd with rfl | hd
    · exact hchar
    · exact List.mem_takeWhile_imp hd

/-- White space never continues a name, so a text continues one only if it does so at once. -/
theorem isNameChar_head {cs : List Char} (h : ∀ c ∈ (skipBlank cs).head?, isNameChar c = false) :
    ∀ c ∈ cs.head?, isNameChar c = false := by
  intro c hc
  by_cases hblank : Text.isBlank c = true
  · by_contra hname
    rw [isBlank_of_isNameChar (by simpa using hname)] at hblank
    cases hblank
  · have hskip : skipBlank cs = cs := by
      apply skipBlank_eq
      intro d hd
      rw [Option.mem_unique hd hc]
      simpa using hblank
    rw [hskip] at h
    exact h c hc

/-! ## One step of the reader -/

/-- What the reader makes of the text behind a name: arguments and the mark, or the mark alone. -/
def readAfterName (fuel : Nat) (name : String) (tail : List Char) :
    Except Stuck (TypeExpr × List Char) :=
  match tail with
  | '<' :: rest =>
    match readArguments fuel rest with
    | .ok (as, rest) => .ok (.mk name (mark (skipBlank rest)).1 as, (mark (skipBlank rest)).2)
    | .error e => .error e
  | rest => .ok (.mk name (mark rest).1 [], (mark rest).2)

/-- The reader skips white space, then takes the wildcard or a name, or is stuck. -/
theorem readType_cases (fuel : Nat) (cs : List Char) :
    (∃ rest, skipBlank cs = '*' :: rest ∧ readType (fuel + 1) cs = .ok (star, rest)) ∨
      (∃ name tail, IsName name ∧ skipBlank cs = name.toList ++ tail ∧
        readType (fuel + 1) cs = readAfterName fuel name (skipBlank tail)) ∨
      readType (fuel + 1) cs = .error (.name (skipBlank cs)) := by
  rw [readType]
  split
  · next rest hrest => exact .inl ⟨rest, hrest, rfl⟩
  · split
    · next hstart =>
      refine .inr (.inl ⟨_, _, isName_takeWhile hstart, ?_, rfl⟩)
      rw [String.toList_ofList, List.takeWhile_append_dropWhile]
    · exact .inr (.inr rfl)

theorem readType_name (fuel : Nat) {before tail : List Char} {name : String}
    (hbefore : Blanks before) (hname : IsName name)
    (htail : ∀ c ∈ (skipBlank tail).head?, isNameChar c = false) :
    readType (fuel + 1) (before ++ (name.toList ++ tail))
      = readAfterName fuel name (skipBlank tail) := by
  obtain ⟨htake, hdrop⟩ := Text.takeWhile_append hname.2 (isNameChar_head htail)
  obtain ⟨hstart, hchars⟩ := hname
  cases hcs : name.toList with
  | nil =>
    rw [hcs] at hstart
    cases hstart
  | cons c cs =>
    rw [hcs] at hstart hchars
    have hblank : ∀ d ∈ (c :: (cs ++ tail)).head?, Text.isBlank d = false := by
      rintro d ⟨⟩
      exact isBlank_of_isNameChar (hchars c List.mem_cons_self)
    rw [readType, List.cons_append, skipBlank_append hbefore, skipBlank_eq hblank]
    split
    · next heq =>
      obtain rfl := (List.cons.inj heq).1
      cases hstart
    · have hhead : (c :: (cs ++ tail)).head?.any isNameStart = true := hstart
      rw [if_pos hhead, ← List.cons_append, ← hcs, htake, hdrop, String.ofList_toList]
      rfl

theorem markChars_mark (cs : List Char) : markChars (mark cs).1 ++ (mark cs).2 = cs := by
  unfold mark
  split <;> rfl

/-! ## What is read is spelled -/

/-- What is read behind a name spells a type with it, if arguments that are read are spelled. -/
theorem spells_of_readAfterName {fuel : Nat}
    (hread : ∀ cs ts rest, readArguments fuel cs = .ok (ts, rest) →
      ∃ inside, cs = inside ++ '>' :: rest ∧ SpellsAll inside ts)
    {before : List Char} (hbefore : Blanks before) {name : String} (hname : IsName name)
    {tail : List Char} {t : TypeExpr} {rest : List Char}
    (h : readAfterName fuel name (skipBlank tail) = .ok (t, rest)) :
    ∃ front, before ++ (name.toList ++ tail) = front ++ rest ∧ Spells front t := by
  obtain ⟨between, hbetween, htail⟩ := exists_skipBlank tail
  unfold readAfterName at h
  split at h
  · next inner hopen =>
    split at h
    · next arguments behind harguments =>
      cases h
      obtain ⟨inside, hinner, hinside⟩ := hread _ _ _ harguments
      obtain ⟨after, hafter, hbehind⟩ := exists_skipBlank behind
      refine ⟨_, ?_, .generic hbefore hname hbetween hinside hafter (mark (skipBlank behind)).1⟩
      rw [htail, hopen, hinner, hbehind, skipBlank_append hafter, skipBlank_skipBlank]
      simp [markChars_mark]
    · cases h
  · cases h
    refine ⟨_, ?_, .plain hbefore hname hbetween (mark (skipBlank tail)).1⟩
    rw [htail, skipBlank_append hbetween, skipBlank_skipBlank]
    simp [markChars_mark]

/-- **What the reader takes off a text spells what it gives**, and arguments are closed. -/
theorem spells_of_read (fuel : Nat) :
    (∀ cs t rest, readType fuel cs = .ok (t, rest) →
      ∃ front, cs = front ++ rest ∧ Spells front t) ∧
    ∀ cs ts rest, readArguments fuel cs = .ok (ts, rest) →
      ∃ inside, cs = inside ++ '>' :: rest ∧ SpellsAll inside ts := by
  -- Each of the two readers calls the other one, or itself, with one step less.
  induction fuel with
  | zero => exact ⟨nofun, nofun⟩
  | succ fuel ih =>
    obtain ⟨ihType, ihArguments⟩ := ih
    constructor
    · intro cs t rest h
      obtain ⟨before, hbefore, hcs⟩ := exists_skipBlank cs
      rcases readType_cases fuel cs with
        ⟨more, hstar, hread⟩ | ⟨name, tail, hname, hskip, hread⟩ | hread
      · rw [hread] at h
        cases h
        exact ⟨before ++ ['*'], by rw [hcs, hstar]; simp, .star hbefore⟩
      · rw [hread] at h
        rw [hcs, hskip]
        exact spells_of_readAfterName ihArguments hbefore hname h
      · rw [hread] at h
        cases h
    · intro cs ts rest h
      rw [readArguments] at h
      split at h
      · cases h
      · next t more ht =>
        obtain ⟨front, hcs, hspells⟩ := ihType _ _ _ ht
        obtain ⟨after, hafter, hmore⟩ := exists_skipBlank more
        split at h
        · next behind hcomma =>
          split at h
          · next as left has =>
            cases h
            obtain ⟨inside, hbehind, hinside⟩ := ihArguments _ _ _ has
            refine ⟨_, ?_, .more hspells hafter hinside⟩
            rw [hcs, hmore, hcomma, hbehind]
            simp
          · cases h
        · next behind hclose =>
          cases h
          refine ⟨_, ?_, .one hspells hafter⟩
          rw [hcs, hmore, hclose]
          simp
        · cases h

/-! ## What is spelled is read -/

/-- What may stand behind a type after white space: another argument, the closing bracket, or
nothing. -/
def Ends (rest : List Char) : Prop :=
  ∀ c ∈ rest.head?, c = ',' ∨ c = '>'

/-- No sign behind a name belongs to it or to the arguments. -/
theorem isNameChar_of_mark {c : Char} (h : c = '?' ∨ c = ',' ∨ c = '>') :
    isNameChar c = false ∧ c ≠ '<' := by
  rcases h with rfl | rfl | rfl <;> decide

theorem head_skipBlank_markChars (nullable : Bool) {rest : List Char}
    (hrest : Ends (skipBlank rest)) :
    ∀ c ∈ (skipBlank (markChars nullable ++ rest)).head?, c = '?' ∨ c = ',' ∨ c = '>' := by
  intro c hc
  cases nullable with
  | true => exact .inl (Option.some.inj hc).symm
  | false => exact .inr (hrest c hc)

/-- The mark is read where it stands, and what is left is what stands behind it, up to white
space. -/
theorem mark_skipBlank_markChars (nullable : Bool) {rest : List Char}
    (hrest : Ends (skipBlank rest)) :
    ∃ left, mark (skipBlank (markChars nullable ++ rest)) = (nullable, left) ∧
      skipBlank left = skipBlank rest := by
  cases nullable with
  | true => exact ⟨rest, rfl, rfl⟩
  | false =>
    refine ⟨skipBlank rest, ?_, skipBlank_skipBlank rest⟩
    show mark (skipBlank rest) = (false, skipBlank rest)
    unfold mark
    split
    · next heq =>
      rcases hrest '?' (by rw [heq]; rfl) with h | h <;> cases h
    · rfl

mutual

/-- **A text that spells a type is read as that type**, if what stands behind it ends a type. -/
theorem readType_of_spells {cs : List Char} {t : TypeExpr} (h : Spells cs t) (fuel : Nat)
    (hfuel : 2 * cs.length < fuel) (rest : List Char) (hrest : Ends (skipBlank rest)) :
    ∃ left, readType fuel (cs ++ rest) = .ok (t, left) ∧ skipBlank left = skipBlank rest := by
  obtain ⟨fuel, rfl⟩ : ∃ n, fuel = n + 1 := ⟨fuel - 1, by omega⟩
  cases h with
  | @star before hbefore =>
    refine ⟨rest, ?_, rfl⟩
    rw [readType, List.append_assoc, skipBlank_append hbefore, skipBlank_eq (by simp; decide)]
    rfl
  | @plain before between name hbefore hname hbetween nullable =>
    obtain ⟨left, hmark, hleft⟩ := mark_skipBlank_markChars nullable hrest
    have hhead := head_skipBlank_markChars nullable hrest
    have hskip := skipBlank_append hbetween (markChars nullable ++ rest)
    refine ⟨left, ?_, hleft⟩
    simp only [List.append_assoc]
    rw [readType_name fuel hbefore hname
      (by rw [hskip]; exact fun c hc => (isNameChar_of_mark (hhead c hc)).1), hskip, readAfterName]
    · rw [hmark]
    · intro more hmore
      exact (isNameChar_of_mark (hhead '<' (by rw [hmore]; rfl))).2 rfl
  | @generic before between inside after name arguments hbefore hname hbetween hinside hafter
      nullable =>
    obtain ⟨left, hmark, hleft⟩ := mark_skipBlank_markChars nullable hrest
    -- The arguments have two characters less than the text, for the brackets: their steps suffice.
    have hbracket (more : List Char) : skipBlank (between ++ '<' :: more) = '<' :: more := by
      rw [skipBlank_append hbetween, skipBlank_eq (by rintro c ⟨⟩; decide)]
    refine ⟨left, ?_, hleft⟩
    have harguments := readArguments_of_spellsAll hinside fuel
      (by simp only [List.length_append, List.length_cons] at hfuel; omega)
      (after ++ (markChars nullable ++ rest))
    simp only [List.append_assoc, List.cons_append]
    rw [readType_name fuel hbefore hname (by rw [hbracket]; rintro c ⟨⟩; decide), hbracket,
      readAfterName, harguments]
    dsimp only
    rw [skipBlank_append hafter, hmark]

/-- A text that spells type arguments is read as these up to the closing bracket. -/
theorem readArguments_of_spellsAll {cs : List Char} {ts : List TypeExpr} (h : SpellsAll cs ts)
    (fuel : Nat) (hfuel : 2 * cs.length + 1 < fuel) (rest : List Char) :
    readArguments fuel (cs ++ '>' :: rest) = .ok (ts, rest) := by
  obtain ⟨fuel, rfl⟩ : ∃ n, fuel = n + 1 := ⟨fuel - 1, by omega⟩
  cases h with
  | @one front after t ht hafter =>
    have hskip : skipBlank (after ++ '>' :: rest) = '>' :: rest := by
      rw [skipBlank_append hafter, skipBlank_eq (by rintro c ⟨⟩; decide)]
    simp only [List.length_append] at hfuel
    obtain ⟨left, hread, hleft⟩ := readType_of_spells ht fuel (by omega) (after ++ '>' :: rest)
      (by rw [hskip]; rintro c ⟨⟩; exact .inr rfl)
    rw [List.append_assoc, readArguments, hread]
    simp only [hleft, hskip]
  | @more front after inside t ts ht hafter hinside =>
    have hskip : skipBlank (after ++ ',' :: (inside ++ '>' :: rest))
        = ',' :: (inside ++ '>' :: rest) := by
      rw [skipBlank_append hafter, skipBlank_eq (by rintro c ⟨⟩; decide)]
    simp only [List.length_append, List.length_cons] at hfuel
    obtain ⟨left, hread, hleft⟩ := readType_of_spells ht fuel (by omega)
      (after ++ ',' :: (inside ++ '>' :: rest)) (by rw [hskip]; rintro c ⟨⟩; exact .inl rfl)
    have hmore := readArguments_of_spellsAll hinside fuel (by omega) rest
    simp only [List.append_assoc, List.cons_append]
    rw [readArguments, hread]
    simp only [hleft, hskip, hmore]

end

/-! ## Where the reader is stuck -/

/-- What is left of the text where the reader is stuck. -/
def Stuck.rest : Stuck → List Char
  | .name rest | .separator rest => rest

theorem stuck_of_readAfterName {fuel : Nat} {name : String} {tail : List Char} {e : Stuck}
    (h : readAfterName fuel name tail = .error e) :
    ∃ rest, tail = '<' :: rest ∧ readArguments fuel rest = .error e := by
  unfold readAfterName at h
  split at h
  · next rest =>
    split at h
    · cases h
    · next hread =>
      cases h
      exact ⟨rest, rfl, hread⟩
  · cases h

/-- The reader is stuck at a place of its text. -/
theorem suffix_of_stuck (fuel : Nat) :
    (∀ cs e, readType fuel cs = .error e → e.rest <:+ cs) ∧
      ∀ cs e, readArguments fuel cs = .error e → e.rest <:+ cs := by
  induction fuel with
  | zero =>
    constructor <;> rintro cs e ⟨⟩ <;> exact List.suffix_rfl
  | succ fuel ih =>
    obtain ⟨ihType, ihArguments⟩ := ih
    have hskip (cs : List Char) : skipBlank cs <:+ cs := List.dropWhile_suffix _
    constructor
    · intro cs e h
      rcases readType_cases fuel cs with ⟨_, _, hread⟩ | ⟨name, tail, _, hcs, hread⟩ | hread
      · rw [hread] at h
        cases h
      · rw [hread] at h
        obtain ⟨inner, htail, hinner⟩ := stuck_of_readAfterName h
        have hrest : e.rest <:+ skipBlank tail := by
          rw [htail]
          exact (ihArguments inner e hinner).trans (List.suffix_cons _ _)
        have hname : tail <:+ skipBlank cs := ⟨name.toList, hcs.symm⟩
        exact ((hrest.trans (hskip tail)).trans hname).trans (hskip cs)
      · rw [hread] at h
        cases h
        exact hskip cs
    · intro cs e h
      rw [readArguments] at h
      split at h
      · next hread =>
        cases h
        exact ihType cs _ hread
      · next t more hread =>
        obtain ⟨front, rfl, -⟩ := (spells_of_read fuel).1 _ _ _ hread
        have hmore : skipBlank more <:+ front ++ more :=
          (hskip more).trans (List.suffix_append front more)
        split at h
        · next behind hcomma =>
          split at h
          · cases h
          · next hread' =>
            cases h
            rw [hcomma] at hmore
            exact ((ihArguments behind _ hread').trans (List.suffix_cons _ _)).trans hmore
        · cases h
        · cases h
          exact hmore

/-! ## Whole texts -/

/-- **A text is read as a type exactly when it stands for it.** -/
theorem parse_eq_ok_iff {s : String} {t : TypeExpr} : parse s = .ok t ↔ StandsFor s t := by
  unfold parse
  dsimp only
  constructor
  · intro h
    split at h
    · cases h
    · cases h
    · next t' rest hread =>
      split at h
      · next hblank =>
        cases h
        obtain ⟨front, hs, hspells⟩ := (spells_of_read _).1 _ _ _ hread
        exact ⟨front, rest, hs, hspells, blanks_of_skipBlank hblank⟩
      · cases h
  · rintro ⟨front, back, hs, hspells, hback⟩
    have hnil : skipBlank back = [] := by
      rw [← List.append_nil back, skipBlank_append hback]
      rfl
    obtain ⟨left, hread, hleft⟩ := readType_of_spells hspells (2 * s.toList.length + 2)
      (by rw [hs, List.length_append]; omega) back (by rw [hnil]; nofun)
    rw [← hs] at hread
    rw [hread]
    simp only [hleft, hnil]

def Fault.position : Fault → Nat
  | .expectedName p | .expectedSeparator p | .trailingInput p => p

theorem position_eq {s : String} {fault : Fault} (h : parse s = .error fault) :
    ∃ rest, rest <:+ s.toList ∧ fault.position = Utf8.size s.toList - Utf8.size rest := by
  unfold parse at h
  dsimp only at h
  split at h
  · next rest hread =>
    cases h
    exact ⟨rest, (suffix_of_stuck _).1 _ _ hread, rfl⟩
  · next rest hread =>
    cases h
    exact ⟨rest, (suffix_of_stuck _).1 _ _ hread, rfl⟩
  · next t rest hread =>
    split at h
    · cases h
    · cases h
      obtain ⟨front, hs, -⟩ := (spells_of_read _).1 _ _ _ hread
      refine ⟨skipBlank rest, ?_, rfl⟩
      rw [hs]
      exact (List.dropWhile_suffix _).trans (List.suffix_append front rest)

theorem size_eq (cs : List Char) : Utf8.size cs = (String.ofList cs).utf8ByteSize := by
  induction cs with
  | nil => rfl
  | cons c cs ih =>
    rw [Utf8.size, ih, String.ofList_cons, String.utf8ByteSize_append,
      String.utf8ByteSize_singleton]

/-- **A fault names a place between two characters of the text**, or one of its ends. -/
theorem isValid_position {s : String} {fault : Fault} (h : parse s = .error fault) :
    fault.position ≤ s.utf8ByteSize ∧ String.Pos.Raw.IsValid s ⟨fault.position⟩ := by
  obtain ⟨rest, ⟨front, hs⟩, hposition⟩ := position_eq h
  have htext : s = String.ofList front ++ String.ofList rest := by
    rw [← String.ofList_append, hs, String.ofList_toList]
  have hfront : fault.position = (String.ofList front).utf8ByteSize := by
    rw [hposition, size_eq, size_eq, String.ofList_toList, htext, String.utf8ByteSize_append]
    omega
  constructor
  · rw [hfront, htext, String.utf8ByteSize_append]
    omega
  · rw [hfront]
    show String.Pos.Raw.IsValid s (String.ofList front).rawEndPos
    exact String.Pos.Raw.isValid_iff_exists_append.mpr ⟨_, _, htext, rfl⟩

end HttpService.TypeExpr
