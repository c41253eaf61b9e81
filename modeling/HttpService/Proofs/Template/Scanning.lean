import HttpService.Proofs.Template.Pieces
import Mathlib.Data.List.Forall2

/-!
# What scanning accounts for

`scan` gives every name in braces with its bytes, and the text of whatever else has a brace.  Each
item it gives is a piece of the text, so its span is the one of that piece (`spansOf`); a brace lies
in one piece, and that piece is an item, since it is no plain character (`countP_spans`).  Together:
the placeholders are exactly the names in braces, in order, and every brace belongs to one item and
to no second one (`scan_accounts`).
-/

namespace HttpService.Template

/-- A text stands in another one, its first byte being the `i`-th. -/
def OccursAt (cs text : List Char) (i : Nat) : Prop :=
  ∃ before after, cs = before ++ text ++ after ∧ i = Utf8.size before

/-- A brace of a text, at the `i`-th byte. -/
def BraceAt (cs : List Char) (i : Nat) : Prop :=
  OccursAt cs ['\x7b'] i ∨ OccursAt cs ['\x7d'] i

/-- A placeholder that stands in a text where it says. -/
structure Placeholder.StandsIn (p : Placeholder) (cs : List Char) : Prop where
  isName : Template.isName p.name.toList = true
  occursAt : OccursAt cs (Piece.placeholder p.name.toList).chars p.start
  stop : p.stop = p.start + Utf8.size (Piece.placeholder p.name.toList).chars

def Placeholder.span (p : Placeholder) : Span :=
  ⟨p.start, p.stop⟩

/-- Braces around something that is no name, or a single brace. -/
def IsMalformed (text : List Char) : Prop :=
  (∃ inside, text = (Piece.group inside).chars ∧ isName inside = false ∧
      ∀ c ∈ inside, isBrace c = false) ∨
    ∃ brace, text = [brace] ∧ isBrace brace = true

/-- A malformed item has its text from the start of a span to its end. -/
structure MalformedIn (cs : List Char) (item : String) (s : Span) : Prop where
  isMalformed : IsMalformed item.toList
  occursAt : OccursAt cs item.toList s.start
  stop : s.stop = s.start + Utf8.size item.toList

/-! ## The spans of the items -/

/-- The spans of the pieces that a selection has something to say of. -/
def spansOf (select : Piece → Option String) (ps : List Piece) : List Span :=
  (placedFrom 0 ps).filterMap fun x => (select x.1).map fun _ => x.2

theorem map_fst_placedFrom (start : Nat) (ps : List Piece) :
    (placedFrom start ps).map Prod.fst = ps := by
  induction ps generalizing start with
  | nil => rfl
  | cons p ps ih => rw [placedFrom, List.map_cons, ih]

theorem occursAt_of_mem_placedFrom {cs : List Char} {p : Piece} {s : Span}
    (h : (p, s) ∈ placedFrom 0 (pieces cs)) :
    p.Proper ∧ OccursAt cs p.chars s.start ∧ s.stop = s.start + Utf8.size p.chars := by
  obtain ⟨front, back, hpieces, hstart, hstop⟩ := mem_placedFrom_iff.mp h
  rw [Nat.zero_add] at hstart
  exact ⟨proper_pieces cs p (hpieces ▸ List.mem_append_right front List.mem_cons_self),
    ⟨_, _, eq_append_of_pieces_eq hpieces, hstart⟩, hstop⟩

/-- What is selected of some pieces is related to their spans one by one. -/
theorem forall₂_spansOf {select : Piece → Option String} {ps : List Piece}
    {related : String → Span → Prop}
    (h : ∀ p s item, (p, s) ∈ placedFrom 0 ps → select p = some item → related item s) :
    List.Forall₂ related (ps.filterMap select) (spansOf select ps) := by
  have hps : ps.filterMap select = (placedFrom 0 ps).filterMap fun x => select x.1 := by
    calc ps.filterMap select = ((placedFrom 0 ps).map Prod.fst).filterMap select := by
          rw [map_fst_placedFrom]
      _ = _ := List.filterMap_map
  rw [hps, spansOf]
  generalize placedFrom 0 ps = placed at h
  induction placed with
  | nil => exact List.Forall₂.nil
  | cons x placed ih =>
    have hrest := ih fun p s item hmem => h p s item (List.mem_cons_of_mem x hmem)
    rw [List.filterMap_cons, List.filterMap_cons]
    cases hx : select x.1 with
    | none => exact hrest
    | some item => exact List.Forall₂.cons (h x.1 x.2 item List.mem_cons_self hx) hrest

/-- Of the spans of a selection that cover a byte as many are counted as of the pieces. -/
theorem countP_spansOf (select : Piece → Option String) (ps : List Piece) (i : Nat) :
    (spansOf select ps).countP (·.covers i)
      = (placedFrom 0 ps).countP fun x => (select x.1).isSome && x.2.covers i := by
  rw [spansOf, List.countP_filterMap]
  congr 1
  funext x
  cases select x.1 <;> rfl

/-! ## Placeholders -/

theorem placeholdersFrom_eq (start : Nat) (ps : List Piece) :
    placeholdersFrom start ps
      = (placedFrom start ps).filterMap fun x =>
          x.1.name?.map fun n => ⟨n, x.2.start, x.2.stop⟩ := by
  induction ps generalizing start with
  | nil => rfl
  | cons p ps ih =>
    rw [placeholdersFrom_cons, ih, placedFrom, List.filterMap_cons]
    cases p.name? <;> rfl

theorem map_span_placeholders (cs : List Char) :
    (scan cs).placeholders.map Placeholder.span = spansOf Piece.name? (pieces cs) := by
  show (placeholdersFrom 0 (pieces cs)).map Placeholder.span = _
  rw [placeholdersFrom_eq, List.map_filterMap, spansOf]
  congr 1
  funext x
  cases x.1.name? <;> rfl

theorem pairwise_placeholders (cs : List Char) :
    (scan cs).placeholders.Pairwise fun p q => p.stop ≤ q.start := by
  show (placeholdersFrom 0 (pieces cs)).Pairwise _
  rw [placeholdersFrom_eq, List.pairwise_filterMap]
  refine (pairwise_placedFrom 0 (pieces cs)).imp fun {x y} hxy p hp q hq => ?_
  obtain ⟨m, -, rfl⟩ := Option.map_eq_some_iff.mp hp
  obtain ⟨n, -, rfl⟩ := Option.map_eq_some_iff.mp hq
  exact hxy

/-- **The placeholders are the names in braces.** -/
theorem mem_placeholders_iff {cs : List Char} {p : Placeholder} :
    p ∈ (scan cs).placeholders ↔ p.StandsIn cs := by
  show p ∈ placeholdersFrom 0 (pieces cs) ↔ _
  rw [placeholdersFrom_eq, List.mem_filterMap]
  constructor
  · rintro ⟨⟨piece, s⟩, hplaced, hp⟩
    obtain ⟨hproper, hoccurs, hstop⟩ := occursAt_of_mem_placedFrom hplaced
    cases piece with
    | placeholder name =>
      obtain rfl := Option.some.inj hp
      have hname : (String.ofList name).toList = name := String.toList_ofList
      exact ⟨hname.symm ▸ hproper, hname.symm ▸ hoccurs, hname.symm ▸ hstop⟩
    | plain c | group inside | stray brace => cases hp
  · rintro ⟨hname, ⟨before, after, hcs, hstart⟩, hstop⟩
    refine ⟨(.placeholder p.name.toList, p.span), mem_placedFrom_iff.mpr
      ⟨pieces before, pieces after, ?_, ?_, hstop⟩, ?_⟩
    · rw [hcs, pieces_placeholder hname]
    · rw [flatMap_chars_pieces, Nat.zero_add]
      exact hstart
    · simp [Piece.name?, Placeholder.span]

/-! ## Malformed items -/

theorem isMalformed_of_group? {p : Piece} {item : String} (hproper : p.Proper)
    (h : p.group? = some item) : item.toList = p.chars ∧ IsMalformed item.toList := by
  cases p with
  | group inside =>
    obtain rfl := Option.some.inj h
    rw [String.toList_ofList]
    exact ⟨rfl, Or.inl ⟨inside, rfl, hproper.1, hproper.2⟩⟩
  | plain c | placeholder name | stray brace => cases h

theorem isMalformed_of_stray? {p : Piece} {item : String} (hproper : p.Proper)
    (h : p.stray? = some item) : item.toList = p.chars ∧ IsMalformed item.toList := by
  cases p with
  | stray brace =>
    obtain rfl := Option.some.inj h
    rw [String.toList_ofList]
    exact ⟨rfl, Or.inr ⟨brace, rfl, hproper⟩⟩
  | plain c | placeholder name | group inside => cases h

def malformedSpans (cs : List Char) : List Span :=
  spansOf Piece.group? (pieces cs) ++ spansOf Piece.stray? (pieces cs)

theorem forall₂_malformedSpans (cs : List Char) :
    List.Forall₂ (MalformedIn cs) (scan cs).malformed (malformedSpans cs) := by
  have hplaced {p : Piece} {s : Span} {item : String} (h : (p, s) ∈ placedFrom 0 (pieces cs))
      (hitem : p.Proper → item.toList = p.chars ∧ IsMalformed item.toList) :
      MalformedIn cs item s := by
    obtain ⟨hproper, hoccurs, hstop⟩ := occursAt_of_mem_placedFrom h
    obtain ⟨hchars, hmalformed⟩ := hitem hproper
    exact ⟨hmalformed, hchars ▸ hoccurs, hchars ▸ hstop⟩
  refine List.rel_append ?_ ?_
  · exact forall₂_spansOf fun p s item h hp => hplaced h fun hproper =>
      isMalformed_of_group? hproper hp
  · exact forall₂_spansOf fun p s item h hp => hplaced h fun hproper =>
      isMalformed_of_stray? hproper hp

/-! ## Braces -/

/-- **A brace belongs to one item and to no second one.** -/
theorem countP_of_braceAt {cs : List Char} {i : Nat} (h : BraceAt cs i) :
    ((scan cs).placeholders.map Placeholder.span ++ malformedSpans cs).countP (·.covers i) = 1 := by
  obtain ⟨c, hc, before, after, hcs, rfl⟩ :
      ∃ c, isBrace c = true ∧ OccursAt cs [c] i := by
    rcases h with h | h
    · exact ⟨_, rfl, h⟩
    · exact ⟨_, rfl, h⟩
  rw [List.append_assoc, List.singleton_append, ← flatMap_chars_pieces cs] at hcs
  obtain ⟨front, p, back, u, v, hpieces, hp, rfl⟩ := exists_piece_of_append hcs
  have hstart : 0 + Utf8.size (front.flatMap Piece.chars) ≤
      Utf8.size (front.flatMap Piece.chars ++ u) := by
    rw [Utf8.size_append]
    omega
  have hstop : Utf8.size (front.flatMap Piece.chars ++ u) <
      0 + Utf8.size (front.flatMap Piece.chars) + Utf8.size p.chars := by
    have hpos := c.utf8Size_pos
    rw [hp, Utf8.size_append, Utf8.size_append, Utf8.size]
    omega
  have hcount (select : Piece → Option String) :
      (spansOf select (front ++ p :: back)).countP
          (·.covers (Utf8.size (front.flatMap Piece.chars ++ u)))
        = if (select p).isSome then 1 else 0 :=
    (countP_spansOf _ _ _).trans
      (countP_placedFrom (fun q => (select q).isSome) hstart hstop)
  rw [map_span_placeholders, malformedSpans, hpieces]
  simp only [List.countP_append, hcount]
  cases p with
  | plain d =>
    have hproper : (Piece.plain d).Proper :=
      proper_pieces cs _ (hpieces ▸ List.mem_append_right front List.mem_cons_self)
    have hd : c = d := by
      have hmem : c ∈ (Piece.plain d).chars := by rw [hp]; simp
      exact List.mem_singleton.mp hmem
    rw [← hd, Piece.Proper, hc] at hproper
    cases hproper
  | placeholder name | group inside | stray brace => rfl

theorem MalformedIn.braceAt {cs : List Char} {item : String} {s : Span}
    (h : MalformedIn cs item s) : BraceAt cs s.start ∧ s.covers s.start = true := by
  obtain ⟨hmalformed, ⟨before, after, hcs, hstart⟩, hstop⟩ := h
  obtain ⟨brace, rest, hitem, hbrace⟩ :
      ∃ brace rest, item.toList = brace :: rest ∧ isBrace brace = true := by
    rcases hmalformed with ⟨inside, hitem, -, -⟩ | ⟨brace, hitem, hbrace⟩
    · exact ⟨_, _, hitem, rfl⟩
    · exact ⟨brace, [], hitem, hbrace⟩
  constructor
  · have hoccurs : OccursAt cs [brace] s.start :=
      ⟨before, rest ++ after, by rw [hcs, hitem]; simp, hstart⟩
    simp only [isBrace, Bool.or_eq_true, beq_iff_eq] at hbrace
    rcases hbrace with rfl | rfl
    · exact Or.inl hoccurs
    · exact Or.inr hoccurs
  · have hpos := brace.utf8Size_pos
    rw [hitem, Utf8.size] at hstop
    simp only [Span.covers, Bool.and_eq_true, decide_eq_true_eq]
    omega

/-- Nothing is malformed exactly when every brace belongs to a placeholder. -/
theorem malformed_eq_nil_iff {cs : List Char} :
    (scan cs).malformed = [] ↔
      ∀ i, BraceAt cs i → ∃ p ∈ (scan cs).placeholders, p.span.covers i = true := by
  have hspans := forall₂_malformedSpans cs
  constructor
  · intro hnil i hi
    have hcount := countP_of_braceAt hi
    rw [hnil, List.forall₂_nil_left_iff] at hspans
    rw [hspans, List.append_nil] at hcount
    obtain ⟨s, hs, hcovers⟩ := List.countP_pos_iff.mp (hcount ▸ Nat.one_pos)
    obtain ⟨p, hp, rfl⟩ := List.mem_map.mp hs
    exact ⟨p, hp, hcovers⟩
  · intro hcovered
    cases hitems : (scan cs).malformed with
    | nil => rfl
    | cons item items =>
      -- the first brace of an item would be counted twice
      rw [hitems] at hspans
      obtain ⟨s, spans, hitem, -, hall⟩ := List.forall₂_cons_left_iff.mp hspans
      obtain ⟨hbrace, hcovers⟩ := hitem.braceAt
      obtain ⟨p, hp, hpcovers⟩ := hcovered _ hbrace
      have hcount := countP_of_braceAt hbrace
      rw [List.countP_append, hall] at hcount
      have hfound : 0 < ((scan cs).placeholders.map Placeholder.span).countP (·.covers s.start) :=
        List.countP_pos_iff.mpr ⟨p.span, List.mem_map_of_mem hp, hpcovers⟩
      have hagain : 0 < (s :: spans).countP (·.covers s.start) :=
        List.countP_pos_iff.mpr ⟨s, List.mem_cons_self, hcovers⟩
      omega

/-- **Scanning accounts for every brace.**  The placeholders of a text stand one behind the other
and are exactly its names in braces.  Every malformed item has its place in the text, too, and each
brace belongs to exactly one placeholder or malformed item; so nothing is malformed exactly when
every brace belongs to a placeholder. -/
theorem scan_accounts (cs : List Char) :
    (scan cs).placeholders.Pairwise (fun p q => p.stop ≤ q.start) ∧
      (∀ p, p ∈ (scan cs).placeholders ↔ p.StandsIn cs) ∧
      (∃ spans, List.Forall₂ (MalformedIn cs) (scan cs).malformed spans ∧
        ∀ i, BraceAt cs i →
          ((scan cs).placeholders.map Placeholder.span ++ spans).countP (·.covers i) = 1) ∧
      ((scan cs).malformed = [] ↔
        ∀ i, BraceAt cs i → ∃ p ∈ (scan cs).placeholders, p.span.covers i = true) :=
  ⟨pairwise_placeholders cs, fun _ => mem_placeholders_iff,
    ⟨malformedSpans cs, forall₂_malformedSpans cs, fun _ => countP_of_braceAt⟩,
    malformed_eq_nil_iff⟩

/-- A brace without a partner in front of a placeholder, behind a character of two bytes. -/
theorem scan_accounts_stray :
    let cs := "é\x7b\x7bid\x7d/\x7b\x7d".toList
    scan cs = ⟨[⟨"id", 3, 7⟩], ["\x7b\x7d", "\x7b"]⟩ ∧
      (Placeholder.mk "id" 3 7).StandsIn cs ∧ BraceAt cs 2 ∧
      ∃ spans, List.Forall₂ (MalformedIn cs) ["\x7b\x7d", "\x7b"] spans ∧
        (Span.mk 3 7 :: spans).countP (·.covers 2) = 1 := by
  intro cs
  have hscan : scan cs = ⟨[⟨"id", 3, 7⟩], ["\x7b\x7d", "\x7b"]⟩ := by decide +kernel
  have hbrace : BraceAt cs 2 := Or.inl ⟨['é'], "\x7bid\x7d/\x7b\x7d".toList, by decide, by decide⟩
  obtain ⟨-, hfound, ⟨spans, hspans, honce⟩, -⟩ := scan_accounts cs
  rw [hscan] at hfound hspans honce
  exact ⟨hscan, (hfound _).mp List.mem_cons_self, hbrace, spans, hspans, honce 2 hbrace⟩

end HttpService.Template
