import HttpService.Proofs.Text.Percent
import HttpService.Template.Placeholder
import Mathlib.Data.List.Basic

/-!
# The pieces of a template

What the pieces of a text are and where they lie.  No piece hides a brace: plain characters and the
inside of a group hold none (`proper_pieces`).  Wherever a name stands in braces it is a piece of
its own, and what stands before and after it falls into the pieces that it has alone
(`pieces_placeholder`); so the placeholders of a text are exactly its names in braces
(`placeholder_mem_pieces_iff`).  `placedFrom` gives each piece its stretch of bytes; the stretches
follow one another without a gap (`mem_placedFrom_iff`).
-/

namespace HttpService.Template

def isBrace (c : Char) : Bool :=
  c == '\x7b' || c == '\x7d'

theorem isBrace_eq_false_iff {c : Char} : isBrace c = false ↔ c ≠ '\x7b' ∧ c ≠ '\x7d' := by
  simp [isBrace]

theorem isBrace_of_isName {name : List Char} (h : isName name = true) :
    ∀ c ∈ name, isBrace c = false := by
  have hother (c : Char) (hc : isBrace c = true) :
      c.isAlpha = false ∧ (c.isAlphanum || c == '_' || c == '-') = false := by
    simp only [isBrace, Bool.or_eq_true, beq_iff_eq] at hc
    rcases hc with rfl | rfl <;> decide
  cases name with
  | nil => simp
  | cons a rest =>
    simp only [isName, Bool.and_eq_true, List.all_eq_true] at h
    intro c hc
    by_contra hbrace
    obtain ⟨hfirst, hlater⟩ := hother c (Bool.not_eq_false _ ▸ hbrace)
    rcases List.mem_cons.mp hc with rfl | hc
    · rw [h.1] at hfirst
      cases hfirst
    · rw [h.2 c hc] at hlater
      cases hlater

/-! ## What a piece holds -/

/-- A piece that stands for what it says: a plain character is no brace, a placeholder has a name,
a group has none and no brace inside, and a stray brace is one. -/
def Piece.Proper : Piece → Prop
  | plain c => isBrace c = false
  | placeholder name => isName name = true
  | group inside => isName inside = false ∧ ∀ c ∈ inside, isBrace c = false
  | stray brace => isBrace brace = true

theorem proper_braced {inside : List Char} (h : ∀ c ∈ inside, isBrace c = false) :
    (braced inside).Proper := by
  unfold braced
  split
  · assumption
  · next hname => exact ⟨Bool.eq_false_iff.mpr hname, h⟩

theorem proper_unclosed {inside : List Char} (h : ∀ c ∈ inside, isBrace c = false) :
    ∀ p ∈ unclosed inside, p.Proper := by
  intro p hp
  rcases List.mem_cons.mp hp with rfl | hp
  · rfl
  · obtain ⟨c, hc, rfl⟩ := List.mem_map.mp hp
    exact h c hc

/-- Between an opening brace and the next brace there is none, which the reading keeps. -/
theorem proper_piecesAfter {state : Option (List Char)} {cs : List Char}
    (h : ∀ inside ∈ state, ∀ c ∈ inside, isBrace c = false) :
    ∀ p ∈ piecesAfter state cs, p.Proper := by
  fun_induction piecesAfter state cs with
  | case1 => simp
  | case2 inside => exact proper_unclosed (h inside rfl)
  | case3 rest ih => exact ih (by simp)
  | case4 rest _ ih => exact List.forall_mem_cons.mpr ⟨rfl, ih (by simp)⟩
  | case5 c rest hopen hclose ih =>
    exact List.forall_mem_cons.mpr ⟨isBrace_eq_false_iff.mpr ⟨hopen, hclose⟩, ih (by simp)⟩
  | case6 inside rest ih =>
    exact List.forall_mem_append.mpr ⟨proper_unclosed (h inside rfl), ih (by simp)⟩
  | case7 inside rest _ ih =>
    exact List.forall_mem_cons.mpr ⟨proper_braced (h inside rfl), ih (by simp)⟩
  | case8 inside c rest hopen hclose ih =>
    refine ih fun longer hlonger => ?_
    obtain rfl := Option.some.inj hlonger
    refine List.forall_mem_append.mpr ⟨h inside rfl, ?_⟩
    simpa using isBrace_eq_false_iff.mpr ⟨hopen, hclose⟩

/-- **Every piece of a text is proper.** -/
theorem proper_pieces (cs : List Char) : ∀ p ∈ pieces cs, p.Proper :=
  proper_piecesAfter (by simp)

/-! ## Where a text falls apart -/

/-- An opening brace ends whatever was begun. -/
theorem piecesAfter_append_open (state : Option (List Char)) (as bs : List Char) :
    piecesAfter state (as ++ '\x7b' :: bs) = piecesAfter state as ++ piecesAfter (some []) bs := by
  fun_induction piecesAfter state as <;> simp_all [piecesAfter]

theorem piecesAfter_close {inside : List Char} (h : ∀ c ∈ inside, isBrace c = false)
    (front after : List Char) :
    piecesAfter (some front) (inside ++ '\x7d' :: after)
      = braced (front ++ inside) :: piecesAfter none after := by
  induction inside generalizing front with
  | nil => simp [piecesAfter]
  | cons c inside ih =>
    rw [List.forall_mem_cons] at h
    obtain ⟨hopen, hclose⟩ := isBrace_eq_false_iff.mp h.1
    rw [List.cons_append, piecesAfter, if_neg hopen, if_neg hclose, ih h.2, List.append_assoc]
    rfl

/-- **A name in braces is a piece of its own**, and the text on both sides falls apart as it would
alone. -/
theorem pieces_placeholder {name : List Char} (h : isName name = true) (before after : List Char) :
    pieces (before ++ (Piece.placeholder name).chars ++ after)
      = pieces before ++ .placeholder name :: pieces after := by
  have hbraced : braced name = .placeholder name := if_pos h
  have hchars : before ++ (Piece.placeholder name).chars ++ after
      = before ++ '\x7b' :: (name ++ '\x7d' :: after) := by
    simp [Piece.chars]
  rw [pieces, hchars, piecesAfter_append_open, piecesAfter_close (isBrace_of_isName h),
    List.nil_append, hbraced]
  rfl

/-- A text is what stands for one of its pieces, with what stands on both sides of it. -/
theorem eq_append_of_pieces_eq {cs : List Char} {front back : List Piece} {p : Piece}
    (h : pieces cs = front ++ p :: back) :
    cs = front.flatMap Piece.chars ++ p.chars ++ back.flatMap Piece.chars := by
  rw [← flatMap_chars_pieces cs, h, List.flatMap_append, List.flatMap_cons, List.append_assoc]

/-- **The placeholders of a text are its names in braces.** -/
theorem placeholder_mem_pieces_iff {cs name : List Char} :
    .placeholder name ∈ pieces cs ↔
      isName name = true ∧
        ∃ before after, cs = before ++ (Piece.placeholder name).chars ++ after := by
  constructor
  · intro h
    obtain ⟨front, back, hpieces⟩ := List.append_of_mem h
    exact ⟨proper_pieces cs _ h, _, _, eq_append_of_pieces_eq hpieces⟩
  · rintro ⟨hname, before, after, rfl⟩
    rw [pieces_placeholder hname]
    exact List.mem_append_right _ List.mem_cons_self

/-! ## Names -/

theorem placeholdersFrom_cons (start : Nat) (p : Piece) (ps : List Piece) :
    placeholdersFrom start (p :: ps)
      = (p.name?.map fun n => ⟨n, start, start + Utf8.size p.chars⟩).toList ++
          placeholdersFrom (start + Utf8.size p.chars) ps := by
  cases p <;> rfl

theorem map_name_placeholdersFrom (start : Nat) (ps : List Piece) :
    (placeholdersFrom start ps).map (·.name) = ps.filterMap Piece.name? := by
  induction ps generalizing start with
  | nil => rfl
  | cons p ps ih =>
    rw [placeholdersFrom_cons, List.map_append, ih, List.filterMap_cons]
    cases p.name? <;> rfl

@[simp] theorem map_name_scan (cs : List Char) :
    (scan cs).placeholders.map (·.name) = names cs :=
  map_name_placeholdersFrom 0 (pieces cs)

theorem scan_placeholders_eq_nil_iff {cs : List Char} :
    (scan cs).placeholders = [] ↔ names cs = [] := by
  rw [← map_name_scan, List.map_eq_nil_iff]

/-! ## Where the pieces lie -/

/-- The bytes of a text from one on, up to another. -/
structure Span where
  start : Nat
  stop : Nat
  deriving DecidableEq, Repr

def Span.covers (s : Span) (i : Nat) : Bool :=
  s.start ≤ i && i < s.stop

/-- Pieces with their spans, the first of which starts at a given byte. -/
def placedFrom : Nat → List Piece → List (Piece × Span)
  | _, [] => []
  | start, p :: rest =>
    let stop := start + Utf8.size p.chars
    (p, ⟨start, stop⟩) :: placedFrom stop rest

theorem placedFrom_append (start : Nat) (ps qs : List Piece) :
    placedFrom start (ps ++ qs)
      = placedFrom start ps ++ placedFrom (start + Utf8.size (ps.flatMap Piece.chars)) qs := by
  induction ps generalizing start with
  | nil => rfl
  | cons p ps ih =>
    simp only [List.cons_append, placedFrom, ih, List.flatMap_cons, Utf8.size_append, Nat.add_assoc]

/-- **The spans follow one another**: each starts where the text before its piece ends. -/
theorem mem_placedFrom_iff {start : Nat} {ps : List Piece} {p : Piece} {s : Span} :
    (p, s) ∈ placedFrom start ps ↔
      ∃ front back, ps = front ++ p :: back ∧
        s.start = start + Utf8.size (front.flatMap Piece.chars) ∧
        s.stop = s.start + Utf8.size p.chars := by
  constructor
  · intro h
    induction ps generalizing start with
    | nil => cases h
    | cons q rest ih =>
      rcases List.mem_cons.mp h with heq | h
      · obtain ⟨rfl, rfl⟩ := Prod.mk.inj heq
        exact ⟨[], rest, rfl, rfl, rfl⟩
      · obtain ⟨front, back, rfl, hstart, hstop⟩ := ih h
        refine ⟨q :: front, back, rfl, ?_, hstop⟩
        rw [hstart, List.flatMap_cons, Utf8.size_append, Nat.add_assoc]
  · rintro ⟨front, back, rfl, hstart, hstop⟩
    rw [placedFrom_append]
    refine List.mem_append_right _ (List.mem_cons.mpr (Or.inl ?_))
    rw [← hstart, ← hstop]

theorem le_of_mem_placedFrom {start : Nat} {ps : List Piece} {x : Piece × Span}
    (h : x ∈ placedFrom start ps) :
    start ≤ x.2.start ∧ x.2.stop ≤ start + Utf8.size (ps.flatMap Piece.chars) := by
  obtain ⟨front, back, rfl, hstart, hstop⟩ := mem_placedFrom_iff.mp h
  simp only [List.flatMap_append, List.flatMap_cons, Utf8.size_append]
  omega

theorem pairwise_placedFrom (start : Nat) (ps : List Piece) :
    (placedFrom start ps).Pairwise fun x y => x.2.stop ≤ y.2.start := by
  induction ps generalizing start with
  | nil => exact List.Pairwise.nil
  | cons p ps ih => exact List.pairwise_cons.mpr ⟨fun y hy => (le_of_mem_placedFrom hy).1, ih _⟩

/-- A byte lies in the span of one piece, which is counted if it is selected. -/
theorem countP_placedFrom (select : Piece → Bool) {start i : Nat} {front back : List Piece}
    {p : Piece} (hstart : start + Utf8.size (front.flatMap Piece.chars) ≤ i)
    (hstop : i < start + Utf8.size (front.flatMap Piece.chars) + Utf8.size p.chars) :
    (placedFrom start (front ++ p :: back)).countP (fun x => select x.1 && x.2.covers i)
      = if select p then 1 else 0 := by
  have hfront : (placedFrom start front).countP (fun x => select x.1 && x.2.covers i) = 0 := by
    refine List.countP_eq_zero.mpr fun x hx => ?_
    have hle := (le_of_mem_placedFrom hx).2
    simp only [Span.covers, Bool.and_eq_true, decide_eq_true_eq, not_and]
    omega
  have hback (stop : Nat) (h : i < stop) :
      (placedFrom stop back).countP (fun x => select x.1 && x.2.covers i) = 0 := by
    refine List.countP_eq_zero.mpr fun x hx => ?_
    have hle := (le_of_mem_placedFrom hx).1
    simp only [Span.covers, Bool.and_eq_true, decide_eq_true_eq, not_and]
    omega
  rw [placedFrom_append, List.countP_append, hfront, placedFrom, List.countP_cons, hback _ hstop]
  simp [Span.covers, hstart, hstop]

theorem exists_piece_of_append {ps : List Piece} {before after : List Char} {c : Char}
    (h : ps.flatMap Piece.chars = before ++ c :: after) :
    ∃ front p back u v, ps = front ++ p :: back ∧ p.chars = u ++ c :: v ∧
      before = front.flatMap Piece.chars ++ u := by
  induction ps generalizing before with
  | nil => simp at h
  | cons p ps ih =>
    rw [List.flatMap_cons] at h
    rcases List.append_eq_append_iff.mp h with ⟨u, rfl, hrest⟩ | ⟨v, hp, hrest⟩
    · obtain ⟨front, q, back, v, w, rfl, hq, rfl⟩ := ih hrest
      exact ⟨p :: front, q, back, v, w, rfl, hq, by rw [List.flatMap_cons, List.append_assoc]⟩
    · cases v with
      | nil =>
        have hfront : ps.flatMap Piece.chars = [] ++ c :: after := hrest.symm
        obtain ⟨front, q, back, v, w, rfl, hq, hv⟩ := ih hfront
        refine ⟨p :: front, q, back, v, w, rfl, hq, ?_⟩
        rw [List.flatMap_cons, List.append_assoc, ← hv, List.append_nil, hp, List.append_nil]
      | cons d v =>
        obtain ⟨rfl, -⟩ := List.cons.inj hrest
        exact ⟨[], p, ps, before, v, rfl, hp, rfl⟩

end HttpService.Template
