import HttpService.Proofs.Template.Scanning

/-!
# Scanning in two passes

A text can be scanned without dividing it into pieces.  The first pass finds the groups: an opening
brace, characters that are no brace, and a closing one, always the next group behind the last.  The
second pass goes over the bytes and takes every brace that lies in no group.

Both come to the same (`scan_eq_scanTwice`): the groups are the pieces with an inside
(`groupsFrom_eq`), and the braces that none of them covers are the strays (`sweep_eq`).
-/

namespace HttpService.Template

/-- A group that was found: what is between its braces, and its bytes. -/
structure Group where
  inside : List Char
  span : Span

/-- The inside of the group at the start of a text, and the text behind it. -/
def group? : List Char → Option (List Char × List Char)
  | [] => none
  | c :: rest =>
    if c = '\x7b' then
      match rest.dropWhile fun d => !isBrace d with
      | '\x7d' :: after => some (rest.takeWhile fun d => !isBrace d, after)
      | _ => none
    else none

theorem group?_eq_some {cs inside after : List Char} (h : group? cs = some (inside, after)) :
    cs = '\x7b' :: (inside ++ '\x7d' :: after) ∧ ∀ c ∈ inside, isBrace c = false := by
  cases cs with
  | nil => cases h
  | cons c rest =>
    rw [group?] at h
    split at h
    · next hopen =>
      split at h
      · next hclose =>
        obtain ⟨rfl, rfl⟩ := Prod.mk.inj (Option.some.inj h)
        refine ⟨?_, fun d hd => by
          simpa using List.all_eq_true.mp List.all_takeWhile d hd⟩
        rw [hopen, ← hclose, List.takeWhile_append_dropWhile]
      · cases h
    · cases h

/-- The groups of a text whose first byte has a number. -/
def groupsFrom (start : Nat) (cs : List Char) : List Group :=
  match cs with
  | [] => []
  | c :: rest =>
    match _h : group? (c :: rest) with
    | some (inside, after) =>
      let stop := start + Utf8.size (Piece.group inside).chars
      ⟨inside, start, stop⟩ :: groupsFrom stop after
    | none => groupsFrom (start + c.utf8Size) rest
termination_by cs.length
decreasing_by
  · rw [(group?_eq_some _h).1]
    simp
    omega
  · simp

/-- The braces among some bytes that are not covered, the first byte having a number. -/
def sweep (covered : Nat → Bool) : Nat → Bytes → List String
  | _, [] => []
  | i, b :: rest =>
    if (b = 0x7b ∨ b = 0x7d) ∧ covered i = false then
      String.ofList [Char.ofNat b.toNat] :: sweep covered (i + 1) rest
    else sweep covered (i + 1) rest

/-- A group whose inside is a name, as a placeholder. -/
def Group.placeholder? (g : Group) : Option Placeholder :=
  if isName g.inside then some ⟨String.ofList g.inside, g.span.start, g.span.stop⟩ else none

/-- The text of a group whose inside is no name. -/
def Group.malformed? (g : Group) : Option String :=
  if isName g.inside then none else some (String.ofList (Piece.group g.inside).chars)

/-- A text scanned in two passes. -/
def scanTwice (cs : List Char) : Scan :=
  let groups := groupsFrom 0 cs
  let covered i := groups.any fun g => g.span.covers i
  ⟨groups.filterMap Group.placeholder?,
    groups.filterMap Group.malformed? ++ sweep covered 0 (Utf8.encode cs)⟩

/-! ## Groups are pieces -/

def Piece.inside? : Piece → Option (List Char)
  | placeholder name => some name
  | group inside => some inside
  | _ => none

/-- The group that a piece at a span is, if it has an inside. -/
def placedGroup? (x : Piece × Span) : Option Group :=
  x.1.inside?.map fun inside => ⟨inside, x.2⟩

theorem inside?_braced (inside : List Char) : (braced inside).inside? = some inside := by
  unfold braced
  split <;> rfl

/-- A character that begins no group. -/
def single (c : Char) : Piece :=
  if isBrace c then .stray c else .plain c

theorem pieces_of_group? {cs inside after : List Char} (h : group? cs = some (inside, after)) :
    pieces cs = braced inside :: pieces after := by
  obtain ⟨rfl, hinside⟩ := group?_eq_some h
  exact piecesAfter_close hinside [] after

theorem piecesAfter_none_run {run : List Char} (h : ∀ c ∈ run, isBrace c = false) :
    piecesAfter none run = run.map .plain := by
  induction run with
  | nil => rfl
  | cons c run ih =>
    obtain ⟨hc, hrun⟩ := List.forall_mem_cons.mp h
    obtain ⟨hopen, hclose⟩ := isBrace_eq_false_iff.mp hc
    rw [piecesAfter, if_neg hopen, if_neg hclose, ih hrun, List.map_cons]

theorem piecesAfter_some_run {run : List Char} (h : ∀ c ∈ run, isBrace c = false)
    (front : List Char) : piecesAfter (some front) run = unclosed (front ++ run) := by
  induction run generalizing front with
  | nil => rw [piecesAfter, List.append_nil]
  | cons c run ih =>
    obtain ⟨hc, hrun⟩ := List.forall_mem_cons.mp h
    obtain ⟨hopen, hclose⟩ := isBrace_eq_false_iff.mp hc
    rw [piecesAfter, if_neg hopen, if_neg hclose, ih hrun, List.append_assoc]
    rfl

/-- Behind an opening brace that begins no group, what follows falls apart as it would alone. -/
theorem pieces_open {rest : List Char} (h : group? ('\x7b' :: rest) = none) :
    pieces ('\x7b' :: rest) = .stray '\x7b' :: pieces rest := by
  have hrun : ∀ c ∈ rest.takeWhile fun d => !isBrace d, isBrace c = false := fun c hc => by
    simpa using List.all_eq_true.mp List.all_takeWhile c hc
  have hrest := (List.takeWhile_append_dropWhile (p := fun d => !isBrace d) (l := rest)).symm
  generalize rest.takeWhile (fun d => !isBrace d) = run at hrun hrest
  show piecesAfter (some []) rest = .stray '\x7b' :: piecesAfter none rest
  cases hdrop : rest.dropWhile fun d => !isBrace d with
  | nil =>
    rw [hdrop, List.append_nil] at hrest
    rw [hrest, piecesAfter_some_run hrun, piecesAfter_none_run hrun]
    rfl
  | cons d back =>
    have hd : isBrace d = true := by
      have hhead := List.head_dropWhile_not (fun d => !isBrace d) (l := rest) (by simp [hdrop])
      simpa [hdrop] using hhead
    have hopen : d = '\x7b' := by
      by_contra hne
      have hclose : d = '\x7d' := by simpa [isBrace, hne] using hd
      rw [group?, if_pos rfl, hdrop, hclose] at h
      cases h
    rw [hdrop, hopen] at hrest
    rw [hrest, piecesAfter_append_open, piecesAfter_append_open, piecesAfter_some_run hrun,
      piecesAfter_none_run hrun]
    rfl

theorem pieces_of_group?_eq_none {c : Char} {rest : List Char} (h : group? (c :: rest) = none) :
    pieces (c :: rest) = single c :: pieces rest := by
  by_cases hopen : c = '\x7b'
  · rw [hopen] at h ⊢
    exact pieces_open h
  · rw [pieces, piecesAfter, if_neg hopen]
    by_cases hclose : c = '\x7d'
    · rw [if_pos hclose, hclose]
      rfl
    · rw [if_neg hclose, single, isBrace_eq_false_iff.mpr ⟨hopen, hclose⟩]
      rfl

theorem inside?_single (c : Char) : (single c).inside? = none := by
  unfold single
  split <;> rfl

theorem chars_single (c : Char) : (single c).chars = [c] := by
  unfold single
  split <;> rfl

/-- **The groups of a text are its pieces with an inside**, each at its span. -/
theorem groupsFrom_eq (start : Nat) (cs : List Char) :
    groupsFrom start cs = (placedFrom start (pieces cs)).filterMap placedGroup? := by
  fun_induction groupsFrom start cs with
  | case1 => rfl
  | case2 start c rest inside after h stop ih =>
    rw [ih, pieces_of_group? h, placedFrom,
      List.filterMap_cons_some (by rw [placedGroup?, inside?_braced]; rfl), chars_braced]
    rfl
  | case3 start c rest h ih =>
    rw [ih, pieces_of_group?_eq_none h, placedFrom,
      List.filterMap_cons_none (by rw [placedGroup?, inside?_single]; rfl), chars_single]
    rfl

/-! ## What is left over -/

theorem sweep_append (covered : Nat → Bool) (i : Nat) (front back : Bytes) :
    sweep covered i (front ++ back)
      = sweep covered i front ++ sweep covered (i + front.length) back := by
  induction front generalizing i with
  | nil => rfl
  | cons b front ih =>
    rw [List.cons_append, sweep, sweep, ih, List.length_cons, Nat.add_right_comm i 1]
    split
    · rfl
    · rfl

theorem sweep_of_covered {covered : Nat → Bool} {i : Nat} {bytes : Bytes}
    (h : ∀ j, i ≤ j → j < i + bytes.length → covered j = true) : sweep covered i bytes = [] := by
  induction bytes generalizing i with
  | nil => rfl
  | cons b bytes ih =>
    rw [List.length_cons] at h
    have hfirst : covered i = true := h i (Nat.le_refl i) (by omega)
    rw [sweep, hfirst, if_neg (fun hleft => Bool.false_ne_true hleft.2.symm)]
    exact ih fun j hle hlt => h j (by omega) (by omega)

theorem sweep_of_no_brace {covered : Nat → Bool} {i : Nat} {bytes : Bytes}
    (h : ∀ b ∈ bytes, ¬ (b = 0x7b ∨ b = 0x7d)) : sweep covered i bytes = [] := by
  induction bytes generalizing i with
  | nil => rfl
  | cons b bytes ih =>
    obtain ⟨hb, hbytes⟩ := List.forall_mem_cons.mp h
    rw [sweep, if_neg (fun hleft => hb hleft.1)]
    exact ih hbytes

theorem sweep_plain {covered : Nat → Bool} {i : Nat} {c : Char} (hc : isBrace c = false) :
    sweep covered i (Utf8.encode [c]) = [] := by
  obtain ⟨hopen, hclose⟩ := isBrace_eq_false_iff.mp hc
  refine sweep_of_no_brace fun b hb hbrace => ?_
  rcases hbrace with rfl | rfl
  · have hmem : '\x7b' ∈ [c] := Utf8.mem_of_mem_encode (by decide) hb
    exact hopen (List.mem_singleton.mp hmem).symm
  · have hmem : '\x7d' ∈ [c] := Utf8.mem_of_mem_encode (by decide) hb
    exact hclose (List.mem_singleton.mp hmem).symm

theorem sweep_stray {covered : Nat → Bool} {i : Nat} {c : Char} (hc : isBrace c = true)
    (hnot : covered i = false) : sweep covered i (Utf8.encode [c]) = [String.ofList [c]] := by
  have hbrace : c = '\x7b' ∨ c = '\x7d' := by simpa [isBrace] using hc
  rcases hbrace with rfl | rfl
  · show sweep covered i [0x7b] = _
    rw [sweep, if_pos ⟨Or.inl rfl, hnot⟩]
    rfl
  · show sweep covered i [0x7d] = _
    rw [sweep, if_pos ⟨Or.inr rfl, hnot⟩]
    rfl

/-- Whether a byte lies in a piece with an inside. -/
def inGroup (ps : List (Piece × Span)) (i : Nat) : Bool :=
  ps.any fun x => x.1.inside?.isSome && x.2.covers i

theorem inGroup_of_piece {start i : Nat} {front back : List Piece} {p : Piece}
    (hstart : start + Utf8.size (front.flatMap Piece.chars) ≤ i)
    (hstop : i < start + Utf8.size (front.flatMap Piece.chars) + Utf8.size p.chars) :
    inGroup (placedFrom start (front ++ p :: back)) i = p.inside?.isSome := by
  have hcount : (placedFrom start (front ++ p :: back)).countP
      (fun x => x.1.inside?.isSome && x.2.covers i) = if p.inside?.isSome then 1 else 0 :=
    countP_placedFrom (fun q => q.inside?.isSome) hstart hstop
  rw [Bool.eq_iff_iff, inGroup, List.any_eq_true, ← List.countP_pos_iff, hcount]
  cases p.inside?.isSome <;> decide

/-- **The braces that no group covers are the strays.** -/
theorem sweep_eq (ps : List Piece) (h : ∀ p ∈ ps, p.Proper) :
    sweep (inGroup (placedFrom 0 ps)) 0 (Utf8.encode (ps.flatMap Piece.chars))
      = ps.filterMap Piece.stray? := by
  -- the pieces behind are swept with the groups of them all
  suffices hback : ∀ back front, ps = front ++ back →
      sweep (inGroup (placedFrom 0 ps)) (Utf8.size (front.flatMap Piece.chars))
        (Utf8.encode (back.flatMap Piece.chars)) = back.filterMap Piece.stray? from
    hback ps [] rfl
  intro back
  induction back with
  | nil => intro front _; rfl
  | cons p back ih =>
    intro front hps
    have hnext := ih (front ++ [p]) (by rw [hps, List.append_assoc]; rfl)
    have hin (i : Nat) (hstart : Utf8.size (front.flatMap Piece.chars) ≤ i)
        (hstop : i < Utf8.size (front.flatMap Piece.chars) + Utf8.size p.chars) :
        inGroup (placedFrom 0 ps) i = p.inside?.isSome := by
      rw [hps]
      exact inGroup_of_piece (by omega) (by omega)
    have hproper : p.Proper := h p (hps ▸ List.mem_append_right front List.mem_cons_self)
    rw [List.flatMap_append, List.flatMap_singleton, Utf8.size_append] at hnext
    rw [List.flatMap_cons, Utf8.encode_append, sweep_append, Utf8.length_encode, hnext]
    cases p with
    | plain c =>
      rw [chars_plain, sweep_plain hproper]
      rfl
    | stray c =>
      have hpos := c.utf8Size_pos
      rw [chars_stray, sweep_stray hproper (hin _ (Nat.le_refl _)
        (by rw [chars_stray, Utf8.size, Utf8.size]; omega))]
      rfl
    | placeholder inside | group inside =>
      rw [sweep_of_covered fun j hle hlt => hin j hle (by rwa [Utf8.length_encode] at hlt)]
      rfl

/-! ## Both ways of scanning -/

theorem placeholder?_placedGroup? {x : Piece × Span} (h : x.1.Proper) :
    (placedGroup? x).bind Group.placeholder?
      = x.1.name?.map fun n => ⟨n, x.2.start, x.2.stop⟩ := by
  obtain ⟨p, s⟩ := x
  cases p with
  | plain c | stray c => rfl
  | placeholder name => exact if_pos h
  | group inside => exact if_neg (by rw [h.1]; exact Bool.false_ne_true)

theorem malformed?_placedGroup? {x : Piece × Span} (h : x.1.Proper) :
    (placedGroup? x).bind Group.malformed? = x.1.group? := by
  obtain ⟨p, s⟩ := x
  cases p with
  | plain c | stray c => rfl
  | placeholder name => exact if_pos h
  | group inside => exact if_neg (by rw [h.1]; exact Bool.false_ne_true)

theorem covers_placedGroup? (ps : List (Piece × Span)) (i : Nat) :
    ((ps.filterMap placedGroup?).any fun g => g.span.covers i) = inGroup ps i := by
  rw [List.any_filterMap, inGroup]
  congr 1
  funext x
  unfold placedGroup?
  cases x.1.inside? <;> rfl

/-- **Two passes over a text find what one division of it shows.** -/
theorem scan_eq_scanTwice (cs : List Char) : scan cs = scanTwice cs := by
  have hproper : ∀ x ∈ placedFrom 0 (pieces cs), x.1.Proper := fun x hx =>
    (occursAt_of_mem_placedFrom hx).1
  have hgroups : groupsFrom 0 cs = (placedFrom 0 (pieces cs)).filterMap placedGroup? :=
    groupsFrom_eq 0 cs
  have hplaceholders : (scan cs).placeholders = (groupsFrom 0 cs).filterMap Group.placeholder? := by
    rw [hgroups, List.filterMap_filterMap]
    exact (placeholdersFrom_eq 0 (pieces cs)).trans
      (List.filterMap_congr fun x hx => (placeholder?_placedGroup? (hproper x hx)).symm)
  have hmalformed : (pieces cs).filterMap Piece.group?
      = (groupsFrom 0 cs).filterMap Group.malformed? := by
    rw [hgroups, List.filterMap_filterMap,
      List.filterMap_congr fun x hx => malformed?_placedGroup? (hproper x hx)]
    calc (pieces cs).filterMap Piece.group?
        = ((placedFrom 0 (pieces cs)).map Prod.fst).filterMap Piece.group? := by
          rw [map_fst_placedFrom]
      _ = _ := List.filterMap_map
  have hstrays : (pieces cs).filterMap Piece.stray?
      = sweep (fun i => (groupsFrom 0 cs).any fun g => g.span.covers i) 0 (Utf8.encode cs) := by
    rw [← sweep_eq (pieces cs) (proper_pieces cs), flatMap_chars_pieces, hgroups]
    congr 1
    funext i
    exact (covers_placedGroup? _ i).symm
  show Scan.mk (scan cs).placeholders _ = Scan.mk _ _
  rw [hplaceholders, hmalformed, hstrays]

end HttpService.Template
