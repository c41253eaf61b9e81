import HttpService.Proofs.Url.Written

/-!
# Directories

Resolving the segments of a path is a walk through directories.  `enter` is its step and
`directory` its end: what a reader makes of the segments is the directory they lead to and the name
of one file in it (`exists_resolveSegments_eq`).  A walk without dot segments only goes down
(`suffix_directory`), and one path text begins with another that ends in a slash exactly when its
directory lies below the other one (`segmentChars_prefix_iff`).

Directories are walked with the last one first, as `resolveSegments` holds them.
-/

namespace HttpService.Url

/-- The directories after one more segment. -/
def enter (dirs : List (List Char)) (s : List Char) : List (List Char) :=
  if isDoubleDot s then shorten dirs
  else if isSingleDot s then dirs
  else Percent.encode inPath s :: dirs

/-- The directories that segments lead to.  The last segment is the name of a file, unless it is a
dot segment. -/
def directory (dirs : List (List Char)) : List (List Char) → List (List Char)
  | [] => dirs
  | [s] => if isDoubleDot s || isSingleDot s then enter dirs s else dirs
  | s :: t :: rest => directory (enter dirs s) (t :: rest)

/-! ## The walk -/

theorem resolveSegments_cons_cons (dirs : List (List Char)) (s t : List Char)
    (rest : List (List Char)) :
    resolveSegments dirs (s :: t :: rest) = resolveSegments (enter dirs s) (t :: rest) := by
  rw [resolveSegments, enter]
  simp only [List.isEmpty_cons, Bool.false_eq_true, if_false]
  split
  · rfl
  · split <;> rfl

/-- **Resolved segments are the directory that the segments lead to, and one name in it.** -/
theorem exists_resolveSegments_eq {segs : List (List Char)} (h : segs ≠ []) :
    ∀ dirs, ∃ name, resolveSegments dirs segs = (directory dirs segs).reverse ++ [name] := by
  induction segs with
  | nil => exact absurd rfl h
  | cons s rest ih =>
    intro dirs
    cases rest with
    | nil =>
      rw [resolveSegments, directory, enter]
      by_cases hd : isDoubleDot s = true
      · exact ⟨[], by simp [hd, resolveSegments]⟩
      · by_cases hs : isSingleDot s = true
        · exact ⟨[], by simp [hd, hs, resolveSegments]⟩
        · exact ⟨Percent.encode inPath s, by simp [hd, hs, resolveSegments]⟩
    | cons t rest =>
      rw [resolveSegments_cons_cons, directory]
      exact ih (List.cons_ne_nil t rest) (enter dirs s)

theorem IsSettledSegment.enter_eq {s : List Char} (h : IsSettledSegment s)
    (dirs : List (List Char)) : enter dirs s = s :: dirs := by
  have hkeep : Percent.encode inPath s = s := by
    refine Percent.encode_eq_self fun c hc => ?_
    have := h.chars c hc
    simp only [isSegmentChar, Bool.and_eq_true, decide_eq_true_eq, Bool.not_eq_true'] at this
    exact ⟨this.1.1, this.1.2⟩
  simp [enter, h.notDouble, h.notSingle, hkeep]

/-- Settled segments in front of others are the directory that the others start from. -/
theorem resolveSegments_append {front : List (List Char)} (h : ∀ s ∈ front, IsSettledSegment s)
    {back : List (List Char)} (hback : back ≠ []) (dirs : List (List Char)) :
    resolveSegments dirs (front ++ back) = resolveSegments (front.reverse ++ dirs) back := by
  induction front generalizing dirs with
  | nil => rfl
  | cons s front ih =>
    rw [List.forall_mem_cons] at h
    rw [List.reverse_cons, List.append_assoc, List.singleton_append, ← ih h.2]
    cases hl : front ++ back with
    | nil => exact absurd (List.append_eq_nil_iff.mp hl).2 hback
    | cons t rest =>
      rw [List.cons_append, hl, resolveSegments_cons_cons, h.1.enter_eq]

/-- Without dot segments a walk only goes down. -/
theorem suffix_directory {segs : List (List Char)}
    (h : ∀ s ∈ segs, isDoubleDot s = false ∧ isSingleDot s = false) :
    ∀ dirs, dirs <:+ directory dirs segs := by
  induction segs with
  | nil => exact List.suffix_refl
  | cons s rest ih =>
    intro dirs
    rw [List.forall_mem_cons] at h
    cases rest with
    | nil => simp [directory, h.1]
    | cons t rest =>
      rw [directory]
      refine List.IsSuffix.trans ?_ (ih h.2 _)
      simp [enter, h.1]

/-! ## Escaped segments -/

theorem encode_encode_inPath (s : List Char) :
    Percent.encode inPath (Percent.encode inPath s) = Percent.encode inPath s := by
  have hkept : ∀ c ∈ Percent.encode inPath s, (decide (c.toNat < 0x80) && !inPath c) = true :=
    Percent.forall_mem_encode (by decide) fun c _ hlt hin => by simp [hlt, hin]
  refine Percent.encode_eq_self fun c hc => ?_
  simpa using hkept c hc

theorem enter_encode (dirs : List (List Char)) (s : List Char) :
    enter dirs (Percent.encode inPath s) = enter dirs s := by
  simp only [enter, isDoubleDot_encode, isSingleDot_encode, encode_encode_inPath]

/-- Where segments lead does not change when they are escaped. -/
theorem directory_map_encode (segs : List (List Char)) :
    ∀ dirs, directory dirs (segs.map (Percent.encode inPath)) = directory dirs segs := by
  induction segs with
  | nil => exact fun _ => rfl
  | cons s rest ih =>
    intro dirs
    cases rest with
    | nil =>
      simp only [List.map_cons, List.map_nil, directory, isDoubleDot_encode, isSingleDot_encode,
        enter_encode]
    | cons t rest =>
      rw [List.map_cons, List.map_cons, directory, directory, enter_encode, ← List.map_cons, ih]

theorem isSlash_encode_inPath {c : Char} (hc : isSlash c = false) :
    ∀ d ∈ Percent.encodeChar inPath c, isSlash d = false := by
  have hall : ∀ d ∈ Percent.encode inPath [c], (!isSlash d) = true :=
    Percent.forall_mem_encode (by decide) (by simp [hc])
  intro d hd
  have hmem : d ∈ Percent.encode inPath [c] := by simpa [Percent.encode] using hd
  simpa using hall d hmem

theorem splitAll_encode_inPath (cs : List Char) :
    Text.splitAll isSlash (Percent.encode inPath cs)
      = (Text.splitAll isSlash cs).map (Percent.encode inPath) := by
  refine Text.splitAll_flatMap (fun c hc => ⟨c, ?_, hc⟩) (fun c hc => isSlash_encode_inPath hc) cs
  simp only [isSlash, Bool.or_eq_true, beq_iff_eq] at hc
  rcases hc with rfl | rfl <;> rfl

/-! ## Paths as text -/

/-- Of two texts with a slash after their first segments, one begins with the other exactly when
those segments are equal and what follows does. -/
theorem segment_prefix_iff {s t : List Char} (hs : '/' ∉ s) (ht : '/' ∉ t) (a b : List Char) :
    s ++ '/' :: a <+: t ++ '/' :: b ↔ s = t ∧ a <+: b := by
  induction s generalizing t with
  | nil =>
    cases t with
    | nil => simp
    | cons d t =>
      have hd : '/' ≠ d := fun he => ht (he ▸ List.mem_cons_self)
      simp [List.cons_prefix_cons, hd]
  | cons c s ih =>
    cases t with
    | nil =>
      have hc : c ≠ '/' := fun he => hs (he ▸ List.mem_cons_self)
      simp [List.cons_prefix_cons, hc]
    | cons d t =>
      simp only [List.mem_cons, not_or] at hs ht
      simp only [List.cons_append, List.cons_prefix_cons, ih hs.2 ht.2, List.cons.injEq, and_assoc]

theorem segmentChars_cons (s : List Char) (l : List (List Char)) :
    segmentChars (s :: l) = '/' :: s ++ segmentChars l := rfl

theorem segmentChars_append_singleton (l : List (List Char)) (name : List Char) :
    ∃ rest, segmentChars (l ++ [name]) = '/' :: rest := by
  cases l with
  | nil => exact ⟨_, rfl⟩
  | cons s l => exact ⟨_, rfl⟩

/-- **A path begins with a path that ends in a slash exactly when its directory lies below.** -/
theorem segmentChars_prefix_iff {l p : List (List Char)} {name : List Char}
    (hl : ∀ s ∈ l, '/' ∉ s) (hp : ∀ s ∈ p, '/' ∉ s) (hname : '/' ∉ name) :
    segmentChars (l ++ [[]]) <+: segmentChars (p ++ [name]) ↔ l <+: p := by
  induction l generalizing p with
  | nil =>
    obtain ⟨rest, hr⟩ := segmentChars_append_singleton p name
    rw [hr]
    simp [segmentChars, List.cons_prefix_cons]
  | cons s l ih =>
    rw [List.forall_mem_cons] at hl
    obtain ⟨a, ha⟩ := segmentChars_append_singleton l []
    cases p with
    | nil =>
      simp only [List.cons_append, List.nil_append, segmentChars_cons, ha, List.cons_prefix_cons,
        true_and, List.prefix_nil, reduceCtorEq, iff_false]
      intro hpre
      have hmem : '/' ∈ name ++ segmentChars [] := hpre.subset (by simp)
      exact hname (by simpa [segmentChars] using hmem)
    | cons t p =>
      rw [List.forall_mem_cons] at hp
      obtain ⟨b, hb⟩ := segmentChars_append_singleton p name
      have ih := ih hl.2 hp.2
      rw [ha, hb, List.cons_prefix_cons] at ih
      rw [List.cons_append, List.cons_append, segmentChars_cons, segmentChars_cons, ha, hb,
        List.cons_append, List.cons_append, List.cons_prefix_cons, segment_prefix_iff hl.1 hp.1,
        List.cons_prefix_cons, ← ih]
      simp

theorem dropSlash_cons {c : Char} (hc : isSlash c = true) (rest : List Char) :
    dropSlash (c :: rest) = rest := by
  simp [dropSlash, hc]

/-- The segments of a text that begins with directories are those directories and the segments of
what follows. -/
theorem splitAll_segmentChars {l : List (List Char)} (hl : ∀ s ∈ l, ∀ c ∈ s, isSlash c = false)
    (cs : List Char) :
    Text.splitAll isSlash (dropSlash (segmentChars (l ++ [[]]) ++ cs))
      = l ++ Text.splitAll isSlash cs := by
  induction l with
  | nil => rfl
  | cons s l ih =>
    rw [List.forall_mem_cons] at hl
    obtain ⟨a, ha⟩ := segmentChars_append_singleton l []
    have ih := ih hl.2
    rw [ha, List.cons_append, dropSlash_cons rfl] at ih
    rw [List.cons_append, segmentChars_cons, ha, List.cons_append, List.cons_append,
      dropSlash_cons rfl, List.append_assoc, List.cons_append, Text.splitAll_append_cons rfl,
      Text.splitAll_eq_singleton hl.1, ih]
    rfl

end HttpService.Url
