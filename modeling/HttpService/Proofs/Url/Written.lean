import HttpService.Proofs.Success
import HttpService.Proofs.Text.Splitting
import HttpService.Proofs.Url.DotSegments
import HttpService.Proofs.Url.Hosts
import HttpService.Url.Any

/-!
# What a URL is written with

A URL that was read holds only text that a reader takes apart in the same way again: no character
of its authority ends an authority, its host is never empty, and its path is made of segments that
are escaped, hold no slash of either kind and are no dot segments.  `Url.Settled` says so, and
`settled_of_parse` that every URL that was read is settled.
-/

namespace HttpService

namespace Url

/-- A character that ends no authority and is no blank at an edge. -/
def isAuthorityChar (c : Char) : Bool :=
  !endsAuthority c && !isEdge c

/-- A character that stands in a segment: nothing is left to escape, and it is no slash. -/
def isSegmentChar (c : Char) : Bool :=
  c.toNat < 0x80 && !inPath c && !isSlash c

/-- A segment that a reader keeps as it is. -/
structure IsSettledSegment (s : List Char) : Prop where
  chars : ∀ c ∈ s, isSegmentChar c = true
  notSingle : isSingleDot s = false
  notDouble : isDoubleDot s = false

theorem IsSettledSegment.isSlash {s : List Char} (h : IsSettledSegment s) :
    ∀ c ∈ s, isSlash c = false := by
  intro c hc
  have := h.chars c hc
  simp only [isSegmentChar, Bool.and_eq_true, Bool.not_eq_true'] at this
  exact this.2

theorem IsSettledSegment.slash_notMem {s : List Char} (h : IsSettledSegment s) : '/' ∉ s :=
  fun hmem => absurd (h.isSlash '/' hmem) (by decide)

/-- A URL that a reader keeps as it is, as far as its authority is bounded and its path is kept. -/
structure Settled (u : Url) : Prop where
  authority_ne_nil : u.toAuthority.chars ≠ []
  authority : ∀ c ∈ u.toAuthority.chars, isAuthorityChar c = true
  path : ∀ s ∈ u.path, IsSettledSegment s

/-! ## Authorities -/

/-- A class that holds the ends of an authority and all that is no visible ASCII leaves only
characters of an authority. -/
theorem isAuthorityChar_of_class {p : Char → Bool} (hends : "/\\?# ".toList.all p = true)
    (hcontrol : ∀ d, Percent.isControl d = true → p d = true) {c : Char} (h : p c = false) :
    isAuthorityChar c = true := by
  by_contra hbad
  have hmem : c ∈ "/\\?# ".toList ∨ Percent.isControl c = true := by
    by_cases hspace : c = ' '
    · subst hspace
      exact Or.inl (by decide)
    · have hne : c.toNat ≠ 0x20 := fun he => hspace (Char.toNat_inj.mp he)
      simp only [isAuthorityChar, endsAuthority, isSlash, isEdge, Bool.and_eq_true,
        Bool.not_eq_true', Bool.or_eq_false_iff, beq_eq_false_iff_ne, decide_eq_false_iff_not,
        not_and_or, not_not] at hbad
      rcases hbad with ((hslash | rfl) | rfl) | hle
      · rcases hslash with rfl | rfl
        · exact Or.inl (by decide)
        · exact Or.inl (by decide)
      · exact Or.inl (by decide)
      · exact Or.inl (by decide)
      · refine Or.inr ?_
        simp only [Percent.isControl, Bool.or_eq_true, decide_eq_true_eq]
        omega
  rcases hmem with hc | hc
  · rw [List.all_eq_true.mp hends c hc] at h
    cases h
  · rw [hcontrol c hc] at h
    cases h

theorem isAuthorityChar_encode (cs : List Char) :
    ∀ c ∈ Percent.encode inUserInfo cs, isAuthorityChar c = true := by
  refine Percent.forall_mem_encode (by decide) fun c _ _ hc => ?_
  exact isAuthorityChar_of_class (by decide)
    (fun d hd => by simp [inUserInfo, inPath, inFragment, hd]) hc

theorem isAuthorityChar_userInfo (cs : List Char) :
    ∀ c ∈ (readUserInfo cs).chars, isAuthorityChar c = true := by
  have sign : isAuthorityChar ':' = true ∧ isAuthorityChar '@' = true := by decide
  have chars (u : UserInfo) (hname : ∀ c ∈ u.username, isAuthorityChar c = true)
      (hpassword : ∀ p ∈ u.password, ∀ c ∈ p, isAuthorityChar c = true) :
      ∀ c ∈ u.chars, isAuthorityChar c = true := by
    intro c hc
    unfold UserInfo.chars at hc
    split at hc
    · cases hc
    · simp only [List.mem_append, List.mem_singleton] at hc
      rcases hc with (hc | hc) | rfl
      · exact hname c hc
      · cases hp : u.password with
        | none => simp [hp] at hc
        | some p =>
          simp only [hp, Option.map_some, Option.getD_some, List.mem_cons] at hc
          rcases hc with rfl | hc
          · exact sign.1
          · exact hpassword p hp c hc
      · exact sign.2
  unfold readUserInfo
  split
  · exact chars _ (isAuthorityChar_encode cs) (by simp)
  · next name password _ =>
    refine chars _ (isAuthorityChar_encode name) ?_
    by_cases hp : password.isEmpty
    · simp [hp]
    · simpa [hp] using isAuthorityChar_encode password

theorem isAuthorityChar_digitChar (k : Nat) : isAuthorityChar k.digitChar = true := by
  match k with
  | 0 | 1 | 2 | 3 | 4 | 5 | 6 | 7 | 8 | 9 | 10 | 11 | 12 | 13 | 14 | 15 => rfl
  | k + 16 => rw [Nat.digitChar_eq_star.mpr (Nat.le_add_left 16 k)]; rfl

theorem isAuthorityChar_toDigits {base : Nat} (hb : 1 < base) (n : Nat) :
    ∀ c ∈ Nat.toDigits base n, isAuthorityChar c = true := by
  induction n using Nat.base_induction base hb with
  | single m hm =>
    simp [Nat.toDigits_of_lt_base hm, isAuthorityChar_digitChar]
  | digit m k hk hm ih =>
    rw [← Nat.toDigits_append_toDigits hb hm hk, Nat.toDigits_of_lt_base hk]
    simpa [or_imp, forall_and, isAuthorityChar_digitChar] using ih

theorem isAuthorityChar_joinPieces (ps : List UInt16) :
    ∀ c ∈ Host.joinPieces ps, isAuthorityChar c = true := by
  induction ps with
  | nil => simp [Host.joinPieces]
  | cons p ps ih =>
    cases ps with
    | nil => simpa [Host.joinPieces] using isAuthorityChar_toDigits (by decide) p.toNat
    | cons q qs =>
      simp only [Host.joinPieces, List.map_cons] at ih ⊢
      rw [List.intercalate_cons_cons]
      simp only [List.mem_append, List.mem_singleton]
      rintro c ((hc | rfl) | hc)
      · exact isAuthorityChar_toDigits (by decide) p.toNat c hc
      · rfl
      · exact ih c hc

theorem isAuthorityChar_ipv6Chars (ps : List UInt16) :
    ∀ c ∈ Host.ipv6Chars ps, isAuthorityChar c = true := by
  intro c hc
  unfold Host.ipv6Chars at hc
  dsimp only at hc
  split at hc
  · exact isAuthorityChar_joinPieces ps c hc
  · simp only [List.mem_append, List.mem_cons] at hc
    rcases hc with hc | rfl | rfl | hc
    · exact isAuthorityChar_joinPieces _ c hc
    · rfl
    · rfl
    · exact isAuthorityChar_joinPieces _ c hc

theorem isAuthorityChar_of_isNameChar {c : Char} (h : Host.isNameChar c = true) :
    isAuthorityChar c = true := by
  have hforbidden : Host.isForbidden c = false := by
    simp only [Host.isNameChar, Bool.and_eq_true, Bool.not_eq_true'] at h
    exact h.1.2
  exact isAuthorityChar_of_class (by decide) (fun d hd => by simp [Host.isForbidden, hd]) hforbidden

theorem chars_of_parse_host [DomainNames] {cs : List Char} {host : Host}
    (h : Host.parse cs = .ok host) :
    host.chars ≠ [] ∧ ∀ c ∈ host.chars, isAuthorityChar c = true := by
  rcases Host.parse_cases h with ⟨ps, rfl, -⟩ | ⟨address, rfl⟩ | ⟨name, rfl, hne, hname, -⟩
  · have bracket : isAuthorityChar '[' = true ∧ isAuthorityChar ']' = true := by decide
    refine ⟨by simp [Host.chars], ?_⟩
    simpa [Host.chars, or_imp, forall_and, bracket] using isAuthorityChar_ipv6Chars ps
  · refine ⟨by simp [Host.chars, Host.ipv4Chars], fun c hc => ?_⟩
    exact isAuthorityChar_of_isNameChar (Host.isNameChar_ipv4Chars address c hc)
  · exact ⟨hne, fun c hc => isAuthorityChar_of_isNameChar (hname c hc)⟩

/-- An authority that was read is written with characters of an authority, and with at least
one. -/
theorem chars_of_authority [DomainNames] {defaultPort : Nat} {cs : List Char} {a : Authority}
    (h : authority defaultPort cs = .ok a) :
    a.chars ≠ [] ∧ ∀ c ∈ a.chars, isAuthorityChar c = true := by
  unfold authority at h
  dsimp only at h
  split at h
  · simp at h
  · simp only [bind_ok_iff, pure_ok_iff] at h
    obtain ⟨host, hhost, port, -, rfl⟩ := h
    obtain ⟨hne, hmem⟩ := chars_of_parse_host hhost
    refine ⟨by simp [Authority.chars, hne], ?_⟩
    have colon : isAuthorityChar ':' = true := by decide
    intro c hc
    simp only [Authority.chars, List.mem_append] at hc
    rcases hc with (hc | hc) | hc
    · exact isAuthorityChar_userInfo _ c hc
    · exact hmem c hc
    · cases hp : (port.filter (· ≠ defaultPort)).map UInt16.ofNat with
      | none =>
        rw [hp] at hc
        cases hc
      | some p =>
        simp only [hp, Option.map_some, Option.getD_some, List.mem_cons] at hc
        rcases hc with rfl | hc
        · exact colon
        · exact isAuthorityChar_toDigits (by decide) _ c hc

/-! ## Segments -/

theorem isSettledSegment_encode {s : List Char} (hslash : ∀ c ∈ s, isSlash c = false)
    (hsingle : isSingleDot s = false) (hdouble : isDoubleDot s = false) :
    IsSettledSegment (Percent.encode inPath s) where
  chars := Percent.forall_mem_encode (by decide) fun c hs hlt hin => by
    simp [isSegmentChar, hlt, hin, hslash c hs]
  notSingle := by rw [isSingleDot_encode, hsingle]
  notDouble := by rw [isDoubleDot_encode, hdouble]

theorem isSettledSegment_nil : IsSettledSegment [] where
  chars := by simp
  notSingle := rfl
  notDouble := rfl

theorem mem_of_mem_shorten {done : List (List Char)} {s : List Char} (h : s ∈ shorten done) :
    s ∈ done := by
  unfold shorten at h
  split at h
  · cases h
  · split at h
    · exact h
    · exact List.mem_cons_of_mem _ h

/-- Resolving segments keeps them settled: what is removed does not matter, and what is added is
escaped or empty. -/
theorem isSettledSegment_resolveSegments {segs : List (List Char)}
    (hsegs : ∀ s ∈ segs, ∀ c ∈ s, isSlash c = false) :
    ∀ {done : List (List Char)}, (∀ s ∈ done, IsSettledSegment s) →
      ∀ s ∈ resolveSegments done segs, IsSettledSegment s := by
  induction segs with
  | nil => simp [resolveSegments]
  | cons s segs ih =>
    intro done hdone
    rw [List.forall_mem_cons] at hsegs
    have hclose {l : List (List Char)} (hl : ∀ t ∈ l, IsSettledSegment t) :
        ∀ t ∈ (if segs.isEmpty then [] :: l else l), IsSettledSegment t := by
      split
      · exact List.forall_mem_cons.mpr ⟨isSettledSegment_nil, hl⟩
      · exact hl
    rw [resolveSegments]
    split
    · exact ih hsegs.2 (hclose fun t ht => hdone t (mem_of_mem_shorten ht))
    · split
      · exact ih hsegs.2 (hclose hdone)
      · next hdouble hsingle =>
        refine ih hsegs.2 (List.forall_mem_cons.mpr ⟨?_, hdone⟩)
        exact isSettledSegment_encode hsegs.1 (by simpa using hsingle) (by simpa using hdouble)

theorem isSettledSegment_pathSegments (cs : List Char) :
    ∀ s ∈ pathSegments cs, IsSettledSegment s :=
  isSettledSegment_resolveSegments (fun _ hs _ hc => (Text.mem_of_mem_splitAll hs hc).2) (by simp)

/-! ## URLs -/

theorem settled_of_parseWeb [DomainNames] {scheme : WebScheme} {cs : List Char} {u : Url}
    (h : parseWeb scheme cs = .ok u) : u.Settled := by
  simp only [parseWeb, cutAuthority, bind_ok_iff, map_ok_iff, pure_ok_iff] at h
  obtain ⟨_, ⟨a, ha, rfl⟩, rfl⟩ := h
  obtain ⟨hne, hmem⟩ := chars_of_authority ha
  exact ⟨hne, hmem, isSettledSegment_pathSegments _⟩

end Url

/-- **A web URL that was read is settled.** -/
theorem AnyUrl.settled_of_parse [DomainNames] {s : String} {u : Url}
    (h : AnyUrl.parse s = .ok (.web u)) : u.Settled := by
  unfold AnyUrl.parse at h
  split at h
  · cases h
  · split at h
    · obtain ⟨v, hv, he⟩ := (map_ok_iff _ _ _).mp h
      obtain rfl := AnyUrl.web.inj he
      exact Url.settled_of_parseWeb hv
    · obtain ⟨_, -, he⟩ := (map_ok_iff _ _ _).mp h
      cases he

end HttpService
