import HttpService.Proofs.Url.Directory

/-!
# Reading a URL behind another one's origin

A text that begins with the origin of a URL is read with that origin in front: the authority of a
settled URL is cut off where it ended, so what stands behind it, up to the first `?` or `#`, is
read as the path (`path_of_parse_origin`).
-/

namespace HttpService

namespace Url

/-- A character that is kept by a cleaned text and does not end a path. -/
def isPathChar (c : Char) : Bool :=
  !isEdge c && c != '?' && c != '#'

/-- A character that is kept by a cleaned text and does not end a query. -/
def isQueryChar (c : Char) : Bool :=
  !isEdge c && c != '#'

theorem not_isEdge {c : Char} (hcontrol : Percent.isControl c = false) (hspace : c ≠ ' ') :
    isEdge c = false := by
  have hne : c.toNat ≠ 0x20 := fun he => hspace (Char.toNat_inj.mp he)
  simp only [Percent.isControl, Bool.or_eq_false_iff, decide_eq_false_iff_not] at hcontrol
  simp only [isEdge, decide_eq_false_iff_not]
  omega

theorem isPathChar_of_not_inPath {c : Char} (h : inPath c = false) : isPathChar c = true := by
  have hne (d : Char) (hd : inPath d = true) : c ≠ d := by
    rintro rfl
    rw [h] at hd
    cases hd
  have hcontrol : Percent.isControl c = false := by
    simp only [inPath, inFragment, Bool.or_eq_false_iff] at h
    exact h.1.1
  simp [isPathChar, not_isEdge hcontrol (hne ' ' rfl), hne '?' rfl, hne '#' rfl]

theorem isPathChar_encode {cs : List Char} :
    ∀ c ∈ Percent.encode inPath cs, isPathChar c = true :=
  Percent.forall_mem_encode (by decide) fun _ _ _ hin => isPathChar_of_not_inPath hin

theorem Settled.isPathChar {u : Url} (h : u.Settled) : ∀ c ∈ u.pathChars, isPathChar c = true := by
  intro c hc
  obtain ⟨s, hs, hc⟩ := List.mem_flatMap.mp hc
  rcases List.mem_cons.mp hc with rfl | hc
  · decide
  · have := (h.path s hs).chars c hc
    simp only [isSegmentChar, Bool.and_eq_true, Bool.not_eq_true'] at this
    exact isPathChar_of_not_inPath this.1.2

/-! ## Cleaning -/

theorem isEdge_of_isSkipped {c : Char} (h : isSkipped c = true) : isEdge c = true := by
  simp only [isSkipped, Bool.or_eq_true, beq_iff_eq] at h
  rcases h with (rfl | rfl) | rfl <;> rfl

theorem filter_isSkipped_eq_self {cs : List Char} (h : ∀ c ∈ cs, isEdge c = false) :
    (cs.filter fun c => !isSkipped c) = cs := by
  refine List.filter_eq_self.mpr fun c hc => ?_
  cases hs : isSkipped c with
  | false => rfl
  | true => exact absurd (isEdge_of_isSkipped hs) (by simp [h c hc])

theorem dropEndWhile_append_cons {α : Type} {p : α → Bool} {a : α} (h : p a = false)
    (front back : List α) :
    Text.dropEndWhile p (front ++ a :: back) = front ++ a :: Text.dropEndWhile p back := by
  have hback : (back.reverse ++ a :: front.reverse).dropWhile p
      = back.reverse.dropWhile p ++ a :: front.reverse := by
    induction back.reverse with
    | nil => simp [h]
    | cons b l ih => by_cases hb : p b = true <;> simp [hb, ih]
  simp [Text.dropEndWhile, hback]

theorem dropEndWhile_eq_self {α : Type} {p : α → Bool} {l : List α} (h : ∀ a ∈ l, p a = false) :
    Text.dropEndWhile p l = l := by
  have hkeep : l.reverse.dropWhile p = l.reverse := by
    cases hl : l.reverse with
    | nil => rfl
    | cons a r =>
      have ha : p a = false := h a (List.mem_reverse.mp (hl ▸ List.mem_cons_self))
      exact List.dropWhile_cons_of_neg (by simp [ha])
  rw [Text.dropEndWhile, hkeep, List.reverse_reverse]

/-- What cleaning leaves of a fragment. -/
def cleanFragment (fragment : List Char) : List Char :=
  (Text.dropEndWhile isEdge fragment).filter fun c => !isSkipped c

/-- Cleaning a text without blanks before its fragment changes the fragment only. -/
theorem clean_append_fragment {front : List Char} (h : ∀ c ∈ front, isEdge c = false)
    (fragment : Option (List Char)) :
    clean (front ++ suffix '#' fragment) = front ++ suffix '#' (fragment.map cleanFragment) := by
  have hstart : (front ++ suffix '#' fragment).dropWhile isEdge = front ++ suffix '#' fragment := by
    cases front with
    | nil => cases fragment <;> rfl
    | cons c front => exact List.dropWhile_cons_of_neg (by simp [h c List.mem_cons_self])
  unfold clean Text.trimBy
  rw [hstart]
  cases fragment with
  | none =>
    simp only [suffix, Option.map_none, Option.getD_none, List.append_nil]
    rw [dropEndWhile_eq_self h, filter_isSkipped_eq_self h]
  | some f =>
    simp only [suffix, Option.map_some, Option.getD_some]
    rw [dropEndWhile_append_cons rfl, List.filter_append, filter_isSkipped_eq_self h]
    rfl

/-! ## Cutting -/

theorem cutOff_append_suffix {sign : Char} {front : List Char} (h : ∀ c ∈ front, c ≠ sign)
    (part : Option (List Char)) : Text.cutOff sign (front ++ suffix sign part) = (front, part) := by
  unfold Text.cutOff
  cases part with
  | none =>
    have hnone : Text.cut (· == sign) front = none := Text.cut_eq_none.mpr (by simpa using h)
    simp [suffix, hnone]
  | some after =>
    have hsome : Text.cut (· == sign) (front ++ sign :: after) = some (front, after) := by
      induction front with
      | nil => simp [Text.cut]
      | cons c front ih =>
        rw [List.forall_mem_cons] at h
        simp [Text.cut, h.1, ih h.2]
    simp [suffix, hsome]

/-- What follows an authority is taken apart where its parts were joined. -/
theorem ofChars_append {escaped : Char → Bool} {path : List Char} {query : Option (List Char)}
    (hpath : ∀ c ∈ path, isPathChar c = true)
    (hquery : ∀ q ∈ query, ∀ c ∈ q, isQueryChar c = true) (fragment : Option (List Char)) :
    Tail.ofChars escaped (path ++ suffix '?' query ++ suffix '#' fragment)
      = ⟨path, query.map (Percent.encode escaped), fragment.map (Percent.encode inFragment)⟩ := by
  have hsign : ∀ c ∈ path, c ≠ '?' ∧ c ≠ '#' := by
    intro c hc
    have hkept := hpath c hc
    simp only [isPathChar, Bool.and_eq_true, bne_iff_ne] at hkept
    exact ⟨hkept.1.2, hkept.2⟩
  have hfront : ∀ c ∈ path ++ suffix '?' query, c ≠ '#' := by
    intro c hc
    rcases List.mem_append.mp hc with hc | hc
    · exact (hsign c hc).2
    · cases query with
      | none => cases hc
      | some q =>
        simp only [suffix, Option.map_some, Option.getD_some, List.mem_cons] at hc
        rcases hc with rfl | hc
        · decide
        · have := hquery q rfl c hc
          simp only [isQueryChar, Bool.and_eq_true, bne_iff_ne] at this
          exact this.2
  have hquestion : ∀ c ∈ path, c ≠ '?' := fun c hc => (hsign c hc).1
  simp only [Tail.ofChars, cutOff_append_suffix hfront, cutOff_append_suffix hquestion]

/-! ## Authorities -/

/-- The slashes before an authority are all that is dropped before it. -/
theorem dropWhile_isSlash_authority {auth : List Char} (hne : auth ≠ [])
    (h : ∀ c ∈ auth, isAuthorityChar c = true) (rest : List Char) :
    ('/' :: '/' :: auth ++ rest).dropWhile isSlash = auth ++ rest := by
  cases auth with
  | nil => exact absurd rfl hne
  | cons c auth =>
    have hc : isSlash c = false := by
      have := h c List.mem_cons_self
      simp only [isAuthorityChar, endsAuthority, Bool.and_eq_true, Bool.not_eq_true',
        Bool.or_eq_false_iff] at this
      exact this.1.1.1
    show List.dropWhile isSlash (c :: (auth ++ rest)) = _
    rw [List.dropWhile_cons_of_neg (by simp [hc])]
    rfl

/-- An authority and a path behind two slashes are parted where they were joined. -/
theorem cutAuthority_append [DomainNames] {auth : List Char} (hne : auth ≠ [])
    (h : ∀ c ∈ auth, isAuthorityChar c = true) (defaultPort : Nat) (rest : List Char) :
    cutAuthority defaultPort ('/' :: '/' :: auth ++ '/' :: rest)
      = (authority defaultPort auth).map fun a => (a, '/' :: rest) := by
  have hinside : ∀ c ∈ auth, (!endsAuthority c) = true := by
    intro c hc
    have := h c hc
    simp only [isAuthorityChar, Bool.and_eq_true] at this
    exact this.1
  have hbefore : (auth ++ '/' :: rest).takeWhile (fun c => !endsAuthority c) = auth := by
    rw [List.takeWhile_append_of_pos hinside, List.takeWhile_cons_of_neg (by decide),
      List.append_nil]
  have hbehind : (auth ++ '/' :: rest).dropWhile (fun c => !endsAuthority c) = '/' :: rest := by
    rw [List.dropWhile_append_of_pos hinside, List.dropWhile_cons_of_neg (by decide)]
  rw [cutAuthority, dropWhile_isSlash_authority hne h, hbefore, hbehind]

theorem parts_of_parseWeb [DomainNames] {u v : Url} (hu : u.Settled) {path : List Char}
    {query fragment : Option (List Char)} (hstart : ∃ rest, path = '/' :: rest)
    (hpath : ∀ c ∈ path, isPathChar c = true)
    (hquery : ∀ q ∈ query, ∀ c ∈ q, isQueryChar c = true)
    (h : parseWeb u.scheme ('/' :: '/' :: u.toAuthority.chars
      ++ (path ++ suffix '?' query ++ suffix '#' fragment)) = .ok v) :
    v.scheme = u.scheme ∧
      authority u.scheme.defaultPort u.toAuthority.chars = .ok v.toAuthority ∧
      v.path = pathSegments path := by
  obtain ⟨rest, rfl⟩ := hstart
  have hrest : '/' :: rest ++ suffix '?' query ++ suffix '#' fragment
      = '/' :: (rest ++ suffix '?' query ++ suffix '#' fragment) := rfl
  rw [hrest] at h
  simp only [parseWeb, cutAuthority_append hu.authority_ne_nil hu.authority, bind_ok_iff,
    map_ok_iff, pure_ok_iff] at h
  obtain ⟨_, ⟨a, ha, rfl⟩, rfl⟩ := h
  refine ⟨rfl, ha, ?_⟩
  show pathSegments (Tail.ofChars inQuery _).path = _
  rw [← hrest, ofChars_append hpath hquery]

theorem scheme?_name (s : WebScheme) (rest : List Char) :
    scheme? (s.name.toList ++ ':' :: rest) = some (s.name, rest) := by
  cases s <;> rfl

theorem ofName?_name (s : WebScheme) : WebScheme.ofName? s.name = some s := by
  cases s <;> decide

theorem isPathChar_originChars {u : Url} (hu : u.Settled) :
    ∀ c ∈ u.originChars, isPathChar c = true := by
  have hname : u.scheme.name.toList.all isPathChar = true := by
    cases u.scheme <;> decide
  intro c hc
  simp only [originChars, List.mem_append, List.mem_cons] at hc
  rcases hc with hc | rfl | rfl | rfl | hc
  · exact List.all_eq_true.mp hname c hc
  · decide
  · decide
  · decide
  · have := hu.authority c hc
    simp only [isAuthorityChar, endsAuthority, Bool.and_eq_true, Bool.not_eq_true',
      Bool.or_eq_false_iff, beq_eq_false_iff_ne] at this
    simp [isPathChar, this.1.1.2, this.1.2, this.2]

theorem not_isEdge_append_query {front : List Char} {query : Option (List Char)}
    (hfront : ∀ c ∈ front, isPathChar c = true)
    (hquery : ∀ q ∈ query, ∀ c ∈ q, isQueryChar c = true) :
    ∀ c ∈ front ++ suffix '?' query, isEdge c = false := by
  intro c hc
  rcases List.mem_append.mp hc with hc | hc
  · have := hfront c hc
    simp only [isPathChar, Bool.and_eq_true, Bool.not_eq_true'] at this
    exact this.1.1
  · cases query with
    | none => cases hc
    | some q =>
      simp only [suffix, Option.map_some, Option.getD_some, List.mem_cons] at hc
      rcases hc with rfl | hc
      · decide
      · have := hquery q rfl c hc
        simp only [isQueryChar, Bool.and_eq_true, Bool.not_eq_true'] at this
        exact this.1

end Url

/-- What is read behind the origin of a settled URL. -/
theorem AnyUrl.parseWeb_of_parse_origin [DomainNames] {u v : Url} (hu : u.Settled)
    {path : List Char}
    {query fragment : Option (List Char)} (hpath : ∀ c ∈ path, Url.isPathChar c = true)
    (hquery : ∀ q ∈ query, ∀ c ∈ q, Url.isQueryChar c = true)
    (h : AnyUrl.parse (String.ofList (u.originChars ++ path ++ Url.suffix '?' query
      ++ Url.suffix '#' fragment)) = .ok (.web v)) :
    Url.parseWeb u.scheme ('/' :: '/' :: u.toAuthority.chars ++ (path ++ Url.suffix '?' query
      ++ Url.suffix '#' (fragment.map Url.cleanFragment))) = .ok v := by
  have hfront : u.originChars ++ path ++ Url.suffix '?' query
        ++ Url.suffix '#' (fragment.map Url.cleanFragment)
      = u.scheme.name.toList ++ ':' :: ('/' :: '/' :: u.toAuthority.chars ++ (path
          ++ Url.suffix '?' query ++ Url.suffix '#' (fragment.map Url.cleanFragment))) := by
    simp [Url.originChars]
  have hkept : ∀ c ∈ u.originChars ++ path, Url.isPathChar c = true := by
    intro c hc
    rcases List.mem_append.mp hc with hc | hc
    · exact Url.isPathChar_originChars hu c hc
    · exact hpath c hc
  unfold AnyUrl.parse at h
  rw [String.toList_ofList,
    Url.clean_append_fragment (Url.not_isEdge_append_query hkept hquery)] at h
  simp only [hfront, Url.scheme?_name, Url.ofName?_name, map_ok_iff] at h
  obtain ⟨w, hw, he⟩ := h
  obtain rfl := AnyUrl.web.inj he
  exact hw

/-- **Behind the origin of a settled URL a path is read as it stands**, up to a query and a
fragment. -/
theorem AnyUrl.path_of_parse_origin [DomainNames] {u v : Url} (hu : u.Settled) {path : List Char}
    {query fragment : Option (List Char)} (hstart : ∃ rest, path = '/' :: rest)
    (hpath : ∀ c ∈ path, Url.isPathChar c = true)
    (hquery : ∀ q ∈ query, ∀ c ∈ q, Url.isQueryChar c = true)
    (h : AnyUrl.parse (String.ofList (u.originChars ++ path ++ Url.suffix '?' query
      ++ Url.suffix '#' fragment)) = .ok (.web v)) :
    v.path = Url.pathSegments path :=
  (Url.parts_of_parseWeb hu hstart hpath hquery
    (AnyUrl.parseWeb_of_parse_origin hu hpath hquery h)).2.2

/-- **Behind the origin of a settled URL the scheme stays, and the authority is read again.** -/
theorem AnyUrl.origin_of_parse_origin [DomainNames] {u v : Url} (hu : u.Settled) {path : List Char}
    {query fragment : Option (List Char)} (hstart : ∃ rest, path = '/' :: rest)
    (hpath : ∀ c ∈ path, Url.isPathChar c = true)
    (hquery : ∀ q ∈ query, ∀ c ∈ q, Url.isQueryChar c = true)
    (h : AnyUrl.parse (String.ofList (u.originChars ++ path ++ Url.suffix '?' query
      ++ Url.suffix '#' fragment)) = .ok (.web v)) :
    v.scheme = u.scheme ∧
      Url.authority u.scheme.defaultPort u.toAuthority.chars = .ok v.toAuthority :=
  have hparts := Url.parts_of_parseWeb hu hstart hpath hquery
    (AnyUrl.parseWeb_of_parse_origin hu hpath hquery h)
  ⟨hparts.1, hparts.2.1⟩

end HttpService
