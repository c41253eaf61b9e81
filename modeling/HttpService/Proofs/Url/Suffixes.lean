import HttpService.Proofs.Url.Rereading

/-!
# Queries and fragments of a text

What stands behind the first `?` and the first `#` of a text has no say in what stands before, and
nothing that stands before reaches it: whatever is read of a front without either sign, the query
and the fragment of the URL are those that were put behind it (`AnyUrl.suffixes_of_parse`).  A
reader passes through the front in three walks, over the scheme, over slashes and over the
authority, and each of them stops at a `?` and at a `#`.
-/

namespace HttpService

namespace Url

/-- A walk that stops at a `?` and at a `#` stays in front of the suffixes. -/
theorem dropWhile_append_suffixes {p : Char → Bool} (hquestion : p '?' = false)
    (hhash : p '#' = false) (front : List Char) (query fragment : Option (List Char)) :
    (front ++ suffix '?' query ++ suffix '#' fragment).dropWhile p
      = front.dropWhile p ++ suffix '?' query ++ suffix '#' fragment := by
  have hstop : (suffix '?' query ++ suffix '#' fragment).dropWhile p
      = suffix '?' query ++ suffix '#' fragment := by
    cases query with
    | some q => exact List.dropWhile_cons_of_neg (by simp [hquestion])
    | none =>
      cases fragment with
      | some f => exact List.dropWhile_cons_of_neg (by simp [hhash])
      | none => rfl
  rw [List.append_assoc, List.dropWhile_append, hstop, List.append_assoc]
  split
  · next hempty => rw [List.isEmpty_iff.mp hempty, List.nil_append]
  · rfl

theorem rest_of_scheme? {front rest : List Char} {query fragment : Option (List Char)}
    {name : String}
    (h : scheme? (front ++ suffix '?' query ++ suffix '#' fragment) = some (name, rest)) :
    ∃ more, rest = more ++ suffix '?' query ++ suffix '#' fragment ∧ ∀ c ∈ more, c ∈ front := by
  have hcolon : (front ++ suffix '?' query ++ suffix '#' fragment).dropWhile isSchemeChar
      = ':' :: rest := by
    unfold scheme? at h
    split at h
    · cases h
    · split at h
      · split at h
        · next hdrop =>
          obtain ⟨-, rfl⟩ := Prod.mk.inj (Option.some.inj h)
          exact hdrop
        · cases h
      · cases h
  rw [dropWhile_append_suffixes (by decide) (by decide)] at hcolon
  cases hfront : front.dropWhile isSchemeChar with
  | nil =>
    rw [hfront] at hcolon
    cases query with
    | some q => cases hcolon
    | none => cases fragment <;> cases hcolon
  | cons c more =>
    rw [hfront, List.cons_append, List.cons_append, List.cons.injEq] at hcolon
    refine ⟨more, hcolon.2.symm, fun d hd => ?_⟩
    have hmem : d ∈ front.dropWhile isSchemeChar := hfront ▸ List.mem_cons_of_mem c hd
    exact (List.dropWhile_suffix isSchemeChar).subset hmem

theorem suffixes_of_parseWeb [DomainNames] {scheme : WebScheme} {front : List Char}
    {query fragment : Option (List Char)} {v : Url} (hfront : ∀ c ∈ front, isPathChar c = true)
    (hquery : ∀ q ∈ query, ∀ c ∈ q, isQueryChar c = true)
    (h : parseWeb scheme (front ++ suffix '?' query ++ suffix '#' fragment) = .ok v) :
    v.query = query.map (Percent.encode inQuery) ∧
      v.fragment = fragment.map (Percent.encode inFragment) := by
  simp only [parseWeb, cutAuthority, bind_ok_iff, map_ok_iff, pure_ok_iff] at h
  obtain ⟨_, ⟨a, -, rfl⟩, rfl⟩ := h
  have hpath : ∀ c ∈ (front.dropWhile isSlash).dropWhile (fun c => !endsAuthority c),
      isPathChar c = true := by
    intro c hc
    exact hfront c ((List.dropWhile_suffix _).subset ((List.dropWhile_suffix _).subset hc))
  rw [dropWhile_append_suffixes (by decide) (by decide),
    dropWhile_append_suffixes (by decide) (by decide), ofChars_append hpath hquery]
  exact ⟨rfl, rfl⟩

end Url

/-- **The query and the fragment of a URL are those that stand behind its text**, escaped, however
the text before them is read. -/
theorem AnyUrl.suffixes_of_parse [DomainNames] {front : List Char}
    {query fragment : Option (List Char)} {v : Url} (hfront : ∀ c ∈ front, Url.isPathChar c = true)
    (hquery : ∀ q ∈ query, ∀ c ∈ q, Url.isQueryChar c = true)
    (h : AnyUrl.parse (String.ofList (front ++ Url.suffix '?' query
      ++ Url.suffix '#' fragment)) = .ok (.web v)) :
    v.query = query.map (Percent.encode Url.inQuery) ∧
      v.fragment = (fragment.map Url.cleanFragment).map (Percent.encode Url.inFragment) := by
  unfold AnyUrl.parse at h
  rw [String.toList_ofList,
    Url.clean_append_fragment (Url.not_isEdge_append_query hfront hquery)] at h
  split at h
  · cases h
  · next name rest hscheme =>
    obtain ⟨more, rfl, hmore⟩ := Url.rest_of_scheme? hscheme
    split at h
    · obtain ⟨w, hw, he⟩ := (map_ok_iff _ _ _).mp h
      obtain rfl := AnyUrl.web.inj he
      exact Url.suffixes_of_parseWeb (fun c hc => hfront c (hmore c hc)) hquery hw
    · obtain ⟨_, -, he⟩ := (map_ok_iff _ _ _).mp h
      cases he

end HttpService
