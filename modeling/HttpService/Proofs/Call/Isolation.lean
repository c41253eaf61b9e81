import HttpService.Proofs.Call.Delivery
import HttpService.Proofs.Url.Authorities
import HttpService.Proofs.Url.Suffixes

/-!
# What a path value cannot reach

The URL of a template is put together as text and read again, so a value in its path could in
principle be read as something else.  It never is.  Whatever kind of URL the template is, the text
before its query holds no `?`, no `#` and nothing that a reader drops, so the query and the fragment
are those of the template (`Resolution.suffixes_of_join`).  Behind the base URL the path begins with
a slash, so what is read before it is the origin of the base (`Resolution.origin_of_join`).
Together: two calls that agree on the parameters of the queries have the same query and the same
fragment, and neither leaves the origin of the base (`resolve_isolated`).
-/

namespace HttpService

/-- Two URLs with the same scheme, user, host and port. -/
structure Url.SameOrigin (u v : Url) : Prop where
  scheme : u.scheme = v.scheme
  userInfo : u.userInfo = v.userInfo
  host : u.host = v.host
  port : u.port = v.port

/-! ## Queries and fragments -/

namespace Resolution

/-- No front of a located text ends in a query or a fragment, whatever its kind. -/
theorem isPathChar_of_locate {base : BaseUrl} (hbase : base.url.Settled) {kind : Template.Kind}
    {path located : List Char} (h : locate base kind path = .ok located) :
    ∀ c ∈ located, Url.isPathChar c = true := by
  have hpath : ∀ c ∈ Percent.encode inPath path, Url.isPathChar c = true := by
    rw [inPath_eq]
    exact Url.isPathChar_encode
  have horigin := Url.isPathChar_originChars hbase
  cases kind with
  | absolute =>
    obtain rfl := Except.ok.inj h
    exact List.forall_mem_append.mpr ⟨horigin, hpath⟩
  | relative =>
    obtain rfl := Except.ok.inj h
    rw [base.chars_eq]
    exact List.forall_mem_append.mpr
      ⟨List.forall_mem_append.mpr ⟨horigin, hbase.isPathChar⟩, hpath⟩
  | protocolRelative =>
    obtain rfl := Except.ok.inj h
    refine List.forall_mem_append.mpr ⟨fun c hc => horigin c ?_,
      List.forall_mem_cons.mpr ⟨by decide, hpath⟩⟩
    exact List.mem_append_left _ hc
  | full =>
    simp only [locate] at h
    split at h
    · obtain rfl := Except.ok.inj h
      exact hpath
    · cases h

/-- **The query and the fragment of a joined URL are those of its parts**, for every kind. -/
theorem suffixes_of_join [DomainNames] {base : BaseUrl} (hbase : base.url.Settled)
    {kind : Template.Kind} {parts : Template.Parts} {u : Url} (h : join base kind parts = .ok u) :
    u.query = (parts.query.map (Percent.encode inQuery)).map (Percent.encode Url.inQuery) ∧
      u.fragment = (parts.fragment.map Url.cleanFragment).map (Percent.encode Url.inFragment) := by
  simp only [join, bind_ok_iff] at h
  obtain ⟨⟨⟩, -, located, hlocated, h⟩ := h
  exact AnyUrl.suffixes_of_parse (isPathChar_of_locate hbase hlocated) isQueryChar_of_mem_query
    (readUrl_eq_ok_iff.mp h)

theorem suffixes_of_completed {text : String} {kind : Template.Kind} {path : List PathBinding}
    {queries : List ValueBinding} {args : Arguments} {parts : Template.Parts}
    (h : UrlSource.completed (.template text kind path queries) args = .ok parts) :
    parts.query = (Template.split text.toList).query ∧
      parts.fragment = (Template.split text.toList).fragment := by
  simp only [UrlSource.completed, bind_ok_iff, pure_ok_iff] at h
  obtain ⟨⟨⟩, -, values, -, rfl⟩ := h
  exact ⟨rfl, rfl⟩

/-! ## Origins -/

/-- **The origin of a joined URL is that of the base**, if its path stands behind the base. -/
theorem origin_of_join [DomainNames] {input : String} {base : BaseUrl}
    (hbase : BaseUrl.parse input = .ok base) {kind : Template.Kind} {parts : Template.Parts}
    (hkind : kind = .relative ∨ kind = .absolute ∧ ∃ rest, parts.path = '/' :: rest) {u : Url}
    (h : join base kind parts = .ok u) :
    u.scheme = base.url.scheme ∧ u.toAuthority = base.url.toAuthority := by
  have hsettled := BaseUrl.settled_of_parse hbase
  have hback := AnyUrl.authority_of_parse (BaseUrl.parse_eq_ok_iff.mp hbase)
  have hfront : ∃ front, (kind = .relative ∧ front = base.url.pathChars ∨
      kind = .absolute ∧ front = []) ∧
        ∃ rest, front ++ Percent.encode Url.inPath parts.path = '/' :: rest := by
    rcases hkind with rfl | ⟨rfl, rest, hrest⟩
    · exact ⟨_, Or.inl ⟨rfl, rfl⟩, base.exists_pathChars_eq _⟩
    · exact ⟨[], Or.inr ⟨rfl, rfl⟩, Percent.encode Url.inPath rest, by rw [hrest]; rfl⟩
  obtain ⟨front, hfront, hstart⟩ := hfront
  obtain ⟨hchars, hparse⟩ := parse_of_join hsettled hfront h
  obtain ⟨hscheme, hauthority⟩ :=
    AnyUrl.origin_of_parse_origin hsettled hstart hchars isQueryChar_of_mem_query hparse
  exact ⟨hscheme, Except.ok.inj (hauthority.symm.trans hback)⟩

end Resolution

/-! ## Pairs of queries -/

theorem bindingPairs_congr {bindings : List ValueBinding} {args args' : Arguments}
    (h : ∀ b ∈ bindings, args.value b.parameter = args'.value b.parameter) :
    bindingPairs bindings args = bindingPairs bindings args' := by
  have hpairs : ∀ b ∈ bindings, b.pairs args = b.pairs args' := by
    intro b hb
    rw [ValueBinding.pairs, ValueBinding.pairs, h b hb]
  rw [bindingPairs, bindingPairs]
  congr 1
  induction bindings with
  | nil => rfl
  | cons b rest ih =>
    rw [List.forall_mem_cons] at h hpairs
    rw [List.mapM_cons, List.mapM_cons, hpairs.1, ih h.2 hpairs.2]

theorem Url.appendPairs_query_congr {u v : Url} (h : u.query = v.query)
    (pairs : List (String × String)) : (u.appendPairs pairs).query = (v.appendPairs pairs).query := by
  unfold Url.appendPairs
  split
  · exact h
  · simp only [h]

theorem Url.appendPairs_fragment (u : Url) (pairs : List (String × String)) :
    (u.appendPairs pairs).fragment = u.fragment := by
  unfold Url.appendPairs
  split <;> rfl

theorem Url.appendPairs_origin (u : Url) (pairs : List (String × String)) :
    (u.appendPairs pairs).SameOrigin u := by
  unfold Url.appendPairs
  split <;> exact ⟨rfl, rfl, rfl, rfl⟩

/-! ## Isolation -/

/-- A template that is relative or absolute is resolved within the origin of the base. -/
theorem sameOrigin_of_resolve [DomainNames] {input : String} {base : BaseUrl} {text : String}
    {path : List PathBinding} {queries : List ValueBinding} {args : Arguments} {url : Url}
    (hbase : BaseUrl.parse input = .ok base)
    (hkind : Template.classify text = .relative ∨ Template.classify text = .absolute)
    (h : UrlSource.resolve (.template text (Template.classify text) path queries) base args
      = .ok url) :
    url.SameOrigin base.url := by
  obtain ⟨parts, u, pairs, hcompleted, hjoin, -, rfl⟩ := UrlSource.resolve_template h
  have hparts := Resolution.path_of_completed hcompleted
  have hslash : Template.classify text = .relative ∨
      Template.classify text = .absolute ∧ ∃ rest, parts.path = '/' :: rest := by
    rw [hparts]
    exact hkind.imp_right fun habs => ⟨habs, Resolution.exists_completed_eq_slash habs _⟩
  obtain ⟨hscheme, hauthority⟩ := Resolution.origin_of_join hbase hslash hjoin
  have happend := u.appendPairs_origin pairs
  exact ⟨happend.scheme.trans hscheme,
    happend.userInfo.trans (congrArg Authority.userInfo hauthority),
    happend.host.trans (congrArg Authority.host hauthority),
    happend.port.trans (congrArg Authority.port hauthority)⟩

/-- **Path values reach nothing but the path.**  Two calls of a template that agree on the
parameters of its queries have the same query and the same fragment; and if the template is relative
or absolute, both stay at the scheme, the user, the host and the port of the base URL. -/
theorem resolve_isolated [DomainNames] {input : String} {base : BaseUrl} {text : String}
    {path : List PathBinding} {queries : List ValueBinding} {args args' : Arguments}
    {url url' : Url} (hbase : BaseUrl.parse input = .ok base)
    (hagree : ∀ b ∈ queries, args.value b.parameter = args'.value b.parameter)
    (h : UrlSource.resolve (.template text (Template.classify text) path queries) base args
      = .ok url)
    (h' : UrlSource.resolve (.template text (Template.classify text) path queries) base args'
      = .ok url') :
    url.query = url'.query ∧ url.fragment = url'.fragment ∧
      (Template.classify text = .relative ∨ Template.classify text = .absolute →
        url.SameOrigin base.url ∧ url'.SameOrigin base.url) := by
  have horigin (hkind : Template.classify text = .relative ∨ Template.classify text = .absolute) :=
    And.intro (sameOrigin_of_resolve hbase hkind h) (sameOrigin_of_resolve hbase hkind h')
  have hsettled := BaseUrl.settled_of_parse hbase
  obtain ⟨parts, u, pairs, hparts, hjoin, hpairs, rfl⟩ := UrlSource.resolve_template h
  obtain ⟨parts', u', pairs', hparts', hjoin', hpairs', rfl⟩ := UrlSource.resolve_template h'
  obtain rfl : pairs = pairs' :=
    Except.ok.inj (hpairs.symm.trans ((bindingPairs_congr hagree).trans hpairs'))
  obtain ⟨hq, hf⟩ := Resolution.suffixes_of_completed hparts
  obtain ⟨hq', hf'⟩ := Resolution.suffixes_of_completed hparts'
  obtain ⟨hquery, hfragment⟩ := Resolution.suffixes_of_join hsettled hjoin
  obtain ⟨hquery', hfragment'⟩ := Resolution.suffixes_of_join hsettled hjoin'
  refine ⟨Url.appendPairs_query_congr ?_ pairs, ?_, horigin⟩
  · rw [hquery, hquery', hq, hq']
  · rw [Url.appendPairs_fragment, Url.appendPairs_fragment, hfragment, hfragment', hf, hf']

/-- A value full of the signs of a URL stays in the path. -/
theorem resolve_isolated_signs :
    ∃ base url url', BaseUrl.parse "https://me:pw@[1::2:0]:8443/base/" = .ok base ∧
      UrlSource.resolve (.template "files/\x7bp\x7d?a=1 b#top" .relative [⟨"p", "p"⟩]
        [⟨some "k", "q", .single⟩]) base
        (.ofList [("p", .string "x?y#z@h:1\\@[\n"), ("q", .string "v w")]) = .ok url ∧
      UrlSource.resolve (.template "files/\x7bp\x7d?a=1 b#top" .relative [⟨"p", "p"⟩]
        [⟨some "k", "q", .single⟩]) base
        (.ofList [("p", .string "//evil/"), ("q", .string "v w")]) = .ok url' ∧
      url.path ≠ url'.path ∧ url.query = url'.query ∧ url.fragment = url'.fragment ∧
      url.SameOrigin base.url ∧ url'.SameOrigin base.url := by
  let u : Url := ⟨⟨⟨"me".toList, some "pw".toList⟩, .ipv6 [1, 0, 0, 0, 0, 0, 2, 0], some 8443⟩, .https,
    ["base".toList, []], none, none⟩
  let base : BaseUrl := ⟨u, rfl, rfl, rfl⟩
  let text := "files/\x7bp\x7d?a=1 b#top"
  let queries : List ValueBinding := [⟨some "k", "q", .single⟩]
  let args : Arguments := .ofList [("p", .string "x?y#z@h:1\\@[\n"), ("q", .string "v w")]
  let args' : Arguments := .ofList [("p", .string "//evil/"), ("q", .string "v w")]
  let v : Url := { u with query := some "a=1%20b&k=v+w".toList, fragment := some "top".toList }
  let url : Url := { v with path := ["base".toList, "files".toList, "x%3Fy%23z@h:1".toList,
    "@[%0A".toList] }
  let url' : Url := { v with path := ["base".toList, "files".toList, [], [], "evil".toList, []] }
  have hbase : BaseUrl.parse "https://me:pw@[1::2:0]:8443/base/" = .ok base :=
    BaseUrl.parse_eq_ok_iff.mpr (by decide +kernel)
  have hkind : Template.classify text = .relative := by decide +kernel
  have hagree : ∀ b ∈ queries, args.value b.parameter = args'.value b.parameter := by
    intro b hb
    obtain rfl := List.mem_singleton.mp hb
    rfl
  have h : UrlSource.resolve (.template text .relative [⟨"p", "p"⟩] queries) base args
      = .ok url := by decide +kernel
  have h' : UrlSource.resolve (.template text .relative [⟨"p", "p"⟩] queries) base args'
      = .ok url' := by decide +kernel
  obtain ⟨hquery, hfragment, horigin⟩ := resolve_isolated hbase hagree (hkind ▸ h) (hkind ▸ h')
  obtain ⟨hfirst, hsecond⟩ := horigin (.inl hkind)
  exact ⟨base, url, url', hbase, h, h', by decide, hquery, hfragment, hfirst, hsecond⟩

end HttpService
