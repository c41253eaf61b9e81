import HttpService.Call.Resolution
import HttpService.Proofs.Url.Rereading
import HttpService.Url.PlainNames

/-!
# Staying below the base URL

A relative URL is appended to the text of the base URL, and the whole is read again.  What decides
where the request goes is `completed`, the path of the source with its values put in: its segments,
walked from the directory of the base, lead to the directory of the request
(`directory_of_resolve`).  No segment between two slashes is a dot segment, so the walk only goes
down, unless a backslash, which a reader takes for a slash, parts the segments further
(`resolve_confined_iff`).
-/

namespace HttpService

/-- The directory of a base URL, as a walk holds it. -/
def BaseUrl.directory (base : BaseUrl) : List (List Char) :=
  base.url.path.dropLast.reverse

/-- A source whose text stands relative to the base URL. -/
def UrlSource.IsRelative (source : UrlSource) (args : Arguments) : Prop :=
  match source with
  | .template text kind _ _ => kind = Template.classify text ∧ Template.classify text = .relative
  | .dynamic parameter _ =>
    ∃ text, args.value parameter = .string text ∧ Template.classify text = .relative

/-- The parts of a source with the values of the arguments in its path. -/
def UrlSource.completed (source : UrlSource) (args : Arguments) :
    Except ResolutionFault Template.Parts :=
  match source with
  | .template text _ path _ => do
    let parts := Template.split text.toList
    Resolution.rejectTraversal parts.path "the URL template"
    let values ← Resolution.pathValues args path
    return { parts with path := Template.substitute (fun name => values.lookup name) parts.path }
  | .dynamic parameter _ => do
    let text ← (Resolution.urlText parameter (args.value parameter)).mapError .argument
    let parts := Template.split text.toList
    Resolution.rejectValueTraversal parts.path parameter
    return parts

namespace UrlSource

/-! ## From the source to the text that is read -/

theorem appendPairs_path (u : Url) (pairs : List (String × String)) :
    (u.appendPairs pairs).path = u.path := by
  unfold Url.appendPairs
  split <;> rfl

/-- What a template is resolved to: its completed parts joined with the base, and the pairs of its
queries. -/
theorem resolve_template [DomainNames] {text : String} {kind : Template.Kind}
    {path : List PathBinding}
    {queries : List ValueBinding} {base : BaseUrl} {args : Arguments} {url : Url}
    (h : resolve (.template text kind path queries) base args = .ok url) :
    ∃ parts u pairs, completed (.template text kind path queries) args = .ok parts ∧
      Resolution.join base kind parts = .ok u ∧ bindingPairs queries args = .ok pairs ∧
      url = u.appendPairs pairs := by
  simp only [resolve, Resolution.template, bind_ok_iff, pure_ok_iff, mapError_ok_iff] at h
  obtain ⟨u, ⟨⟨⟩, hreject, values, hvalues, hjoin⟩, pairs, hpairs, rfl⟩ := h
  refine ⟨_, u, pairs, ?_, hjoin, hpairs, rfl⟩
  simp only [completed, bind_ok_iff, pure_ok_iff]
  exact ⟨⟨⟩, hreject, values, hvalues, rfl⟩

theorem join_of_resolve_template [DomainNames] {text : String} {kind : Template.Kind}
    {path : List PathBinding}
    {queries : List ValueBinding} {base : BaseUrl} {args : Arguments} {url : Url}
    (h : resolve (.template text kind path queries) base args = .ok url) :
    ∃ parts u, completed (.template text kind path queries) args = .ok parts ∧
      Resolution.join base kind parts = .ok u ∧ url.path = u.path := by
  obtain ⟨parts, u, pairs, hparts, hjoin, -, rfl⟩ := resolve_template h
  exact ⟨parts, u, hparts, hjoin, appendPairs_path u pairs⟩

theorem join_of_resolve [DomainNames] {source : UrlSource} {base : BaseUrl} {args : Arguments}
    {url : Url} (hrel : source.IsRelative args) (h : source.resolve base args = .ok url) :
    ∃ parts u, source.completed args = .ok parts ∧
      Resolution.join base .relative parts = .ok u ∧ url.path = u.path := by
  cases source with
  | template text kind path queries =>
    obtain ⟨rfl, hkind⟩ := hrel
    rw [← hkind]
    exact join_of_resolve_template h
  | dynamic parameter queries =>
    obtain ⟨text, hvalue, hkind⟩ := hrel
    simp only [resolve, Resolution.dynamic, bind_ok_iff, pure_ok_iff, mapError_ok_iff,
      hvalue, Resolution.urlText, Except.ok.injEq, exists_eq_left', hkind] at h
    obtain ⟨u, ⟨⟨⟩, hreject, hjoin⟩, pairs, -, rfl⟩ := h
    refine ⟨_, u, ?_, hjoin, appendPairs_path u pairs⟩
    simp only [completed, bind_ok_iff, pure_ok_iff, mapError_ok_iff, hvalue, Resolution.urlText,
      Except.ok.injEq, exists_eq_left']
    exact ⟨⟨⟩, hreject, trivial⟩

end UrlSource

/-! ## From the text to the directory -/

namespace Resolution

/-- The joiner escapes in a path what a reader would escape there. -/
theorem inPath_eq : inPath = Url.inPath := by
  funext c
  rw [Bool.eq_iff_iff]
  have hfragment : " \"<>\x60".toList = [' ', '"', '<', '>', '\x60'] := rfl
  have hpath : "#?\x7b\x7d".toList = ['#', '?', '\x7b', '\x7d'] := rfl
  simp only [inPath, Url.inPath, Url.inFragment, hfragment, hpath, Bool.or_eq_true,
    List.contains_iff_mem, List.mem_cons, List.not_mem_nil, or_false]
  grind

theorem isQueryChar_encode {cs : List Char} :
    ∀ c ∈ Percent.encode inQuery cs, Url.isQueryChar c = true := by
  refine Percent.forall_mem_encode (by decide) fun c _ _ hin => ?_
  simp only [inQuery, Bool.or_eq_false_iff, List.contains_eq_mem, List.mem_cons,
    decide_eq_false_iff_not, not_or] at hin
  simp [Url.isQueryChar, Url.not_isEdge hin.1 hin.2.1, hin.2]

end Resolution

theorem readUrl_eq_ok_iff [DomainNames] {text : String} {u : Url} :
    Resolution.readUrl text = .ok u ↔ AnyUrl.parse text = .ok (.web u) := by
  unfold Resolution.readUrl
  split <;> simp_all

namespace BaseUrl

theorem parse_eq_ok_iff [DomainNames] {input : String} {base : BaseUrl} :
    parse input = .ok base ↔ AnyUrl.parse input = .ok (.web base.url) := by
  unfold parse
  split
  · next h => simp [h]
  · next h => simp [h]
  · next url h =>
    simp only [h, Except.ok.injEq, AnyUrl.web.injEq]
    unfold ofUrl
    constructor
    · intro he
      split at he
      · split at he
        · split at he
          · obtain rfl := Except.ok.inj he
            rfl
          · cases he
        · cases he
      · cases he
    · rintro rfl
      simp [base.query_eq_none, base.fragment_eq_none, base.path_closed]

theorem settled_of_parse [DomainNames] {input : String} {base : BaseUrl}
    (h : parse input = .ok base) : base.url.Settled :=
  AnyUrl.settled_of_parse (parse_eq_ok_iff.mp h)

theorem path_eq (base : BaseUrl) : base.url.path = base.directory.reverse ++ [[]] := by
  rw [directory, List.reverse_reverse, List.dropLast_append_getLast? [] base.path_closed]

theorem chars_eq (base : BaseUrl) :
    base.url.chars = base.url.originChars ++ base.url.pathChars := by
  simp [Url.chars, base.query_eq_none, base.fragment_eq_none, Url.suffix]

end BaseUrl

/-- The text that is read for a relative or an absolute URL: the origin of the base and a path
behind it. -/
theorem Resolution.parse_of_join [DomainNames] {base : BaseUrl} (hbase : base.url.Settled)
    {kind : Template.Kind}
    {front : List Char} (hfront : kind = .relative ∧ front = base.url.pathChars ∨
      kind = .absolute ∧ front = []) {parts : Template.Parts} {u : Url}
    (h : join base kind parts = .ok u) :
    (∀ c ∈ front ++ Percent.encode Url.inPath parts.path, Url.isPathChar c = true) ∧
      AnyUrl.parse (String.ofList (base.url.originChars
        ++ (front ++ Percent.encode Url.inPath parts.path)
        ++ Url.suffix '?' (parts.query.map (Percent.encode inQuery))
        ++ Url.suffix '#' parts.fragment)) = .ok (.web u) := by
  simp only [join, bind_ok_iff] at h
  obtain ⟨⟨⟩, -, located, hlocated, h⟩ := h
  rw [readUrl_eq_ok_iff] at h
  rcases hfront with ⟨rfl, rfl⟩ | ⟨rfl, rfl⟩
  · obtain rfl := Except.ok.inj hlocated
    rw [base.chars_eq, inPath_eq, List.append_assoc base.url.originChars] at h
    refine ⟨fun c hc => ?_, h⟩
    rcases List.mem_append.mp hc with hc | hc
    · exact hbase.isPathChar c hc
    · exact Url.isPathChar_encode c hc
  · obtain rfl := Except.ok.inj hlocated
    rw [inPath_eq] at h
    exact ⟨Url.isPathChar_encode, h⟩

theorem Resolution.isQueryChar_of_mem_query {query : Option (List Char)} :
    ∀ q ∈ query.map (Percent.encode inQuery), ∀ c ∈ q, Url.isQueryChar c = true := by
  intro q hq
  obtain ⟨l, -, rfl⟩ := Option.map_eq_some_iff.mp hq
  exact isQueryChar_encode

theorem BaseUrl.exists_pathChars_eq (base : BaseUrl) (path : List Char) :
    ∃ rest, base.url.pathChars ++ path = '/' :: rest := by
  obtain ⟨rest, hrest⟩ := Url.segmentChars_append_singleton base.directory.reverse []
  exact ⟨_, by rw [Url.pathChars, base.path_eq, hrest]; rfl⟩

/-- The segments of a joined path are walked from the directory of the base URL. -/
theorem Resolution.path_of_join [DomainNames] {base : BaseUrl} (hbase : base.url.Settled)
    {parts : Template.Parts} {u : Url} (h : join base .relative parts = .ok u) :
    u.path = Url.resolveSegments base.directory (Text.splitAll Url.isSlash
      (Percent.encode Url.inPath parts.path)) := by
  obtain ⟨hchars, hparse⟩ := parse_of_join hbase (Or.inl ⟨rfl, rfl⟩) h
  have hdirs : ∀ s ∈ base.directory.reverse, Url.IsSettledSegment s := fun s hs =>
    hbase.path s (by rw [base.path_eq]; exact List.mem_append_left _ hs)
  rw [AnyUrl.path_of_parse_origin hbase (base.exists_pathChars_eq _) hchars isQueryChar_of_mem_query
      hparse, Url.pathSegments, Url.pathChars, base.path_eq,
    Url.splitAll_segmentChars fun s hs => (hdirs s hs).isSlash,
    Url.resolveSegments_append hdirs (Text.splitAll_ne_nil _ _), List.reverse_reverse,
    List.append_nil]

/-! ## Confinement -/

/-- Where a joined path leads: below the base exactly when the walk ends below its directory. -/
theorem Resolution.prefix_iff_of_join [DomainNames] {base : BaseUrl} (hbase : base.url.Settled)
    {parts : Template.Parts} {u : Url} (h : join base .relative parts = .ok u) :
    base.url.pathChars <+: u.pathChars ↔
      base.directory <:+ Url.directory base.directory (Text.splitAll Url.isSlash parts.path) := by
  have hpath := path_of_join hbase h
  have hdirs : ∀ s ∈ base.directory, Url.IsSettledSegment s := fun s hs =>
    hbase.path s (by rw [base.path_eq]; simp [hs])
  have hsettled : ∀ s ∈ u.path, Url.IsSettledSegment s := by
    rw [hpath]
    exact Url.isSettledSegment_resolveSegments
      (fun s hs c hc => (Text.mem_of_mem_splitAll hs hc).2) hdirs
  obtain ⟨name, hname⟩ := Url.exists_resolveSegments_eq
    (Text.splitAll_ne_nil Url.isSlash (Percent.encode Url.inPath parts.path)) base.directory
  rw [hname, Url.splitAll_encode_inPath, Url.directory_map_encode] at hpath
  simp only [hpath, List.mem_append, List.mem_reverse, List.mem_singleton, or_imp, forall_and,
    forall_eq] at hsettled
  rw [Url.pathChars, Url.pathChars, base.path_eq, hpath, Url.segmentChars_prefix_iff,
    List.reverse_prefix]
  · exact fun s hs => (hdirs s (List.mem_reverse.mp hs)).slash_notMem
  · exact fun s hs => (hsettled.1 s (List.mem_reverse.mp hs)).slash_notMem
  · exact hsettled.2.slash_notMem

/-- No segment of a joined path between two slashes is a dot segment. -/
theorem Resolution.not_dot_of_join [DomainNames] {base : BaseUrl} {kind : Template.Kind}
    {parts : Template.Parts} {u : Url} (h : join base kind parts = .ok u) :
    ∀ s ∈ Template.segments parts.path, Url.isDoubleDot s = false ∧ Url.isSingleDot s = false := by
  simp only [join, bind_ok_iff, rejectTraversal] at h
  obtain ⟨⟨⟩, hreject, -⟩ := h
  split at hreject
  · cases hreject
  · next hnone =>
    intro s hs
    have := List.find?_eq_none.mp hnone s hs
    simpa [Url.isTraversalSegment_eq, and_comm] using this

/-- **Where a relative URL leads.**  The path of the request begins with the path of the base URL
exactly when the segments of the completed path, parted at slashes of both kinds, lead below the
directory of the base; and they do if the completed path holds no backslash. -/
theorem resolve_confined_iff [DomainNames] {input : String} {base : BaseUrl} {source : UrlSource}
    {args : Arguments} {url : Url} (hbase : BaseUrl.parse input = .ok base)
    (hrel : source.IsRelative args) (h : source.resolve base args = .ok url) :
    ∃ parts, source.completed args = .ok parts ∧
      (base.url.pathChars <+: url.pathChars ↔
        base.directory <:+ Url.directory base.directory (Text.splitAll Url.isSlash parts.path)) ∧
      ('\\' ∉ parts.path → base.url.pathChars <+: url.pathChars) := by
  obtain ⟨parts, u, hparts, hjoin, hpath⟩ := UrlSource.join_of_resolve hrel h
  have hiff := Resolution.prefix_iff_of_join (BaseUrl.settled_of_parse hbase) hjoin
  have hchars : url.pathChars = u.pathChars := congrArg Url.segmentChars hpath
  rw [hchars]
  refine ⟨parts, hparts, hiff, fun hbackslash => hiff.mpr ?_⟩
  have hsep : Text.splitAll Url.isSlash parts.path = Template.segments parts.path := by
    refine Text.splitAll_congr fun c hc => ?_
    have hne : c ≠ '\\' := fun he => hbackslash (he ▸ hc)
    simp [Url.isSlash, hne]
  rw [hsep]
  exact Url.suffix_directory (Resolution.not_dot_of_join hjoin) _

/-- A value of two plain segments stays below the base. -/
theorem resolve_confined_iff_files :
    ∃ base url, BaseUrl.parse "https://x/base/" = .ok base ∧
      UrlSource.resolve (.template "files/\x7bp\x7d" .relative [⟨"p", "p"⟩] []) base
        (.ofList [("p", .string "a/b")]) = .ok url ∧
      base.url.pathChars <+: url.pathChars := by
  let u : Url := ⟨⟨⟨[], none⟩, .domain ['x'], none⟩, .https, ["base".toList, []], none, none⟩
  let base : BaseUrl := ⟨u, rfl, rfl, rfl⟩
  have hbase : BaseUrl.parse "https://x/base/" = .ok base :=
    BaseUrl.parse_eq_ok_iff.mpr (by decide +kernel)
  have hresolve : UrlSource.resolve (.template "files/\x7bp\x7d" .relative [⟨"p", "p"⟩] []) base
      (.ofList [("p", .string "a/b")])
        = .ok { u with path := ["base".toList, "files".toList, ['a'], ['b']] } := by decide +kernel
  have hrel : UrlSource.IsRelative (.template "files/\x7bp\x7d" .relative [⟨"p", "p"⟩] [])
      (.ofList [("p", .string "a/b")]) := ⟨by decide +kernel, by decide +kernel⟩
  obtain ⟨parts, hparts, -, hconfined⟩ := resolve_confined_iff hbase hrel hresolve
  have hpath : UrlSource.completed (.template "files/\x7bp\x7d" .relative [⟨"p", "p"⟩] [])
      (.ofList [("p", .string "a/b")]) = .ok ⟨"files/a/b".toList, none, none⟩ := by decide +kernel
  obtain rfl := Except.ok.inj (hparts.symm.trans hpath)
  exact ⟨base, _, hbase, hresolve, hconfined (by decide)⟩

/-- Two dots between backslashes lead out of the path of the base. -/
theorem resolve_leaves_base :
    ∃ base url, BaseUrl.parse "https://x/base/" = .ok base ∧
      UrlSource.IsRelative (.template "files/\x7bp\x7d" .relative [⟨"p", "p"⟩] [])
        (.ofList [("p", .string "..\\..\\..\\etc")]) ∧
      UrlSource.resolve (.template "files/\x7bp\x7d" .relative [⟨"p", "p"⟩] []) base
        (.ofList [("p", .string "..\\..\\..\\etc")]) = .ok url ∧
      url.pathChars = "/etc".toList ∧ ¬ base.url.pathChars <+: url.pathChars := by
  let u : Url := ⟨⟨⟨[], none⟩, .domain ['x'], none⟩, .https, ["base".toList, []], none, none⟩
  refine ⟨⟨u, rfl, rfl, rfl⟩, { u with path := ["etc".toList] }, ?_, ?_, ?_, ?_, ?_⟩
  · exact BaseUrl.parse_eq_ok_iff.mpr (by decide +kernel)
  · exact ⟨by decide +kernel, by decide +kernel⟩
  · decide +kernel
  · decide +kernel
  · decide +kernel

end HttpService
