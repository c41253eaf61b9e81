import HttpService.Proofs.Call.Confinement
import HttpService.Proofs.Call.Stretches
import HttpService.Proofs.Url.Slashes

/-!
# What the server decodes

The server decodes the path of a request.  It should get the path of the base URL, then each run of
the template's own text and each value as it was passed.  Two things come between: a backslash,
which the reader of the URL takes for a slash, and an escape that begins in the template and is
completed by what is put behind it.  Either always shows, and nothing else does
(`resolve_delivers_iff`).
-/

namespace HttpService

open Percent (decodeText)

namespace Resolution

/-- What the base URL contributes to the path of a template. -/
def basePath (base : BaseUrl) : Template.Kind → Bytes
  | .relative => decodeText base.url.pathChars
  | _ => []

/-! ## From the source to the text that is read -/

/-- The completed path of a template is its stretches end to end. -/
theorem path_of_completed {text : String} {kind : Template.Kind} {path : List PathBinding}
    {queries : List ValueBinding} {args : Arguments} {parts : Template.Parts}
    (h : UrlSource.completed (.template text kind path queries) args = .ok parts) :
    parts.path = (Template.stretches (passedFor args path)
      (Template.split text.toList).path).flatMap Template.Stretch.chars := by
  simp only [UrlSource.completed, bind_ok_iff, pure_ok_iff] at h
  obtain ⟨⟨⟩, -, values, hvalues, rfl⟩ := h
  rw [Template.flatMap_chars_stretches]
  exact congrArg (Template.substitute · _) (funext (lookup_pathValues hvalues))

theorem path_of_join_absolute [DomainNames] {base : BaseUrl} (hbase : base.url.Settled)
    {parts : Template.Parts} {rest : List Char} (hparts : parts.path = '/' :: rest) {u : Url}
    (h : join base .absolute parts = .ok u) :
    u.path = Url.resolveSegments [] (Text.splitAll Url.isSlash
      (Percent.encode Url.inPath rest)) := by
  obtain ⟨hchars, hparse⟩ := parse_of_join hbase (Or.inr ⟨rfl, rfl⟩) h
  rw [hparts] at hchars hparse
  exact AnyUrl.path_of_parse_origin hbase ⟨Percent.encode Url.inPath rest, rfl⟩ hchars
    isQueryChar_of_mem_query hparse

/-! ## What is put behind the base -/

/-- A path that is read behind some directories: what the directories and the path stand for is
what the base URL and the completed path stand for. -/
structure ReadBehind (base : BaseUrl) (kind : Template.Kind) (completed : List Char) (u : Url)
    (dirs : List (List Char)) (path : List Char) : Prop where
  path_eq : u.path = Url.resolveSegments dirs (Text.splitAll Url.isSlash
    (Percent.encode Url.inPath path))
  stands : decodeText (Url.segmentChars (dirs.reverse ++ [[]])) ++ decodeText path
    = basePath base kind ++ decodeText completed
  backslash : '\\' ∈ path ↔ '\\' ∈ completed
  noDots : ∀ s ∈ Text.splitAll (· == '/') path,
    Url.isDoubleDot s = false ∧ Url.isSingleDot s = false

theorem exists_readBehind [DomainNames] {base : BaseUrl} (hbase : base.url.Settled)
    {kind : Template.Kind} {parts : Template.Parts}
    (hkind : kind = .relative ∨ kind = .absolute ∧ ∃ rest, parts.path = '/' :: rest) {u : Url}
    (h : join base kind parts = .ok u) :
    ∃ dirs path, ReadBehind base kind parts.path u dirs path := by
  have hdots := not_dot_of_join h
  rcases hkind with rfl | ⟨rfl, rest, hrest⟩
  · refine ⟨base.directory, parts.path, path_of_join hbase h, ?_, Iff.rfl, hdots⟩
    rw [← base.path_eq]
    rfl
  · refine ⟨[], rest, path_of_join_absolute hbase hrest h, ?_, by simp [hrest], ?_⟩
    · rw [hrest, ← List.nil_append ('/' :: rest), Url.decodeText_append_slash]
      rfl
    · rw [Template.segments, hrest, ← List.nil_append ('/' :: rest),
        Text.splitAll_append_cons (by decide)] at hdots
      exact fun s hs => hdots s (List.mem_append_right _ hs)

/-- The path of the URL is decoded to what was put behind the base, as a whole, exactly when there
is no backslash in it; and in no case to more. -/
theorem ReadBehind.decodeText_pathChars {base : BaseUrl} {kind : Template.Kind}
    {completed : List Char} {u : Url} {dirs : List (List Char)} {path : List Char}
    (h : ReadBehind base kind completed u dirs path) :
    (decodeText u.pathChars = basePath base kind ++ decodeText completed ↔ '\\' ∉ completed) ∧
      (decodeText u.pathChars).length ≤ (basePath base kind ++ decodeText completed).length := by
  rw [Url.pathChars, h.path_eq, ← h.stands, ← h.backslash]
  exact ⟨Url.decodeText_resolveSegments_eq_iff h.noDots,
    Url.length_decodeText_resolveSegments_le dirs path⟩

/-! ## Delivery -/

theorem exists_split_path_eq_slash {text : String} (hkind : Template.classify text = .absolute) :
    ∃ rest, (Template.split text.toList).path = '/' :: rest := by
  have hslash : ∃ cs, text.toList = '/' :: cs := by
    unfold Template.classify Template.classifyChars at hkind
    split at hkind
    · cases hkind
    · next cs _ hcs => exact ⟨cs, hcs⟩
    · split at hkind <;> cases hkind
  obtain ⟨cs, hcs⟩ := hslash
  have hcut (sign : Char) (hsign : sign ≠ '/') (cs : List Char) :
      ∃ rest, (Text.cutOff sign ('/' :: cs)).1 = '/' :: rest := by
    unfold Text.cutOff
    rw [Text.cut, if_neg (by simpa using hsign.symm)]
    cases Text.cut (· == sign) cs with
    | none => exact ⟨cs, rfl⟩
    | some parts => exact ⟨parts.1, rfl⟩
  obtain ⟨front, hfront⟩ := hcut '#' (by decide) cs
  obtain ⟨rest, hrest⟩ := hcut '?' (by decide) front
  exact ⟨rest, by rw [Template.split, hcs]; simp only [hfront, hrest]⟩

theorem exists_completed_eq_slash {text : String} (hkind : Template.classify text = .absolute)
    (value : String → Option (List Char)) :
    ∃ rest, (Template.stretches value (Template.split text.toList).path).flatMap
      Template.Stretch.chars = '/' :: rest := by
  obtain ⟨rest, hrest⟩ := exists_split_path_eq_slash hkind
  rw [Template.flatMap_chars_stretches, hrest]
  exact ⟨_, rfl⟩

end Resolution

/-- **What the server decodes.**  The path of the URL that a relative or absolute template resolves
to is decoded to the path of the base URL and then, in the order of the template, each run of its
own text decoded on its own and each value as it was passed, exactly when no run and no value has a
backslash and no escape that begins in a run is completed by what comes behind it. -/
theorem resolve_delivers_iff [DomainNames] {input : String} {base : BaseUrl} {text : String}
    {path : List PathBinding} {queries : List ValueBinding} {args : Arguments} {url : Url}
    (hbase : BaseUrl.parse input = .ok base)
    (hkind : Template.classify text = .relative ∨ Template.classify text = .absolute)
    (h : UrlSource.resolve (.template text (Template.classify text) path queries) base args
      = .ok url) :
    let stretches := Template.stretches (Resolution.passedFor args path)
      (Template.split text.toList).path
    Percent.decodeText url.pathChars
        = Resolution.basePath base (Template.classify text)
          ++ stretches.flatMap Template.Stretch.bytes ↔
      (∀ s ∈ stretches, '\\' ∉ s.text) ∧ Percent.Apart (stretches.map Template.Stretch.chars) := by
  intro stretches
  obtain ⟨parts, u, hcompleted, hjoin, hpath⟩ := UrlSource.join_of_resolve_template h
  have hparts := Resolution.path_of_completed hcompleted
  have hkind : Template.classify text = .relative ∨
      Template.classify text = .absolute ∧ ∃ rest, parts.path = '/' :: rest := by
    rw [hparts]
    exact hkind.imp_right fun habs => ⟨habs, Resolution.exists_completed_eq_slash habs _⟩
  obtain ⟨dirs, tail, hread⟩ :=
    Resolution.exists_readBehind (BaseUrl.settled_of_parse hbase) hkind hjoin
  obtain ⟨hwhole, hle⟩ := hread.decodeText_pathChars
  have hchars : url.pathChars = u.pathChars := congrArg Url.segmentChars hpath
  have hflatten : parts.path = (stretches.map Template.Stretch.chars).flatten := by
    rw [hparts, List.flatMap_def]
  have hbytes : stretches.flatMap Template.Stretch.bytes
      = (stretches.map Template.Stretch.chars).flatMap Percent.decodeText := by
    simp only [List.flatMap_map, Template.Stretch.decodeText_chars]
  have hbackslash : '\\' ∉ parts.path ↔ ∀ s ∈ stretches, '\\' ∉ s.text := by
    simp [hparts, Template.Stretch.backslash_mem_chars, stretches]
  rw [hchars, hbytes, ← hbackslash]
  constructor
  · intro heq
    -- The path is decoded to no more than it stands for as a whole, and that is no more than what
    -- the stretches stand for.
    have hapart : Percent.Apart (stretches.map Template.Stretch.chars) := by
      refine Percent.apart_of_length_le ?_
      rw [heq, hflatten, List.length_append, List.length_append] at hle
      omega
    rw [← hapart.decodeText_flatten, ← hflatten] at heq
    exact ⟨hwhole.mp heq, hapart⟩
  · rintro ⟨hno, hapart⟩
    rw [hwhole.mpr hno, hflatten, hapart.decodeText_flatten]

/-- Escapes of the template are decoded, those of a value are not, and a placeholder without a value
stays. -/
theorem resolve_delivers_iff_files :
    ∃ base url, BaseUrl.parse "https://x/base/" = .ok base ∧
      UrlSource.resolve (.template "a%20b/\x7bp\x7d/\x7bq\x7d" .relative [⟨"p", "p"⟩] []) base
        (.ofList [("p", .string "50%25/é?")]) = .ok url ∧
      Percent.decodeText url.pathChars
        = Utf8.encode "/base/a b/50%25/é?/\x7bq\x7d".toList := by
  let u : Url := ⟨⟨⟨[], none⟩, .domain ['x'], none⟩, .https, ["base".toList, []], none, none⟩
  let base : BaseUrl := ⟨u, rfl, rfl, rfl⟩
  let text := "a%20b/\x7bp\x7d/\x7bq\x7d"
  let args : Arguments := .ofList [("p", .string "50%25/é?")]
  let url : Url := { u with path := ["base".toList, "a%20b".toList, "50%2525".toList,
    "%C3%A9%3F".toList, "%7Bq%7D".toList] }
  have hbase : BaseUrl.parse "https://x/base/" = .ok base :=
    BaseUrl.parse_eq_ok_iff.mpr (by decide +kernel)
  have hkind : Template.classify text = .relative := by decide +kernel
  have hresolve : UrlSource.resolve (.template text .relative [⟨"p", "p"⟩] []) base args
      = .ok url := by decide +kernel
  have hiff := resolve_delivers_iff hbase (.inl hkind) (hkind ▸ hresolve)
  refine ⟨base, url, hbase, hresolve, (hiff.mpr ⟨?_, ?_⟩).trans ?_⟩
  · decide +kernel
  · decide +kernel
  · decide +kernel

/-- A backslash of a value comes back as a slash. -/
theorem resolve_loses_backslash :
    ∃ base url, BaseUrl.parse "https://x/base/" = .ok base ∧
      Template.classify "files/\x7bp\x7d" = .relative ∧
      UrlSource.resolve (.template "files/\x7bp\x7d" .relative [⟨"p", "p"⟩] []) base
        (.ofList [("p", .string "a\\b")]) = .ok url ∧
      url.pathChars = "/base/files/a/b".toList ∧
      Percent.decodeText url.pathChars
        ≠ Resolution.basePath base .relative ++ (Template.stretches
            (Resolution.passedFor (.ofList [("p", .string "a\\b")]) [⟨"p", "p"⟩])
            "files/\x7bp\x7d".toList).flatMap Template.Stretch.bytes := by
  let u : Url := ⟨⟨⟨[], none⟩, .domain ['x'], none⟩, .https, ["base".toList, []], none, none⟩
  refine ⟨⟨u, rfl, rfl, rfl⟩,
    { u with path := ["base".toList, "files".toList, ['a'], ['b']] }, ?_, ?_, ?_, ?_, ?_⟩
  · exact BaseUrl.parse_eq_ok_iff.mpr (by decide +kernel)
  · decide +kernel
  · decide +kernel
  · decide +kernel
  · decide +kernel

end HttpService
