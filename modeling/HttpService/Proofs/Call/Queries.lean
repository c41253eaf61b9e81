import HttpService.Call.Encoding
import HttpService.Proofs.Call.Isolation
import HttpService.Proofs.Url.Pairs

/-!
# Queries and forms as they are read

The query of a call is the literal query of its text, escaped twice, with the pairs of the arguments
put behind it.  A server that reads it finds the pairs of the literal query as the author wrote it
and then those of the arguments; and there is a query or a fragment exactly when the text shows one
or there are pairs (`Url.IsComposedOf`).  A form is read as the pairs that were put into it.
`pairs_composed` says both of every call.
-/

namespace HttpService

/-! ## The literal text -/

/-- The text that the URL of a call is made from: the template, or the argument that is the URL. -/
def UrlSource.literal? (source : UrlSource) (args : Arguments) : Option String :=
  match source with
  | .template text _ _ _ => some text
  | .dynamic parameter _ =>
    match args.value parameter with
    | .string text => some text
    | _ => none

def Template.beforeFragment (text : List Char) : List Char :=
  text.takeWhile (· != '#')

/-- What stands between the first `?` before the fragment and the fragment. -/
def Template.literalQuery (text : List Char) : List Char :=
  ((beforeFragment text).dropWhile (· != '?')).drop 1

/-- How a URL is composed of a literal text and some pairs: the pairs are read behind those of the
literal query, a query is there for either of them, and the fragment is that of the text. -/
structure Url.IsComposedOf (url : Url) (text : List Char) (pairs : List (String × String)) :
    Prop where
  read : FormPairs.read (Utf8.encode (url.query.getD []))
    = FormPairs.read (Utf8.encode (Template.literalQuery text)) ++ pairs
  query : url.query.isSome = true ↔ '?' ∈ Template.beforeFragment text ∨ pairs ≠ []
  fragment : url.fragment.isSome = true ↔ '#' ∈ text

theorem Text.cutOff_eq (sign : Char) (cs : List Char) :
    cutOff sign cs = (cs.takeWhile (· != sign),
      if sign ∈ cs then some ((cs.dropWhile (· != sign)).drop 1) else none) := by
  unfold cutOff
  rw [cut_sign]
  by_cases hmem : sign ∈ cs
  · rw [if_pos hmem, if_pos hmem]
  · rw [if_neg hmem, if_neg hmem, (takeWhile_of_notMem hmem).1]

theorem Template.split_path (text : List Char) :
    (split text).path = (beforeFragment text).takeWhile (· != '?') := by
  simp only [split, Text.cutOff_eq]
  rfl

theorem Template.split_query (text : List Char) :
    (split text).query = if '?' ∈ beforeFragment text then some (literalQuery text) else none := by
  simp only [split, Text.cutOff_eq]
  rfl

theorem Template.split_query_getD (text : List Char) :
    (split text).query.getD [] = literalQuery text := by
  rw [split_query]
  split
  · rfl
  · next h =>
    have hnone : (beforeFragment text).dropWhile (· != '?') = [] := by
      refine List.dropWhile_eq_nil_iff.mpr fun c hc => ?_
      rw [bne_iff_ne]
      rintro rfl
      exact h hc
    rw [literalQuery, hnone]
    rfl

theorem Template.split_fragment_isSome (text : List Char) :
    (split text).fragment.isSome = true ↔ '#' ∈ text := by
  simp only [split, Text.cutOff_eq]
  split <;> simp_all

/-! ## The query of a call -/

theorem Url.escapable_inQuery : FormPairs.Escapable inQuery where
  space := by decide
  sign := by simp [inQuery, Percent.isControl]
  hex c hc := by
    have hpath := inPath_eq_false_of_isHexDigit hc
    have hquote : c ≠ '\'' := by
      rintro rfl
      cases hc
    simp_all [inPath, inFragment, inQuery]

theorem Resolution.escapable_inQuery : FormPairs.Escapable inQuery where
  space := by decide
  sign := by simp [inQuery, Percent.isControl]
  hex c hc := by
    have hpath := Url.inPath_eq_false_of_isHexDigit hc
    rw [← inPath_eq] at hpath
    simp_all [inPath, inQuery]

namespace UrlSource

theorem literal?_dynamic {parameter text : String} {queries : List ValueBinding} {args : Arguments}
    (h : Resolution.urlText parameter (args.value parameter) = .ok text) :
    literal? (.dynamic parameter queries) args = some text := by
  unfold Resolution.urlText at h
  simp only [literal?]
  split at h
  · next hvalue =>
    rw [hvalue, Except.ok.inj h]
  · cases h
  · cases h

/-- What a call is resolved to: some path joined with the base, with the query and the fragment of
the literal text, and the pairs of the queries put behind them. -/
theorem exists_join_of_resolve [DomainNames] {source : UrlSource} {base : BaseUrl}
    {args : Arguments} {url : Url} (h : source.resolve base args = .ok url) :
    ∃ text kind path u pairs, source.literal? args = some text ∧
      Resolution.join base kind ⟨path, (Template.split text.toList).query,
        (Template.split text.toList).fragment⟩ = .ok u ∧
      bindingPairs source.queries args = .ok pairs ∧ url = u.appendPairs pairs := by
  cases source with
  | template text kind path queries =>
    obtain ⟨parts, u, pairs, hparts, hjoin, hpairs, rfl⟩ := resolve_template h
    obtain ⟨hquery, hfragment⟩ := Resolution.suffixes_of_completed hparts
    refine ⟨text, kind, parts.path, u, pairs, rfl, ?_, hpairs, rfl⟩
    rw [← hquery, ← hfragment]
    exact hjoin
  | dynamic parameter queries =>
    simp only [resolve, Resolution.dynamic, bind_ok_iff, pure_ok_iff, mapError_ok_iff] at h
    obtain ⟨u, ⟨text, htext, ⟨⟨⟩, -, hjoin⟩⟩, pairs, hpairs, rfl⟩ := h
    exact ⟨text, _, _, u, pairs, literal?_dynamic htext, hjoin, hpairs, rfl⟩

end UrlSource

namespace Url

/-- Pairs that are put behind a query are read behind it. -/
theorem read_appendPairs (u : Url) (pairs : List (String × String)) :
    FormPairs.read (Utf8.encode ((u.appendPairs pairs).query.getD []))
      = FormPairs.read (Utf8.encode (u.query.getD [])) ++ pairs := by
  unfold appendPairs
  split
  · next hempty =>
    rw [List.isEmpty_iff.mp hempty, List.append_nil]
  · rcases u.query with _ | _ | ⟨c, q⟩
    · exact FormPairs.read_encode pairs
    · exact FormPairs.read_encode pairs
    · have hsign : Utf8.encode ((c :: q) ++ '&' :: FormPairs.encode pairs)
          = Utf8.encode (c :: q) ++ 0x26 :: Utf8.encode (FormPairs.encode pairs) :=
        Utf8.encode_append _ _
      show FormPairs.read (Utf8.encode ((c :: q) ++ '&' :: FormPairs.encode pairs)) = _
      rw [hsign, FormPairs.read_append, FormPairs.read_encode]
      rfl

theorem appendPairs_query_isSome (u : Url) (pairs : List (String × String)) :
    (u.appendPairs pairs).query.isSome = true ↔ u.query.isSome = true ∨ pairs ≠ [] := by
  unfold appendPairs
  split <;> simp_all

end Url

/-! ## Queries and forms -/

theorem Url.isComposedOf_of_resolve [DomainNames] {input : String} {base : BaseUrl}
    {source : UrlSource} {args : Arguments} {url : Url} (hbase : BaseUrl.parse input = .ok base)
    (h : source.resolve base args = .ok url) :
    ∃ text pairs, source.literal? args = some text ∧
      bindingPairs source.queries args = .ok pairs ∧ url.IsComposedOf text.toList pairs := by
  obtain ⟨text, kind, path, u, pairs, htext, hjoin, hpairs, rfl⟩ :=
    UrlSource.exists_join_of_resolve h
  obtain ⟨hquery, hfragment⟩ :=
    Resolution.suffixes_of_join (BaseUrl.settled_of_parse hbase) hjoin
  have hread : FormPairs.read (Utf8.encode (u.query.getD []))
      = FormPairs.read (Utf8.encode (Template.literalQuery text.toList)) := by
    have hsent : u.query.getD [] = Percent.encode inQuery
        (Percent.encode Resolution.inQuery (Template.literalQuery text.toList)) := by
      rw [hquery, ← Template.split_query_getD]
      cases (Template.split text.toList).query <;> rfl
    rw [hsent, FormPairs.read_escaped escapable_inQuery,
      FormPairs.read_escaped Resolution.escapable_inQuery]
  refine ⟨text, pairs, htext, hpairs, ?_, ?_, ?_⟩
  · rw [read_appendPairs, hread]
  · rw [appendPairs_query_isSome, hquery, Option.isSome_map, Option.isSome_map,
      Template.split_query]
    split <;> simp_all
  · rw [appendPairs_fragment, hfragment, Option.isSome_map, Option.isSome_map,
      Template.split_fragment_isSome]

/-- A form is read as the pairs of its fields. -/
theorem ContentBinding.read_of_encode_form {fields : List ValueBinding} {args : Arguments}
    {boundary : String} {converters : List Converter} {pairs : List (String × String)} :
    (∃ body content, (ContentBinding.form fields).encode boundary args converters = .ok body ∧
      body.write = .pure content ∧ FormPairs.read content = pairs) ↔
        bindingPairs fields args = .ok pairs := by
  simp only [encode, map_ok_iff, mapError_ok_iff]
  constructor
  · rintro ⟨body, content, ⟨pairs', hpairs, rfl⟩, hwrite, rfl⟩
    obtain rfl : Utf8.encode (FormPairs.encode pairs') = content := congrArg Written.bytes hwrite
    rw [FormPairs.read_encode, hpairs]
  · intro h
    exact ⟨_, _, ⟨pairs, h, rfl⟩, rfl, FormPairs.read_encode pairs⟩

/-- **Pairs arrive as they are bound.**  The query of a call is read as the pairs of its literal
query and then those of its arguments, for any source of its URL, and it shows a query or a fragment
exactly when the text does or there are pairs.  A form is read as the pairs of its fields. -/
theorem pairs_composed [DomainNames] :
    (∀ {input : String} {base : BaseUrl} {source : UrlSource} {args : Arguments} {url : Url},
      BaseUrl.parse input = .ok base → source.resolve base args = .ok url →
        ∃ text pairs, source.literal? args = some text ∧
          bindingPairs source.queries args = .ok pairs ∧ url.IsComposedOf text.toList pairs) ∧
    ∀ (fields : List ValueBinding) (args : Arguments) (boundary : String)
      (converters : List Converter) (pairs : List (String × String)),
      (∃ body content, (ContentBinding.form fields).encode boundary args converters = .ok body ∧
        body.write = .pure content ∧ FormPairs.read content = pairs) ↔
          bindingPairs fields args = .ok pairs :=
  ⟨Url.isComposedOf_of_resolve, fun _ _ _ _ _ => ContentBinding.read_of_encode_form⟩

/-- A literal query with a bare name, an escape, a plus sign and a space, continued with a pair
whose name and value are made of signs; and the form with that pair. -/
theorem pairs_composed_signs :
    ∃ base url body content,
      BaseUrl.parse "https://h/b/" = .ok base ∧
      UrlSource.resolve (.template "a?x&y=%41+ ='#f" .relative [] [⟨some "&=", "q", .single⟩]) base
        (.ofList [("q", .string "+ %é")]) = .ok url ∧
      FormPairs.read (Utf8.encode (url.query.getD []))
        = [("x", ""), ("y", "A  ='"), ("&=", "+ %é")] ∧ url.fragment.isSome = true ∧
      (ContentBinding.form [⟨some "&=", "q", .single⟩]).encode ""
        (.ofList [("q", .string "+ %é")]) [] = .ok body ∧
      body.write = .pure content ∧ FormPairs.read content = [("&=", "+ %é")] := by
  let u : Url := ⟨⟨⟨[], none⟩, .domain "h".toList, none⟩, .https, ["b".toList, []], none, none⟩
  let base : BaseUrl := ⟨u, rfl, rfl, rfl⟩
  let queries : List ValueBinding := [⟨some "&=", "q", .single⟩]
  let args : Arguments := .ofList [("q", .string "+ %é")]
  let url : Url := { u with
    path := ["b".toList, "a".toList]
    query := some "x&y=%41+%20=%27&%26%3D=%2B+%25%C3%A9".toList
    fragment := some "f".toList }
  have hbase : BaseUrl.parse "https://h/b/" = .ok base :=
    BaseUrl.parse_eq_ok_iff.mpr (by decide +kernel)
  have h : UrlSource.resolve (.template "a?x&y=%41+ ='#f" .relative [] queries) base args
      = .ok url := by decide +kernel
  have hform : bindingPairs queries args = .ok [("&=", "+ %é")] := by decide +kernel
  obtain ⟨text, pairs, htext, hpairs, hcomposed⟩ := pairs_composed.1 hbase h
  obtain rfl := Option.some.inj htext
  obtain rfl := Except.ok.inj (hform.symm.trans hpairs)
  obtain ⟨body, content, hbody, hwrite, hread⟩ := (pairs_composed.2 queries args "" [] _).mpr hform
  have hliteral : FormPairs.read (Utf8.encode (Template.literalQuery "a?x&y=%41+ ='#f".toList))
      = [("x", ""), ("y", "A  ='")] := by decide +kernel
  refine ⟨base, url, body, content, hbase, h, ?_, hcomposed.fragment.mpr (by decide), hbody, hwrite,
    hread⟩
  rw [hcomposed.read, hliteral]
  rfl

end HttpService
