import HttpService.Proofs.Validation.Bindings
import HttpService.Proofs.Validation.Placeholders

/-!
# Endpoints are well formed

What a call takes for granted of an endpoint: its template is in order and each placeholder is
filled by one binding, every binding names a parameter of the endpoint, and headers and content
are what they may be.  `Endpoint.WellFormed` lists it, and `wellFormed_of_mem_service` says that
it holds of every endpoint of an analyzed service.

A binding is checked with its parameter alone (`Binding.Fits`), and the rules about several
parameters come from the steps of `Endpoints` and `Placeholders`.
-/

namespace HttpService

/-! ## What is well formed -/

/-- Whether every value brings a name of its own. -/
def ValueMode.isMap : ValueMode → Bool
  | .map _ => true
  | _ => false

/-- A binding has no name exactly when every value brings its own. -/
def ValueBinding.IsNamed (b : ValueBinding) : Prop :=
  b.name = none ↔ b.mode.isMap = true

/-- A binding has no name exactly when every value brings its own. -/
def PartBinding.IsNamed (b : PartBinding) : Prop :=
  b.name = none ↔ b.mode.isMap = true

/-- A template whose parts are in order and whose placeholders are filled one by one. -/
structure Template.WellFormed (text : String) (kind : Kind) (path : List PathBinding) : Prop where
  kind_eq : kind = classify text
  malformed : (scan (split text.toList).path).malformed = []
  nodup : ((scan (split text.toList).path).placeholders.map (·.name)).Nodup
  filled : (path.map (·.placeholder)).Perm
    ((scan (split text.toList).path).placeholders.map (·.name))
  traversal : ∀ s ∈ segments (split text.toList).path, isTraversalSegment s = false
  query : ∀ t ∈ (split text.toList).query, (scan t).placeholders = []
  fragment : ∀ t ∈ (split text.toList).fragment, (scan t).placeholders = []
  scheme : kind = Kind.full → ∃ name, scheme? text = some name ∧
    (Lexical.lower name = "http" ∨ Lexical.lower name = "https")

namespace UrlSource

/-- A source whose template is well formed, if it is one. -/
def WellFormed : UrlSource → Prop
  | .template text kind path _ => Template.WellFormed text kind path
  | .dynamic .. => True

def parameters : UrlSource → List String
  | .template _ _ path queries => path.map (·.parameter) ++ queries.map (·.parameter)
  | .dynamic parameter queries => parameter :: queries.map (·.parameter)

end UrlSource

namespace HeaderBinding

/-- The name of a header, unless it comes with the call. -/
def name? : HeaderBinding → Option String
  | .static name _ | .single name .. => some name
  | .map .. => none

def parameter? : HeaderBinding → Option String
  | .static .. => none
  | .single _ parameter _ | .map parameter _ => some parameter

/-- A header whose name, if it is known, is a token and not that of a content header. -/
def WellFormed (b : HeaderBinding) : Prop :=
  ∀ name ∈ b.name?, Lexical.checkToken name = .ok () ∧ Lexical.isContentHeader name = false

end HeaderBinding

namespace ContentBinding

def parameters : ContentBinding → List String
  | .body b => [b.parameter]
  | .form fields => fields.map (·.parameter)
  | .multipart _ parts => parts.map (·.parameter)

/-- A content with at least one field or part, each of them named as it should be. -/
def WellFormed : ContentBinding → Prop
  | .body _ => True
  | .form fields => fields ≠ [] ∧ ∀ b ∈ fields, b.IsNamed
  | .multipart _ parts => parts ≠ [] ∧ ∀ b ∈ parts, b.IsNamed

end ContentBinding

namespace Endpoint

/-- The parameters that some binding of an endpoint uses. -/
def boundParameters (e : Endpoint) : List String :=
  e.url.parameters ++ e.headers.filterMap HeaderBinding.parameter? ++
    (e.content.map ContentBinding.parameters).getD []

/-- What a call takes for granted of an endpoint. -/
structure WellFormed (e : Endpoint) : Prop where
  url : e.url.WellFormed
  parameters : ∀ n ∈ e.boundParameters, ∃ p ∈ e.parameters, p.name = n
  queries : ∀ b ∈ e.url.queries, b.IsNamed
  headers : ∀ b ∈ e.headers, b.WellFormed
  content : ∀ c ∈ e.content, c.WellFormed ∧ e.method.permitsBody = true

end Endpoint

/-! ## One parameter -/

/-- A binding of a parameter, named as it should be. -/
def Binding.Fits (p : ParameterDecl) : Binding → Prop
  | .path _ | .url => True
  | .query b | .field b => b.parameter = p.name ∧ b.IsNamed
  | .header b => b.parameter? = some p.name ∧ b.WellFormed
  | .part b => b.parameter = p.name ∧ b.IsNamed
  | .body b => b.parameter = p.name

namespace ParameterDecl

theorem isMap_listOrSingle (t : TypeExpr) : (listOrSingle t).isMap = false := by
  unfold listOrSingle
  split <;> rfl

/-- **The binding of a parameter with which nothing is wrong fits the parameter.** -/
theorem fits_of_lower {serializable : List String} {p : ParameterDecl} {role : Role} {b : Binding}
    (h : p.lower serializable role = (b, [])) : b.Fits p := by
  cases role with
  | path name | url =>
    obtain ⟨rfl, -⟩ := Prod.mk.inj h
    exact trivial
  | body contentType =>
    obtain ⟨rfl, -⟩ := Prod.mk.inj h
    exact rfl
  | query name | field name | part name contentType =>
    obtain ⟨rfl, -⟩ := Prod.mk.inj h
    exact ⟨rfl, iff_of_false nofun (by simp [isMap_listOrSingle])⟩
  | queryMap | fieldMap | partMap contentType =>
    obtain ⟨rfl, -⟩ := Prod.mk.inj h
    exact ⟨rfl, iff_of_true rfl rfl⟩
  | header name =>
    obtain ⟨rfl, hviolations⟩ := Prod.mk.inj h
    have hname := headerNameViolations_eq_nil_iff.mp (List.append_eq_nil_iff.mp hviolations).1
    refine ⟨rfl, ?_⟩
    rintro _ ⟨⟩
    exact hname
  | headerMap =>
    obtain ⟨rfl, -⟩ := Prod.mk.inj h
    exact ⟨rfl, nofun⟩

end ParameterDecl

theorem Template.exists_scheme?_of_full {text : String} (h : classify text = .full) :
    ∃ name, scheme? text = some name := by
  unfold classify classifyChars at h
  split at h
  · cases h
  · cases h
  · split at h
    · next hsome => exact Option.isSome_iff_exists.mp (by simpa [scheme?] using hsome)
    · cases h

namespace FunctionDecl

variable {serializable : List String} {f : FunctionDecl}

theorem fits_of_mem_bound {p : ParameterDecl} {b : Binding} (h : (p, b) ∈ f.bound serializable) :
    p ∈ f.parameters ∧ b.Fits p := by
  obtain ⟨role, hlower⟩ := exists_lower_of_mem_bound h
  exact ⟨(mem_bound_iff.mp h).1, ParameterDecl.fits_of_lower hlower⟩

/-! ## Headers -/

theorem headerName_of_staticHeader {text : String} {b : HeaderBinding}
    (hb : (staticHeader text).1 = some b) (h : (staticHeader text).2 = []) :
    b.parameter? = none ∧ b.WellFormed := by
  unfold staticHeader at hb h
  split at h
  · cases h
  · next name value hcut =>
    rw [hcut] at hb
    obtain rfl := Option.some.inj hb
    refine ⟨rfl, ?_⟩
    rintro _ ⟨⟩
    exact headerNameViolations_eq_nil_iff.mp (List.append_eq_nil_iff.mp h).1

/-- A header that is written out uses no parameter and has a name of its own. -/
theorem headerName_of_mem_staticHeaders {texts : List String} {b : HeaderBinding}
    (h : (staticHeaders texts).2 = []) (hb : b ∈ (staticHeaders texts).1) :
    b.parameter? = none ∧ b.WellFormed := by
  simp only [staticHeaders, List.flatMap_eq_nil_iff, List.mem_map, forall_exists_index, and_imp,
    forall_apply_eq_imp_iff₂, List.mem_filterMap] at h hb
  obtain ⟨_, ⟨text, htext, rfl⟩, hb⟩ := hb
  exact headerName_of_staticHeader hb (h text htext)

/-! ## The source of the URL -/

theorem scheme_of_schemeViolations {template : String} (h : schemeViolations template = [])
    (hfull : Template.classify template = .full) :
    ∃ name, Template.scheme? template = some name ∧
      (Lexical.lower name = "http" ∨ Lexical.lower name = "https") := by
  obtain ⟨name, hname⟩ := Template.exists_scheme?_of_full hfull
  have hlower : Lexical.lower "http" = "http" ∧ Lexical.lower "https" = "https" := by
    decide +kernel
  simp only [schemeViolations, hfull, if_true, hname, Option.getD_some, ite_eq_left_iff,
    reduceCtorEq, imp_false, not_not, isWebScheme, Lexical.sameIgnoringCase, hlower,
    Bool.or_eq_true, beq_iff_eq] at h
  exact ⟨name, hname, h⟩

theorem wellFormed_of_templateDiagnostics {template : String}
    {paths : List (ParameterDecl × String)} (h : f.templateDiagnostics template paths = []) :
    Template.WellFormed template (Template.classify template)
      (paths.map fun x => ⟨x.2, x.1.name⟩) := by
  obtain ⟨hscheme, htraversal, hmalformed, htail, hnodup, hfilled⟩ :=
    templateDiagnostics_eq_nil_iff.mp h
  refine ⟨rfl, hmalformed, ?_, ?_, ?_, fun t ht => ?_, fun t ht => ?_,
    scheme_of_schemeViolations hscheme⟩
  · rwa [Template.map_name_scan]
  · rw [Template.map_name_scan, List.map_map]
    exact hfilled
  · simpa [Template.traversalSegment?] using htraversal
  · exact Template.scan_placeholders_eq_nil_iff.mpr (htail t (by simp [Option.mem_def.mp ht]))
  · exact Template.scan_placeholders_eq_nil_iff.mpr (htail t (by simp [Option.mem_def.mp ht]))

/-- **The source of a URL with which nothing is wrong** is well formed, uses parameters of the
function, and has the function's queries. -/
theorem wellFormed_of_urlStep {marks : Marks} {url : UrlSource}
    (h : f.urlStep marks (f.bound serializable) = (some url, [])) :
    url.WellFormed ∧ (∀ n ∈ url.parameters, ∃ p ∈ f.parameters, p.name = n) ∧
      url.queries = queryBindings (f.bound serializable) := by
  have hqueries : ∀ n ∈ (queryBindings (f.bound serializable)).map (·.parameter),
      ∃ p ∈ f.parameters, p.name = n := by
    intro n hn
    obtain ⟨b, hb, rfl⟩ := List.mem_map.mp hn
    obtain ⟨p, hp⟩ := mem_queryBindings_iff.mp hb
    obtain ⟨hmem, hparameter, -⟩ := fits_of_mem_bound hp
    exact ⟨p, hmem, hparameter.symm⟩
  unfold urlStep at h
  split at h
  · cases h
  · rcases checkUrl_eq_some_iff.mp h with ⟨template, -, -, htemplate, rfl⟩ | ⟨p, -, hurl, -, rfl⟩
    · refine ⟨wellFormed_of_templateDiagnostics htemplate, fun n hn => ?_, rfl⟩
      rcases List.mem_append.mp hn with hn | hn
      · simp only [List.map_map, List.mem_map, Function.comp_apply] at hn
        obtain ⟨x, hx, rfl⟩ := hn
        exact ⟨x.1, (fits_of_mem_bound (mem_pathBindings_iff.mp hx)).1, rfl⟩
      · exact hqueries n hn
    · refine ⟨trivial, fun n hn => ?_, rfl⟩
      rcases List.mem_cons.mp hn with rfl | hn
      · have hp : p ∈ urlParameters (f.bound serializable) := by
          rw [hurl]
          exact List.mem_cons_self
        exact ⟨p, (fits_of_mem_bound (mem_urlParameters_iff.mp hp)).1, rfl⟩
      · exact hqueries n hn

/-! ## Content -/

/-- **The content with which nothing is wrong** is well formed and uses parameters of the
function. -/
theorem wellFormed_of_content? {marks : Marks} {content : ContentBinding}
    (h : f.contentViolations marks (f.bound serializable) = [])
    (hcontent : content? marks (f.bound serializable) = some content) :
    content.WellFormed ∧ ∀ n ∈ content.parameters, ∃ p ∈ f.parameters, p.name = n := by
  cases content with
  | body b =>
    obtain ⟨p, hp⟩ := mem_bodyBindings_iff.mp (mem_bodyBindings_of_content? hcontent)
    obtain ⟨hmem, hparameter⟩ := fits_of_mem_bound hp
    refine ⟨trivial, fun n hn => ⟨p, hmem, ?_⟩⟩
    rw [List.mem_singleton.mp hn]
    exact hparameter.symm
  | form fields =>
    obtain ⟨rfl, hne⟩ := fields_ne_nil_of_content? h hcontent
    refine ⟨⟨hne, fun b hb => ?_⟩, fun n hn => ?_⟩
    · obtain ⟨p, hp⟩ := mem_fieldBindings_iff.mp hb
      exact (fits_of_mem_bound hp).2.2
    · obtain ⟨b, hb, rfl⟩ := List.mem_map.mp hn
      obtain ⟨p, hp⟩ := mem_fieldBindings_iff.mp hb
      obtain ⟨hmem, hparameter, -⟩ := fits_of_mem_bound hp
      exact ⟨p, hmem, hparameter.symm⟩
  | multipart subtype parts =>
    obtain ⟨rfl, hne⟩ := parts_ne_nil_of_content? h hcontent
    refine ⟨⟨hne, fun b hb => ?_⟩, fun n hn => ?_⟩
    · obtain ⟨p, hp⟩ := mem_partBindings_iff.mp hb
      exact (fits_of_mem_bound hp).2.2
    · obtain ⟨b, hb, rfl⟩ := List.mem_map.mp hn
      obtain ⟨p, hp⟩ := mem_partBindings_iff.mp hb
      obtain ⟨hmem, hparameter, -⟩ := fits_of_mem_bound hp
      exact ⟨p, hmem, hparameter.symm⟩

/-! ## The whole function -/

theorem wellFormed_of_endpoint? {e : Endpoint} (h : f.endpoint? serializable = some e) :
    e.WellFormed := by
  obtain ⟨hnil, method, url, hmethod, hsome, rfl⟩ := endpoint?_eq_some_iff.mp h
  obtain ⟨-, -, hstatic, -, hurl, -, hviolations, -⟩ := diagnostics_eq_nil_iff.mp hnil
  obtain ⟨hwell, hparameters, hqueries⟩ := wellFormed_of_urlStep (Prod.ext hsome hurl)
  have hlisted {n : String} (hn : ∃ p ∈ f.parameters, p.name = n) :
      ∃ p ∈ (f.endpoint serializable method url).parameters, p.name = n := by
    obtain ⟨p, hp, rfl⟩ := hn
    exact ⟨⟨p.name, p.type⟩, List.mem_map.mpr ⟨p, hp, rfl⟩, rfl⟩
  refine ⟨hwell, fun n hn => hlisted ?_, fun b hb => ?_, fun b hb => ?_, fun c hc => ?_⟩
  · rcases List.mem_append.mp hn with hn | hn
    · rcases List.mem_append.mp hn with hn | hn
      · exact hparameters n hn
      · obtain ⟨b, hb, hparameter⟩ := List.mem_filterMap.mp hn
        rcases List.mem_append.mp hb with hb | hb
        · simp [(headerName_of_mem_staticHeaders hstatic hb).1] at hparameter
        · obtain ⟨p, hp⟩ := mem_headerBindings_iff.mp hb
          obtain ⟨hmem, hname, -⟩ := fits_of_mem_bound hp
          exact ⟨p, hmem, Option.some.inj (hname.symm.trans hparameter)⟩
    · cases hcontent : content? f.readMarks.1 (f.bound serializable) with
      | none => simp [endpoint, hcontent] at hn
      | some content =>
        simp only [endpoint, hcontent, Option.map_some, Option.getD_some] at hn
        exact (wellFormed_of_content? hviolations hcontent).2 n hn
  · rw [show (f.endpoint serializable method url).url.queries = _ from hqueries] at hb
    obtain ⟨p, hp⟩ := mem_queryBindings_iff.mp hb
    exact (fits_of_mem_bound hp).2.2
  · rcases List.mem_append.mp hb with hb | hb
    · exact (headerName_of_mem_staticHeaders hstatic hb).2
    · obtain ⟨p, hp⟩ := mem_headerBindings_iff.mp hb
      exact (fits_of_mem_bound hp).2.2
  · exact ⟨(wellFormed_of_content? hviolations hc).1,
      permitsBody_of_content? hviolations hmethod hc⟩

end FunctionDecl

/-- **Every endpoint of an analyzed service is well formed.** -/
theorem wellFormed_of_mem_service {s : ServiceDecl} {service : Service}
    (hs : s.analyze.service = some service) {e : Endpoint} (he : e ∈ service.endpoints) :
    e.WellFormed := by
  obtain ⟨f, -, hf⟩ := ServiceDecl.exists_of_mem_service hs he
  exact FunctionDecl.wellFormed_of_endpoint? hf

/-- A service whose one function uploads the parts of a page, with bindings of every kind but a
body and a form. -/
def uploadService : ServiceDecl where
  name := "S"
  kind := .interface
  topLevel := true
  supertypes := []
  typeParameters := []
  properties := []
  functions := [{
    name := "f"
    marks := [.http "POST" (some "HTTPS://h/\x7bbook\x7d/\x7bpage\x7d?v=1#top") none,
      .headers ["X-A: 1"], .multipart none]
    isSuspending := true
    hasDefaultBody := false
    typeParameters := []
    parameters := [⟨"n", .named "Int", [.path (some "page")], .unknown⟩,
      ⟨"book", .named "String", [.path none], .unknown⟩,
      ⟨"q", .named "MultiValueMap", [.queryMap], .unknown⟩,
      ⟨"h", .named "String", [.header "X-B"], .unknown⟩,
      ⟨"p", .mk "List" false [.named "String"], [.part (some "p") none], .unknown⟩]
    returnType := .named "Unit"
    location := .unknown }]
  serializableTypes := []
  location := .unknown

/-- What the function of `uploadService` becomes. -/
def uploadEndpoint : Endpoint where
  name := "f"
  parameters := [⟨"n", .named "Int"⟩, ⟨"book", .named "String"⟩, ⟨"q", .named "MultiValueMap"⟩,
    ⟨"h", .named "String"⟩, ⟨"p", .mk "List" false [.named "String"]⟩]
  method := .post
  url := .template "HTTPS://h/\x7bbook\x7d/\x7bpage\x7d?v=1#top" .full
    [⟨"page", "n"⟩, ⟨"book", "book"⟩] [⟨none, "q", .map .multiValue⟩]
  headers := [.static "X-A" "1", .single "X-B" "h" false]
  content := some (.multipart "form-data" [⟨some "p", "p", "text/plain", .iterable, false⟩])
  returns := .plain (.named "Unit")

theorem wellFormed_of_mem_service_upload :
    uploadService.analyze.service = some ⟨"SClient", "S", [uploadEndpoint]⟩ ∧
      uploadEndpoint.WellFormed := by
  have hs : uploadService.analyze.service = some ⟨"SClient", "S", [uploadEndpoint]⟩ := by
    decide +kernel
  exact ⟨hs, wellFormed_of_mem_service hs List.mem_cons_self⟩

end HttpService
