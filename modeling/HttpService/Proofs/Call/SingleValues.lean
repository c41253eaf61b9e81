import HttpService.Proofs.Argument.Conformance
import HttpService.Proofs.Call.Discharge
import HttpService.Proofs.Call.HeadSafety

/-!
# Single values in the path

A value of the path has to be a single one.  A declaration is checked for this by the type of the
parameter and a call by the value, and the two tests part the built-in types differently: the types
of collections and maps are refused, but those of pairs, triples and arrays of simple values are
not, and their values may be lists.  A call with values of the declared types is refused for this
reason exactly when the first value that cannot be put into the path is such a list
(`resolve_single_iff`).
-/

namespace HttpService

namespace TypeExpr

/-- The values of the built-in types, by the family alone. -/
inductive Family.Admits : Family → Argument → Prop
  | scalar {a : Argument} (ha : a.IsScalar) : Admits .scalar a
  | bytes (content : Bytes) : Admits .primitiveArray (.bytes content)
  | scalars {items : List Argument} (hitems : ∀ a ∈ items, a.IsScalar) :
      Admits .primitiveArray (.list items)
  | collection (items : List Argument) : Admits .collection (.list items)
  | map (entries : List (String × Argument)) : Admits .map (.map entries)
  | pair (a b : Argument) : Admits .pair (.list [a, b])
  | triple (a b c : Argument) : Admits .triple (.list [a, b, c])
  | byteStream {a : Argument} (ha : a.IsRaw) : Admits .byteStream a
  | multiValueMap (entries : List (String × Argument)) : Admits .multiValueMap (.map entries)

/-- The families of which a path takes the type though it may not take the value. -/
def Family.IsSequence (family : Family) : Prop :=
  family = .pair ∨ family = .triple ∨ family = .primitiveArray

end TypeExpr

namespace ParameterDecl

variable {serializable : List String} {p : ParameterDecl} {family : TypeExpr.Family}
  {a : Argument}

/-- A value of a type that is accepted in a path is no stream and no map, and if it is a list, it
is a pair, a triple or an array. -/
theorem admits_of_pathViolations (hpath : p.pathViolations = [])
    (huses : p.type.violations serializable .argument = []) (hfamily : p.type.family? = some family)
    (ha : family.Admits a) : a.IsScalar ∨ (∃ content, a = .bytes content) ∨
      family.IsSequence ∧ ∃ items, a = .list items := by
  have hshape : p.type.isIterable = false ∧ p.type.mapShape? = none := by
    simp only [pathViolations, List.append_eq_nil_iff, ite_eq_right_iff, reduceCtorEq, imp_false,
      Bool.or_eq_true, not_or, Bool.not_eq_true, Option.isSome_eq_false_iff,
      Option.isNone_iff_eq_none] at hpath
    exact hpath.2.1
  cases ha with
  | scalar ha => exact .inl ha
  | bytes content => exact .inr (.inl ⟨content, rfl⟩)
  | scalars => exact .inr (.inr ⟨.inr (.inr rfl), _, rfl⟩)
  | pair => exact .inr (.inr ⟨.inl rfl, _, rfl⟩)
  | triple => exact .inr (.inr ⟨.inr (.inl rfl), _, rfl⟩)
  | collection => simp [TypeExpr.isIterable, hfamily] at hshape
  | map => simp [TypeExpr.mapShape?, hfamily] at hshape
  | multiValueMap => simp [TypeExpr.mapShape?, hfamily] at hshape
  | byteStream => exact absurd hfamily (TypeExpr.family?_ne_byteStream rfl huses)

end ParameterDecl

/-- A parameter of an endpoint has a type for which a path takes no list of a value. -/
def Endpoint.HasSequence (e : Endpoint) (parameter : String) : Prop :=
  ∃ p ∈ e.parameters, p.name = parameter ∧
    ∃ family, p.type.family? = some family ∧ family.IsSequence

/-- What a value in the path can be, if it is one of the declared type. -/
theorem FunctionDecl.path_value_cases {serializable : List String} {f : FunctionDecl} {e : Endpoint}
    (h : f.endpoint? serializable = some e) {text : String} {kind : Template.Kind}
    {path : List PathBinding} {queries : List ValueBinding}
    (hurl : e.url = .template text kind path queries) {b : PathBinding} (hb : b ∈ path)
    {a : Argument} (hargs : ∀ p ∈ e.parameters, p.name = b.parameter →
      ∃ family, p.type.family? = some family ∧ family.Admits a) :
    a.IsScalar ∨ (∃ content, a = .bytes content) ∨
      e.HasSequence b.parameter ∧ ∃ items, a = .list items := by
  obtain ⟨p, hp, hname, hpath, huses⟩ := exists_path_parameter h hurl hb
  have hmem := mem_parameters_of_endpoint? h hp
  obtain ⟨family, hfamily, hadmits⟩ := hargs _ hmem hname
  rcases ParameterDecl.admits_of_pathViolations hpath huses hfamily hadmits with
    hscalar | hbytes | ⟨hsequence, hlist⟩
  · exact .inl hscalar
  · exact .inr (.inl hbytes)
  · exact .inr (.inr ⟨⟨_, hmem, hname, family, hfamily, hsequence⟩, hlist⟩)

namespace Resolution

theorem pathText_ne_error {parameter : String} {a : Argument} {cause : ArgumentFault}
    (h : a.IsScalar ∨ ∃ content, a = .bytes content) : pathText parameter a ≠ .error cause := by
  rcases h with h | ⟨content, rfl⟩
  · cases h <;> nofun
  · nofun

theorem parameter_of_pathText {b : String} {a : Argument} {parameter found : String}
    (h : pathText b a = .error (.shape parameter "a single value" found)) : b = parameter := by
  unfold pathText at h
  split at h
  · exact (ArgumentFault.shape.inj (Except.error.inj h)).1
  · exact (ArgumentFault.shape.inj (Except.error.inj h)).1
  · rcases (bind_error_iff _ _ _).mp h with h | ⟨text, -, h⟩
    · exact absurd rfl (Argument.isUnwritable_of_toText h)
    · split at h <;> cases h

end Resolution

namespace UrlSource

theorem pathValues_of_resolve [DomainNames] {text : String} {kind : Template.Kind}
    {path : List PathBinding}
    {queries : List ValueBinding} {base : BaseUrl} {args : Arguments} {parameter found : String}
    (h : resolve (.template text kind path queries) base args
      = .error (.argument (.shape parameter "a single value" found))) :
    Resolution.pathValues args path
      = .error (.argument (.shape parameter "a single value" found)) := by
  rcases fault_of_resolve_template h with h | h | ⟨lookup, h⟩ | ⟨cause, h, ⟨⟩⟩
  · obtain ⟨segment, ⟨⟩⟩ := Resolution.rejectTraversal_eq_error h
  · exact h
  · rcases Resolution.fault_of_join h with ⟨_, ⟨⟩⟩ | ⟨_, ⟨⟩⟩ | ⟨_, _, ⟨⟩⟩
  · exact absurd rfl (isUnwritable_of_bindingPairs h)

/-- A fault of the values in the path is one of the URL, if the template is no traversal. -/
theorem resolve_of_pathValues [DomainNames] {text : String} {kind : Template.Kind}
    {path : List PathBinding}
    {queries : List ValueBinding} {base : BaseUrl} {args : Arguments} {fault : ResolutionFault}
    (hwell : Template.WellFormed text kind path)
    (h : Resolution.pathValues args path = .error fault) :
    resolve (.template text kind path queries) base args = .error fault := by
  have hreject : Resolution.rejectTraversal (Template.split text.toList).path "the URL template"
      = .ok () := by
    cases hreject : Resolution.rejectTraversal (Template.split text.toList).path
        "the URL template" with
    | ok => rfl
    | error fault => exact absurd hreject (Resolution.rejectTraversal_ne_error hwell.traversal)
  refine (bind_error_iff _ _ _).mpr (.inl ?_)
  rw [Resolution.template, hreject, ok_bind, h]
  rfl

end UrlSource

/-- **When a value of the path is refused for not being a single one.**  If a parameter has a
built-in type and a value of that type, a call is refused for that value exactly when the parameter
fills a placeholder, all values before it can be put into the path, and it is a list for a pair, a
triple or an array; and for no other reason is such a value without a text. -/
theorem resolve_single_iff [DomainNames] {s : ServiceDecl} {service : Service}
    (hs : s.analyze.service = some service) {e : Endpoint} (he : e ∈ service.endpoints)
    {text : String} {kind : Template.Kind} {path : List PathBinding} {queries : List ValueBinding}
    (hurl : e.url = .template text kind path queries) (base : BaseUrl) {args : Arguments}
    {parameter : String} (hargs : ∀ p ∈ e.parameters, p.name = parameter →
      ∃ family, p.type.family? = some family ∧ family.Admits (args.value parameter)) :
    ((∃ found, e.url.resolve base args
        = .error (.argument (.shape parameter "a single value" found))) ↔
      ∃ front b back, path = front ++ b :: back ∧ b.parameter = parameter ∧
        (∀ x ∈ front, ∃ value, Resolution.pathValue x args = .ok value) ∧
        e.HasSequence parameter ∧ ∃ items, args.value parameter = .list items) ∧
      ∀ b ∈ path, b.parameter = parameter → ∀ cause,
        Resolution.pathText parameter (args.value parameter) = .error cause →
          cause = .shape parameter "a single value" "list" := by
  obtain ⟨f, -, hf⟩ := ServiceDecl.exists_of_mem_service hs he
  have hvalue : ∀ b ∈ path, b.parameter = parameter →
      ∀ cause, Resolution.pathText parameter (args.value parameter) = .error cause →
        e.HasSequence parameter ∧ ∃ items, args.value parameter = .list items := by
    rintro b hb rfl cause hcause
    rcases FunctionDecl.path_value_cases hf hurl hb hargs with hscalar | hbytes | hlist
    · exact absurd hcause (Resolution.pathText_ne_error (.inl hscalar))
    · exact absurd hcause (Resolution.pathText_ne_error (.inr hbytes))
    · exact hlist
  constructor
  · rw [hurl]
    constructor
    · rintro ⟨found, h⟩
      obtain ⟨front, b, back, hpath, hfront, hb⟩ :=
        Resolution.pathValues_eq_error_iff.mp (UrlSource.pathValues_of_resolve h)
      rcases Resolution.fault_of_pathValue hb with ⟨cause, hcause, ⟨⟩⟩ | ⟨segment, ⟨⟩⟩
      obtain rfl := Resolution.parameter_of_pathText hcause
      exact ⟨front, b, back, hpath, rfl, hfront, hvalue b (by simp [hpath]) rfl _ hcause⟩
    · rintro ⟨front, b, back, hpath, rfl, hfront, -, items, hitems⟩
      have hwell := (FunctionDecl.wellFormed_of_endpoint? hf).template hurl
      refine ⟨"list", UrlSource.resolve_of_pathValues hwell
        (Resolution.pathValues_eq_error_iff.mpr ⟨front, b, back, hpath, hfront, ?_⟩)⟩
      rw [Resolution.pathValue, hitems]
      rfl
  · intro b hb hname cause hcause
    obtain ⟨-, items, hitems⟩ := hvalue b hb hname cause hcause
    rw [hitems] at hcause
    exact (Except.error.inj hcause).symm

/-- A service whose one function has a path with a value of the given type. -/
def pathService (t : TypeExpr) : ServiceDecl where
  name := "S"
  kind := .interface
  topLevel := true
  supertypes := []
  typeParameters := []
  properties := []
  functions := [{
    name := "f"
    marks := [.http "GET" (some "a/\x7bp\x7d") none]
    isSuspending := true
    hasDefaultBody := false
    typeParameters := []
    parameters := [⟨"p", t, [.path none], .unknown⟩]
    returnType := .named "Unit"
    location := .unknown }]
  serializableTypes := []
  location := .unknown

def pathEndpoint (t : TypeExpr) : Endpoint :=
  ⟨"f", [⟨"p", t⟩], .get, .template "a/\x7bp\x7d" .relative [⟨"p", "p"⟩] [], [], none,
    .plain (.named "Unit")⟩

/-- An array that is given as bytes is put into the path. -/
theorem resolve_single_iff_bytes :
    (pathService (.named "ByteArray")).analyze.service
        = some ⟨"SClient", "S", [pathEndpoint (.named "ByteArray")]⟩ ∧
      ¬ ∃ found, (pathEndpoint (.named "ByteArray")).url.resolve postingClient.base
        (.ofList [("p", .bytes [0x61])])
          = .error (.argument (.shape "p" "a single value" found)) := by
  have hs : (pathService (.named "ByteArray")).analyze.service
      = some ⟨"SClient", "S", [pathEndpoint (.named "ByteArray")]⟩ := by decide +kernel
  have hargs : ∀ p ∈ (pathEndpoint (.named "ByteArray")).parameters, p.name = "p" →
      ∃ family, p.type.family? = some family ∧
        family.Admits ((Arguments.ofList [("p", .bytes [0x61])]).value "p") := by
    intro p hp _
    obtain rfl := List.mem_singleton.mp hp
    exact ⟨_, rfl, .bytes _⟩
  refine ⟨hs, fun h => ?_⟩
  obtain ⟨_, _, _, -, -, -, -, items, hitems⟩ :=
    (resolve_single_iff hs List.mem_cons_self rfl postingClient.base hargs).1.mp h
  cases hitems

/-- A path takes the type of a pair, and no value of it. -/
theorem resolve_pair_refused :
    let t : TypeExpr := .mk "Pair" false [.named "Int", .named "Int"]
    let args : Arguments := .ofList [("p", .list [.int 1, .int 2])]
    (pathService t).analyze.service = some ⟨"SClient", "S", [pathEndpoint t]⟩ ∧
      t.family? = some .pair ∧ TypeExpr.Family.pair.Admits (args.value "p") ∧
      (pathEndpoint t).url.resolve postingClient.base args
        = .error (.argument (.shape "p" "a single value" "list")) := by
  intro t args
  exact ⟨by decide +kernel, rfl, .pair _ _, by decide +kernel⟩

end HttpService
