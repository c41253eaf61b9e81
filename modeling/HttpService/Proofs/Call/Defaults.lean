import HttpService.Proofs.Argument.Conformance
import HttpService.Proofs.Call.HeadSafety
import HttpService.Proofs.Validation.Slots

/-!
# Content of default types

Where no content type is given, the check of a declaration picks one from the type of the parameter,
and a call picks the converter from the content type.  The default converters write every value of
the type (`exists_payload_default`), so the content of a call can be encoded as soon as its
arguments have their types, with one exception: a list of pairs may be declared to have null among
its pairs, and then it cannot be unpacked (`encodeContent_conforming_iff`).
-/

namespace HttpService

/-! ## Converters -/

section Payloads

variable {parameter : String} {a : Argument}

theorem writer?_defaultBodyType :
    Converter.writer? Converter.defaults defaultBodyType = some Converter.json := by
  have hjson : Converter.json.writes defaultBodyType = true := by decide +kernel
  simp only [Converter.writer?, Converter.defaults, List.find?_cons, hjson]

theorem writer?_textPlain :
    Converter.writer? Converter.defaults textPlain = some Converter.text := by
  have hjson : Converter.json.writes textPlain = false := by decide +kernel
  have htext : Converter.text.writes textPlain = true := by decide +kernel
  simp only [Converter.writer?, Converter.defaults, List.find?_cons, hjson, htext]

/-- Whatever has no stream in it is written as JSON. -/
theorem exists_convert_json (h : ¬ a.HoldsStream) :
    ∃ bytes, convert Converter.defaults parameter defaultBodyType a = .ok bytes := by
  obtain ⟨j, hj⟩ := Argument.exists_toJson parameter h
  exact ⟨_, by rw [convert, writer?_defaultBodyType, hj]; rfl⟩

theorem exists_convert_text (h : a.IsScalar) :
    ∃ bytes, convert Converter.defaults parameter textPlain a = .ok bytes := by
  simp only [convert, writer?_textPlain]
  cases h with
  | bool b => exact ⟨_, rfl⟩
  | int n => exact ⟨_, rfl⟩
  | float x =>
    rw [Argument.toJson, Json.float]
    split
    · exact ⟨_, rfl⟩
    · exact ⟨_, rfl⟩
  | string s => exact ⟨_, rfl⟩

theorem exists_payload {converters : List Converter} {contentType : String} (raw : Bool)
    (h : ∃ bytes, convert converters parameter contentType a = .ok bytes) :
    ∃ x, payload converters parameter contentType raw a = .ok x := by
  obtain ⟨bytes, hbytes⟩ := h
  unfold payload
  split
  · exact ⟨_, rfl⟩
  · exact ⟨_, rfl⟩
  · split
    · exact ⟨_, rfl⟩
    · exact ⟨_, by rw [hbytes]; rfl⟩
  · exact ⟨_, by rw [hbytes]; rfl⟩

theorem exists_payload_raw (converters : List Converter) (contentType : String) (h : a.IsRaw) :
    ∃ x, payload converters parameter contentType true a = .ok x := by
  cases h <;> exact ⟨_, rfl⟩

variable {t root : TypeExpr} {serializable : List String} {position : Position} {top raw : Bool}

/-- **A value of a type can be written with the type's default content type.** -/
theorem exists_payload_default (h : t.Conforms a) (hnull : a ≠ .null)
    (hwalk : TypeExpr.walk serializable root position top t = [])
    (hraw : t.isByteStream = true → raw = true) :
    ∃ x, payload Converter.defaults parameter (defaultPartType t) raw a = .ok x := by
  by_cases hstream : t.isByteStream = true
  · rw [hraw hstream]
    exact exists_payload_raw _ _ (h.isRaw (TypeExpr.isByteStream_iff.mp hstream) hnull)
  · rw [defaultPartType, if_neg hstream]
    split
    · next hscalar => exact exists_payload raw (exists_convert_text (h.isScalar hscalar hnull))
    · rw [TypeExpr.isByteStream_iff] at hstream
      exact exists_payload raw (exists_convert_json (h.not_holdsStream hwalk hstream))

end Payloads

/-! ## Values that are unpacked -/

/-- A list that is unpacked into pairs has no null among them. -/
def ValueMode.PairsGiven (mode : ValueMode) (a : Argument) : Prop :=
  mode = .map .pairList → .null ∉ a.elements

theorem ValueMode.pairsGiven_listOrSingle (t : TypeExpr) (a : Argument) :
    (ParameterDecl.listOrSingle t).PairsGiven a := by
  unfold ParameterDecl.listOrSingle
  split <;> nofun

def Role.givenType? : Role → Option String
  | .body contentType | .part _ contentType | .partMap contentType => contentType
  | _ => none

section Lowered

variable {serializable : List String} {p : ParameterDecl} {role : Role} {args : Arguments}

theorem exists_mapShape (h : p.mapViolations role = []) :
    ∃ shape, p.type.mapShape? = some shape ∧ p.mapKind = shape.kind ∧
      ∀ key ∈ shape.key, key.isString = true ∧ key.nullable = false := by
  unfold ParameterDecl.mapViolations at h
  split at h
  · cases h
  · next shape hshape =>
    refine ⟨shape, hshape, by rw [ParameterDecl.mapKind, hshape]; rfl, fun key hkey => ?_⟩
    simp only [Option.mem_def.mp hkey] at h
    split at h
    · cases h
    · split at h
      · cases h
      · next hstring hnullable => exact ⟨by simpa using hstring, by simpa using hnullable⟩

/-- **A value with names of its own is unpacked unless it is a list of pairs with null among
them**, into values that can be written. -/
theorem exists_entries_iff {position : Position} {a : Argument}
    (hviolations : p.mapViolations role = [])
    (huses : p.type.violations serializable position = []) (hargs : p.type.Conforms a)
    (parameter : String) :
    ((∃ es, a.entries p.mapKind parameter = .ok es) ↔ (ValueMode.map p.mapKind).PairsGiven a) ∧
      ∀ es, a.entries p.mapKind parameter = .ok es → ∀ e ∈ es,
        p.type.mapShape?.bind TypeExpr.MapShape.value = none ∧ e.2.IsScalar ∨
        ∃ value, p.type.mapShape?.bind TypeExpr.MapShape.value = some value ∧ value.Conforms e.2 ∧
          TypeExpr.walk serializable p.type position false value = [] ∧
          value.family? ≠ some .byteStream := by
  obtain ⟨shape, hshape, hkind, hkey⟩ := exists_mapShape hviolations
  have hgiven : (∃ es, a.entries p.mapKind parameter = .ok es) →
      shape.kind = .pairList → .null ∉ a.elements := by
    rintro ⟨es, hes⟩ hlist
    rw [hkind, hlist] at hes
    exact Argument.null_notMem_of_entries hes
  constructor
  · constructor
    · intro h hmode
      rw [hkind] at hmode
      exact hgiven h (ValueMode.map.inj hmode)
    · intro h
      obtain ⟨es, hes, -⟩ := hargs.exists_entries hshape hkey
        (fun hlist => h (by rw [hkind, hlist])) parameter
      exact ⟨es, by rw [hkind, hes]⟩
  · intro es hes e he
    obtain ⟨es', hes', hall⟩ := hargs.exists_entries hshape hkey (hgiven ⟨es, hes⟩) parameter
    rw [hkind] at hes
    obtain rfl := Except.ok.inj (hes.symm.trans hes')
    rw [hshape]
    refine (hall e he).imp_right ?_
    rintro ⟨value, hvalue, hconforms⟩
    exact ⟨value, hvalue, hconforms, TypeExpr.inner_of_mapShape hshape huses value hvalue⟩

/-! ## Fields -/

theorem unpack_listOrSingle (name parameter : String) (t : TypeExpr) (a : Argument) :
    unpack name parameter (ParameterDecl.listOrSingle t) a
      = .ok ((if t.isIterable then a.elements else [a]).map fun v => (name, v)) := by
  unfold ParameterDecl.listOrSingle
  split <;> rfl

/-- **The pairs of a field** can be made unless it is a list of pairs with null among them. -/
theorem exists_pairs_iff {b : ValueBinding} (h : p.lower serializable role = (.field b, []))
    (hargs : p.type.Conforms (args.value p.name)) :
    (∃ pairs, b.pairs args = .ok pairs) ↔ b.mode.PairsGiven (args.value b.parameter) := by
  simp only [ValueBinding.pairs, bind_ok_iff]
  cases role with
  | field name =>
    obtain ⟨⟨⟩, hviolations⟩ := Prod.mk.inj h
    have huses := (List.append_eq_nil_iff.mp hviolations).2
    have hplain := hargs.not_holdsStream huses (TypeExpr.family?_ne_byteStream rfl huses)
    refine iff_of_true ?_ (ValueMode.pairsGiven_listOrSingle _ _)
    rw [exists_comm]
    refine ⟨_, exists_and_left.mpr ⟨unpack_listOrSingle _ _ _ _, exists_textPairs _ ?_⟩⟩
    intro v hv
    obtain ⟨x, hx, rfl⟩ := List.mem_map.mp hv
    split at hx
    · exact Argument.not_holdsStream_elements hplain x hx
    · rw [List.mem_singleton.mp hx]
      exact hplain
  | fieldMap =>
    obtain ⟨⟨⟩, hviolations⟩ := Prod.mk.inj h
    obtain ⟨hmap, huses⟩ := List.append_eq_nil_iff.mp hviolations
    obtain ⟨hiff, hvalues⟩ := exists_entries_iff hmap huses hargs p.name
    rw [← hiff]
    constructor
    · rintro ⟨_, es, hes, -⟩
      exact ⟨es, hes⟩
    · rintro ⟨es, hes⟩
      rw [exists_comm]
      refine ⟨es, exists_and_left.mpr ⟨hes, exists_textPairs _ fun e he => ?_⟩⟩
      rcases hvalues es hes e he with ⟨-, hscalar⟩ | ⟨value, -, hconforms, hwalk, hplain⟩
      · exact hscalar.not_holdsStream
      · exact hconforms.not_holdsStream hwalk hplain
  | _ => cases congrArg Prod.fst h

/-! ## Parts -/

theorem named_listOrSingle {b : PartBinding} {t : TypeExpr}
    (hmode : b.mode = ParameterDecl.listOrSingle t) (a : Argument) :
    b.named a = .ok ((if t.isIterable then a.elements else [a]).map fun v => (b.name, v)) := by
  simp only [PartBinding.named, hmode, ParameterDecl.listOrSingle]
  cases t.isIterable <;> rfl

theorem exists_parts {b : PartBinding} {converters : List Converter}
    {values : List (Option String × Argument)}
    (hnamed : b.named (args.value b.parameter) = .ok values)
    (hpayload : ∀ v ∈ values, v.2 ≠ .null →
      ∃ x, payload converters b.parameter b.contentType b.raw v.2 = .ok x) :
    ∃ ps, b.parts args converters = .ok ps := by
  have hparts : ∀ v ∈ values.filter fun v => !v.2.isNull,
      ∃ part, b.part converters v = .ok part := by
    intro v hv
    obtain ⟨hv, hthere⟩ := List.mem_filter.mp hv
    obtain ⟨x, hx⟩ := hpayload v hv (by rintro h; simp [h, Argument.isNull] at hthere)
    exact ⟨_, by rw [PartBinding.part, hx]; rfl⟩
  obtain ⟨ps, hps⟩ := exists_mapM_iff.mpr hparts
  exact ⟨ps, by rw [PartBinding.parts, hnamed]; exact hps⟩

/-- **The parts of a binding** can be made unless it is a list of pairs with null among them. -/
theorem exists_parts_iff {b : PartBinding} (h : p.lower serializable role = (.part b, []))
    (htype : role.givenType? = none) (hargs : p.type.Conforms (args.value p.name)) :
    (∃ ps, b.parts args Converter.defaults = .ok ps) ↔
      b.mode.PairsGiven (args.value b.parameter) := by
  cases role with
  | part name contentType =>
    obtain rfl : contentType = none := htype
    obtain ⟨⟨⟩, hviolations⟩ := Prod.mk.inj h
    have huses := (List.append_eq_nil_iff.mp (List.append_eq_nil_iff.mp hviolations).1).2
    refine iff_of_true (exists_parts (named_listOrSingle rfl _) ?_)
      (ValueMode.pairsGiven_listOrSingle _ _)
    intro v hv hnull
    obtain ⟨x, hx, rfl⟩ := List.mem_map.mp hv
    simp only [Option.getD_none, TypeExpr.element?]
    split at hx
    · next hiterable =>
      obtain ⟨element, harguments, hconforms⟩ := hargs.elements (of_decide_eq_true hiterable) x hx
      obtain ⟨hwalk, hplain⟩ := TypeExpr.inner_of_walk huses element (by simp [harguments])
      rw [if_pos hiterable, harguments]
      refine exists_payload_default hconforms hnull hwalk fun hstream => ?_
      exact absurd (TypeExpr.isByteStream_iff.mp hstream) hplain
    · next hiterable =>
      rw [if_neg hiterable]
      obtain rfl := List.mem_singleton.mp hx
      exact exists_payload_default hargs hnull huses fun hstream => hstream
  | partMap contentType =>
    obtain rfl : contentType = none := htype
    obtain ⟨⟨⟩, hviolations⟩ := Prod.mk.inj h
    obtain ⟨hmap, huses⟩ := List.append_eq_nil_iff.mp (List.append_eq_nil_iff.mp hviolations).1
    obtain ⟨hiff, hvalues⟩ := exists_entries_iff hmap huses hargs p.name
    rw [← hiff]
    constructor
    · rintro ⟨ps, hps⟩
      obtain ⟨values, hvalues, -⟩ := (bind_ok_iff _ _ _).mp hps
      obtain ⟨es, hes, -⟩ := (map_ok_iff _ _ _).mp ((mapError_ok_iff _ _ _).mp hvalues)
      exact ⟨es, hes⟩
    · rintro ⟨es, hes⟩
      refine exists_parts ((map_ok_iff _ _ _).mpr ⟨es, hes, rfl⟩) ?_
      intro v hv hnull
      obtain ⟨e, he, rfl⟩ := List.mem_map.mp hv
      rcases hvalues es hes e he with ⟨hnone, hscalar⟩ | ⟨value, hvalue, hconforms, hwalk, hplain⟩
      · simp only [hnone, Option.getD_none]
        exact exists_payload false (exists_convert_text hscalar)
      · simp only [hvalue, Option.getD_some, Option.getD_none]
        refine exists_payload_default hconforms hnull hwalk fun hstream => ?_
        exact absurd (TypeExpr.isByteStream_iff.mp hstream) hplain
  | _ => cases congrArg Prod.fst h

/-! ## Bodies -/

/-- **A body** can always be made. -/
theorem exists_body {b : BodyBinding} (h : p.lower serializable role = (.body b, []))
    (htype : role.givenType? = none) (hargs : p.type.Conforms (args.value p.name)) :
    ∃ body, b.encode args Converter.defaults = .ok body := by
  cases role with
  | body contentType =>
    obtain rfl : contentType = none := htype
    obtain ⟨⟨⟩, hviolations⟩ := Prod.mk.inj h
    have huses := (List.append_eq_nil_iff.mp hviolations).1
    unfold BodyBinding.encode
    split
    · exact ⟨_, rfl⟩
    · next hnull =>
      have hpayload : ∃ x, payload Converter.defaults p.name defaultBodyType p.type.isByteStream
          (args.value p.name) = .ok x := by
        by_cases hstream : p.type.isByteStream = true
        · rw [hstream]
          exact exists_payload_raw _ _ (hargs.isRaw (TypeExpr.isByteStream_iff.mp hstream) hnull)
        · have hplain := fun hfamily => hstream (TypeExpr.isByteStream_iff.mpr hfamily)
          exact exists_payload _ (exists_convert_json (hargs.not_holdsStream huses hplain))
      obtain ⟨x, hx⟩ := hpayload
      exact ⟨_, (map_ok_iff _ _ _).mpr ⟨x, hx, rfl⟩⟩
  | _ => cases congrArg Prod.fst h

end Lowered

/-! ## Content -/

/-- Every list of pairs that is unpacked for a content has no null among the pairs. -/
def ContentBinding.PairsGiven (args : Arguments) : ContentBinding → Prop
  | .body _ => True
  | .form fields => ∀ b ∈ fields, b.mode.PairsGiven (args.value b.parameter)
  | .multipart _ parts => ∀ b ∈ parts, b.mode.PairsGiven (args.value b.parameter)

/-- The content of a function can be encoded unless it has a list of pairs with null among them. -/
theorem FunctionDecl.exists_content_iff {serializable : List String} {f : FunctionDecl}
    {e : Endpoint} (h : f.endpoint? serializable = some e)
    (htypes : ∀ p ∈ f.parameters, ∀ role ∈ p.roles, role.givenType? = none) {args : Arguments}
    (hargs : ∀ p ∈ f.parameters, p.type.Conforms (args.value p.name)) (boundary : String)
    {content : ContentBinding} (hcontent : e.content = some content) :
    (∃ body, content.encode boundary args Converter.defaults = .ok body) ↔
      content.PairsGiven args := by
  have hslots : ∀ s ∈ content.slots, ∃ p ∈ f.parameters, ∃ role,
      p.lower serializable role = (s.binding, []) ∧ role.givenType? = none ∧
        p.type.Conforms (args.value p.name) := by
    intro s hs
    have hmem : s ∈ e.slots := by
      rw [Endpoint.slots, hcontent]
      exact List.mem_append_right _ hs
    obtain ⟨p, hp, -, role, hroles, hlower⟩ := exists_lower_of_mem_slots h hmem
    exact ⟨p, hp, role, hlower, htypes p hp role (by simp [hroles]), hargs p hp⟩
  cases content with
  | body b =>
    obtain ⟨p, -, role, hlower, htype, hconforms⟩ := hslots _ List.mem_cons_self
    exact iff_of_true (exists_body hlower htype hconforms) trivial
  | form fields =>
    have hencode : (∃ body, (ContentBinding.form fields).encode boundary args Converter.defaults
        = .ok body) ↔ ∃ r, fields.mapM (fun b => b.pairs args) = .ok r := by
      simp [ContentBinding.encode, bindingPairs]
    rw [hencode, exists_mapM_iff]
    refine forall₂_congr fun b hb => ?_
    obtain ⟨p, -, role, hlower, -, hconforms⟩ := hslots _ (List.mem_map_of_mem hb)
    exact exists_pairs_iff hlower hconforms
  | multipart subtype parts =>
    have hencode : (∃ body, (ContentBinding.multipart subtype parts).encode boundary args
        Converter.defaults = .ok body) ↔
          ∃ r, parts.mapM (fun b => b.parts args Converter.defaults) = .ok r := by
      simp [ContentBinding.encode, -bind_pure_comp]
    rw [hencode, exists_mapM_iff]
    refine forall₂_congr fun b hb => ?_
    obtain ⟨p, -, role, hlower, htype, hconforms⟩ := hslots _ (List.mem_map_of_mem hb)
    exact exists_parts_iff hlower htype hconforms

/-- **The content of a call with default types can be encoded** exactly when no list of pairs that
is unpacked for it has null among the pairs.  The function is any of those of which nothing is said,
its endpoint is the one at the same place, none of its parameters has a content type of its own, and
the arguments have the types of the parameters. -/
theorem encodeContent_conforming_iff {s : ServiceDecl} {service : Service}
    (hs : s.analyze.service = some service) {f : FunctionDecl} {e : Endpoint}
    (hkept : (f, e) ∈ (s.functions.filter fun f => (s.contribution f).isEmpty).zip
      service.endpoints)
    (htypes : ∀ p ∈ f.parameters, ∀ role ∈ p.roles, role.givenType? = none) {σ : Type}
    {c : Client σ} (hc : c.converters = Converter.defaults) {args : Arguments}
    (hargs : ∀ p ∈ f.parameters, p.type.Conforms (args.value p.name)) :
    (∃ body, c.encodeContent e.content args = .ok body) ↔
      ∀ content ∈ e.content, content.PairsGiven args := by
  obtain ⟨-, rfl⟩ := ServiceDecl.service_eq_some_iff.mp hs
  have hf : f.endpoint? s.serializableTypes = some e :=
    (List.forall₂_iff_zip.mp (ServiceDecl.forall₂_endpoint? s s.functions)).2 hkept
  cases hcontent : e.content with
  | none => exact iff_of_true ⟨none, rfl⟩ nofun
  | some content =>
    simp only [Client.encodeContent, map_ok_iff, hc, Option.mem_def, Option.some.injEq,
      forall_eq']
    rw [← f.exists_content_iff hf htypes hargs c.boundary hcontent, exists_comm]
    simp

/-- A function that sends a form with the pairs of a list, any of which may be null. -/
def pairListFunction : FunctionDecl where
  name := "f"
  marks := [.http "POST" (some "a") none, .form]
  isSuspending := true
  hasDefaultBody := false
  typeParameters := []
  parameters := [⟨"m", .mk "List" false [.mk "Pair" true [.named "String", .named "String"]],
    [.fieldMap], .unknown⟩]
  returnType := .named "Unit"
  location := .unknown

def pairListService : ServiceDecl where
  name := "S"
  kind := .interface
  topLevel := true
  supertypes := []
  typeParameters := []
  properties := []
  functions := [pairListFunction]
  serializableTypes := []
  location := .unknown

def pairListEndpoint : Endpoint where
  name := "f"
  parameters := [⟨"m", .mk "List" false [.mk "Pair" true [.named "String", .named "String"]]⟩]
  method := .post
  url := .template "a" .relative [] []
  headers := []
  content := some (.form [⟨none, "m", .map .pairList⟩])
  returns := .plain (.named "Unit")

theorem kept_pairList :
    pairListService.analyze.service = some ⟨"SClient", "S", [pairListEndpoint]⟩ ∧
      (pairListFunction, pairListEndpoint) ∈ (pairListService.functions.filter fun f =>
        (pairListService.contribution f).isEmpty).zip [pairListEndpoint] := by
  have hkept : (pairListService.functions.filter fun f =>
      (pairListService.contribution f).isEmpty) = [pairListFunction] := by
    decide +kernel
  rw [hkept]
  exact ⟨by decide +kernel, List.mem_cons_self⟩

theorem conforms_pairList {items : List Argument}
    (h : ∀ a ∈ items, a = .null ∨ ∃ k v, a = .list [.string k, .string v]) :
    ∀ p ∈ pairListFunction.parameters,
      p.type.Conforms ((Arguments.ofList [("m", .list items)]).value p.name) := by
  intro p hp
  obtain rfl := List.mem_singleton.mp hp
  refine .collection rfl rfl fun a ha => ?_
  rcases h a ha with rfl | ⟨k, v, rfl⟩
  · exact .null rfl
  · exact .pair rfl rfl (.string rfl k) (.string rfl v)

theorem givenType?_pairList :
    ∀ p ∈ pairListFunction.parameters, ∀ role ∈ p.roles, role.givenType? = none := by
  decide

/-- A list of one pair is sent. -/
theorem encodeContent_conforming_iff_pair :
    pairListService.analyze.service = some ⟨"SClient", "S", [pairListEndpoint]⟩ ∧
      ∃ body, postingClient.encodeContent pairListEndpoint.content
        (.ofList [("m", .list [.list [.string "a", .string "1"]])]) = .ok body := by
  obtain ⟨hs, hkept⟩ := kept_pairList
  refine ⟨hs, (encodeContent_conforming_iff hs hkept givenType?_pairList rfl
    (conforms_pairList (by simp))).mpr ?_⟩
  rintro _ ⟨⟩ b hb -
  obtain rfl := List.mem_singleton.mp hb
  show Argument.null ∉ [Argument.list [.string "a", .string "1"]]
  simp

/-- A list with null among its pairs has the declared type, and the call fails. -/
theorem encodeContent_null_pair :
    let args : Arguments := .ofList [("m", .list [.list [.string "a", .string "1"], .null])]
    pairListService.analyze.service = some ⟨"SClient", "S", [pairListEndpoint]⟩ ∧
      (pairListFunction, pairListEndpoint) ∈ (pairListService.functions.filter fun f =>
        (pairListService.contribution f).isEmpty).zip [pairListEndpoint] ∧
      (∀ p ∈ pairListFunction.parameters, ∀ role ∈ p.roles, role.givenType? = none) ∧
      (∀ p ∈ pairListFunction.parameters, p.type.Conforms (args.value p.name)) ∧
      postingClient.encodeContent pairListEndpoint.content args
        = .error (.argument (.shape "m" "a list of [string, value] pairs" "null")) := by
  refine ⟨kept_pairList.1, kept_pairList.2, givenType?_pairList, conforms_pairList (by simp), ?_⟩
  rfl

end HttpService
