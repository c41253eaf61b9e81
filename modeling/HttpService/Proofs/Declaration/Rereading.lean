import HttpService.Declaration.Codec
import HttpService.Proofs.Endpoint.Rereading

/-!
# Reading a declaration again

Each part of a declaration is kept in its record (`kept`), under the outline that is used where it
stands.  What was read is grammatical (`ServiceDecl.Grammatical.of_ofJson?`), since every type in
it came from a text.
-/

namespace HttpService

open Json

/-! ## Places and kinds -/

theorem Location.kept (l : Location) : Kept ofJson? 1 outline l.toJson l := by
  have hfits (n : UInt32) : n.toNat ≤ Lexeme.maxWhole :=
    Nat.le_of_lt (Nat.lt_of_lt_of_le n.toNat_lt (by decide))
  refine kept_record [("file", some (.string l.file)), ("line", some (.nat l.line.toNat)),
    ("column", some (.nat l.column.toNat))] (by simp)
    (fun _ => ⟨.value rfl (.string _), .value rfl (.nat (hfits _)), .value rfl (.nat (hfits _))⟩)
    fun ms h => ?_
  simp [ofJson?, h.asRecord?, h.withDefault (n := "file") rfl (reads_string _),
    h.withDefault (n := "line") rfl (reads_uInt32 _),
    h.withDefault (n := "column") rfl (reads_uInt32 _)]

theorem DeclKind.kept (k : DeclKind) : Kept ofJson? 0 .whole (.string k.display) k where
  reads := by
    rintro _ ⟨⟩
    cases k <;> rfl
  stored _ := .string _

theorem PropertyDecl.kept (p : PropertyDecl) : Kept ofJson? 2 outline p.toJson p := by
  refine kept_record [("name", some (.string p.name)), ("location", some p.location.toJson)]
    (by simp) (fun _ => ⟨.value rfl (.string _), .value rfl (p.location.kept.stored _)⟩)
    fun ms h => ?_
  simp [ofJson?, h.asRecord?, h.required (n := "name") rfl (reads_string _),
    h.withDefault (n := "location") rfl p.location.kept.reads]

/-! ## Marks and roles -/

namespace FunctionMark

def tag : FunctionMark → String
  | .http .. => "http"
  | .headers _ => "headers"
  | .form => "form_url_encoded"
  | .multipart _ => "multipart"

def fields : FunctionMark → List (String × Option Json)
  | .http method path hasBody =>
    [("method", some (.string method)), ("path", path.map .string), ("has_body", hasBody.map .bool)]
  | .headers values => [("values", some (.array (values.map .string)))]
  | .form => []
  | .multipart subtype => [("subtype", subtype.map .string)]

theorem toJson_eq (m : FunctionMark) :
    m.toJson = .object (present (("kind", some (.string m.tag)) :: m.fields)) := by
  cases m with
  | http _ path hasBody => cases path <;> cases hasBody <;> rfl
  | headers _ => rfl
  | form => rfl
  | multipart subtype => cases subtype <;> rfl

theorem kept (m : FunctionMark) : Kept ofJson? 2 .whole m.toJson m := by
  rw [toJson_eq]
  cases m with
  | http method path hasBody =>
    refine kept_tagged "kind" _ _ (by simp [fields])
      (fun _ => ⟨.value rfl (.string _), .option rfl fun _ _ => .string _,
        .option rfl fun _ _ => .bool _⟩) fun j rest hj h => ?_
    simp [ofJson?, hj, tag, h.asRecord?, h.required (n := "method") rfl (reads_string _),
      h.optional (n := "path") rfl fun s _ => ⟨nofun, reads_string s⟩,
      h.optional (n := "has_body") rfl fun b _ => ⟨nofun, reads_bool b⟩]
  | headers values =>
    refine kept_tagged "kind" _ _ (by simp [fields])
      (fun _ => .value rfl (stored_list fun _ _ _ => .string _)) fun j rest hj h => ?_
    simp [ofJson?, hj, tag, h.asRecord?,
      h.required (n := "values") rfl (reads_list fun s _ => reads_string s)]
  | form =>
    refine kept_tagged "kind" _ _ (by simp [fields]) (fun _ => trivial) fun j rest hj h => ?_
    simp [ofJson?, hj, tag, noFields?]
  | multipart subtype =>
    refine kept_tagged "kind" _ _ (by simp [fields])
      (fun _ => .option rfl fun _ _ => .string _) fun j rest hj h => ?_
    simp [ofJson?, hj, tag, h.asRecord?,
      h.optional (n := "subtype") rfl fun s _ => ⟨nofun, reads_string s⟩]

end FunctionMark

namespace Role

def tag : Role → String
  | .path _ => "path"
  | .url => "url"
  | .query _ => "query"
  | .queryMap => "query_map"
  | .header _ => "header"
  | .headerMap => "header_map"
  | .field _ => "field"
  | .fieldMap => "field_map"
  | .part .. => "part"
  | .partMap _ => "part_map"
  | .body _ => "body"

def fields : Role → List (String × Option Json)
  | .path name | .query name | .field name => [("name", name.map .string)]
  | .url | .queryMap | .headerMap | .fieldMap => []
  | .header name => [("name", some (.string name))]
  | .part name contentType =>
    [("name", name.map .string), ("content_type", contentType.map .string)]
  | .partMap contentType | .body contentType => [("content_type", contentType.map .string)]

theorem toJson_eq (r : Role) :
    r.toJson = .object (present (("kind", some (.string r.tag)) :: r.fields)) := by
  cases r with
  | path name | query name | field name => cases name <;> rfl
  | part name contentType => cases name <;> cases contentType <;> rfl
  | partMap contentType | body contentType => cases contentType <;> rfl
  | _ => rfl

theorem kept (r : Role) : Kept ofJson? 1 .whole r.toJson r := by
  rw [toJson_eq]
  cases r with
  | path name | query name | field name =>
    refine kept_tagged "kind" _ _ (by simp [fields]) (fun _ => .option rfl fun _ _ => .string _)
      fun j rest hj h => ?_
    simp [ofJson?, hj, tag, name?, h.asRecord?,
      h.optional (n := "name") rfl fun s _ => ⟨nofun, reads_string s⟩]
  | url | queryMap | headerMap | fieldMap =>
    refine kept_tagged "kind" _ _ (by simp [fields]) (fun _ => trivial) fun j rest hj h => ?_
    simp [ofJson?, hj, tag, noFields?]
  | header name =>
    refine kept_tagged "kind" _ _ (by simp [fields]) (fun _ => .value rfl (.string _))
      fun j rest hj h => ?_
    simp [ofJson?, hj, tag, h.asRecord?, h.required (n := "name") rfl (reads_string _)]
  | part name contentType =>
    refine kept_tagged "kind" _ _ (by simp [fields])
      (fun _ => ⟨.option rfl fun _ _ => .string _, .option rfl fun _ _ => .string _⟩)
      fun j rest hj h => ?_
    simp [ofJson?, hj, tag, h.asRecord?,
      h.optional (n := "name") rfl fun s _ => ⟨nofun, reads_string s⟩,
      h.optional (n := "content_type") rfl fun s _ => ⟨nofun, reads_string s⟩]
  | partMap contentType | body contentType =>
    refine kept_tagged "kind" _ _ (by simp [fields]) (fun _ => .option rfl fun _ _ => .string _)
      fun j rest hj h => ?_
    simp [ofJson?, hj, tag, contentType?, h.asRecord?,
      h.optional (n := "content_type") rfl fun s _ => ⟨nofun, reads_string s⟩]

end Role

/-! ## Parameters, functions and services -/

theorem ParameterDecl.kept {p : ParameterDecl} (hp : p.type.Grammatical) :
    Kept ofJson? 3 outline p.toJson p := by
  have htype := TypeExpr.kept hp
  refine kept_record [("name", some (.string p.name)), ("type", some p.type.toJson),
    ("annotations", some (.array (p.roles.map Role.toJson))),
    ("location", some p.location.toJson)] (by simp)
    (fun _ => ⟨.value rfl (.string _), .value rfl (htype.stored _),
      .value rfl (stored_list fun r _ _ => r.kept.stored _),
      .value rfl (p.location.kept.stored _)⟩) fun ms h => ?_
  simp [ofJson?, h.asRecord?, h.required (n := "name") rfl (reads_string _),
    h.required (n := "type") rfl htype.reads,
    h.withDefault (n := "annotations") rfl (reads_list fun r _ => r.kept.reads),
    h.withDefault (n := "location") rfl p.location.kept.reads]

namespace FunctionDecl

/-- The types of a function are grammatical. -/
structure Grammatical (f : FunctionDecl) : Prop where
  parameters : ∀ p ∈ f.parameters, p.type.Grammatical
  returnType : f.returnType.Grammatical

def fields (f : FunctionDecl) : List (String × Option Json) :=
  [("name", some (.string f.name)),
    ("annotations", some (.array (f.marks.map FunctionMark.toJson))),
    ("is_suspend", some (.bool f.isSuspending)), ("has_default_body", some (.bool f.hasDefaultBody)),
    ("type_parameters", listValue Json.string f.typeParameters),
    ("parameters", some (.array (f.parameters.map ParameterDecl.toJson))),
    ("return_type", some f.returnType.toJson), ("location", some f.location.toJson)]

theorem toJson_eq (f : FunctionDecl) : f.toJson = .object (present f.fields) := by
  obtain ⟨_, _, _, _, typeParameters, _, _, _⟩ := f
  cases typeParameters <;> rfl

theorem kept {f : FunctionDecl} (hf : f.Grammatical) : Kept ofJson? 5 outline f.toJson f := by
  have hparameters (p) (hp : p ∈ f.parameters) := ParameterDecl.kept (hf.parameters p hp)
  have hreturn := TypeExpr.kept hf.returnType
  rw [toJson_eq]
  refine kept_record f.fields (by simp [fields])
    (fun _ => ⟨.value rfl (.string _), .value rfl (stored_list fun m _ _ => m.kept.stored _),
      .value rfl (.bool _), .value rfl (.bool _), .list rfl fun _ _ _ => .string _,
      .value rfl (stored_list fun p hp _ => (hparameters p hp).stored _),
      .value rfl (hreturn.stored _), .value rfl (f.location.kept.stored _)⟩) fun ms h => ?_
  simp [ofJson?, h.asRecord?, h.required (n := "name") rfl (reads_string _),
    h.withDefault (n := "annotations") rfl (reads_list fun m _ => m.kept.reads),
    h.withDefault (n := "is_suspend") rfl (reads_bool _),
    h.withDefault (n := "has_default_body") rfl (reads_bool _),
    h.withDefault_listValue (n := "type_parameters") rfl fun s _ => reads_string s,
    h.withDefault (n := "parameters") rfl (reads_list fun p hp => (hparameters p hp).reads),
    h.withDefault (n := "return_type") rfl hreturn.reads,
    h.withDefault (n := "location") rfl f.location.kept.reads]

end FunctionDecl

namespace ServiceDecl

def Grammatical (s : ServiceDecl) : Prop :=
  ∀ f ∈ s.functions, f.Grammatical

def fields (s : ServiceDecl) : List (String × Option Json) :=
  [("name", some (.string s.name)), ("kind", some (.string s.kind.display)),
    ("top_level", some (.bool s.topLevel)), ("supertypes", listValue Json.string s.supertypes),
    ("type_parameters", listValue Json.string s.typeParameters),
    ("properties", listValue PropertyDecl.toJson s.properties),
    ("functions", some (.array (s.functions.map FunctionDecl.toJson))),
    ("serializable_types", listValue Json.string s.serializableTypes),
    ("location", some s.location.toJson)]

theorem toJson_eq (s : ServiceDecl) : s.toJson = .object (present s.fields) := by
  obtain ⟨_, _, _, supertypes, typeParameters, properties, _, serializableTypes, _⟩ := s
  cases supertypes <;> cases typeParameters <;> cases properties <;> cases serializableTypes <;> rfl

theorem kept {s : ServiceDecl} (hs : s.Grammatical) : Kept ofJson? 7 outline s.toJson s := by
  have hfunctions (f) (hf : f ∈ s.functions) := FunctionDecl.kept (hs f hf)
  rw [toJson_eq]
  refine kept_record s.fields (by simp [fields])
    (fun _ => ⟨.value rfl (.string _), .value rfl (s.kind.kept.stored _), .value rfl (.bool _),
      .list rfl fun _ _ _ => .string _, .list rfl fun _ _ _ => .string _,
      .list rfl fun p _ _ => p.kept.stored _,
      .value rfl (stored_list fun f hf _ => (hfunctions f hf).stored _),
      .list rfl fun _ _ _ => .string _, .value rfl (s.location.kept.stored _)⟩) fun ms h => ?_
  simp [ofJson?, h.asRecord?, h.required (n := "name") rfl (reads_string _),
    h.withDefault (n := "kind") rfl s.kind.kept.reads,
    h.withDefault (n := "top_level") rfl (reads_bool _),
    h.withDefault_listValue (n := "supertypes") rfl fun s _ => reads_string s,
    h.withDefault_listValue (n := "type_parameters") rfl fun s _ => reads_string s,
    h.withDefault_listValue (n := "properties") rfl fun p _ => p.kept.reads,
    h.withDefault (n := "functions") rfl (reads_list fun f hf => (hfunctions f hf).reads),
    h.withDefault_listValue (n := "serializable_types") rfl fun s _ => reads_string s,
    h.withDefault (n := "location") rfl s.location.kept.reads]

end ServiceDecl

/-! ## What was read is grammatical -/

theorem TypeExpr.Grammatical.of_ofJson? {j : Json} {t : TypeExpr} (h : TypeExpr.ofJson? j = some t) :
    t.Grammatical := by
  obtain ⟨s, -, hs⟩ := Option.bind_eq_some_iff.mp h
  exact .of_parse? hs

theorem ParameterDecl.grammatical_of_ofJson? {j : Json} {p : ParameterDecl}
    (h : ofJson? j = some p) : p.type.Grammatical := by
  simp only [ofJson?, Option.bind_eq_bind, Option.bind_eq_some_iff] at h
  obtain ⟨fields, -, name, -, type, htype, roles, -, location, -, ⟨⟩⟩ := h
  exact of_required (fun _ _ => .of_ofJson?) htype

theorem FunctionDecl.Grammatical.of_ofJson? {j : Json} {f : FunctionDecl}
    (h : FunctionDecl.ofJson? j = some f) : f.Grammatical := by
  simp only [FunctionDecl.ofJson?, Option.bind_eq_bind, Option.bind_eq_some_iff] at h
  obtain ⟨fields, -, name, -, marks, -, suspends, -, body, -, typeParameters, -, parameters,
    hparameters, returnType, hreturn, location, -, ⟨⟩⟩ := h
  have hlist (j ps) (h : asList? ParameterDecl.ofJson? j = some ps) :
      ∀ p ∈ ps, p.type.Grammatical :=
    of_asList? (fun _ _ => ParameterDecl.grammatical_of_ofJson?) h
  exact {
    parameters := of_withDefault hlist (List.forall_mem_nil _) hparameters
    returnType := of_withDefault (fun _ _ => .of_ofJson?) TypeExpr.grammatical_unit hreturn }

theorem ServiceDecl.Grammatical.of_ofJson? {j : Json} {s : ServiceDecl}
    (h : ServiceDecl.ofJson? j = some s) : s.Grammatical := by
  simp only [ServiceDecl.ofJson?, Option.bind_eq_bind, Option.bind_eq_some_iff] at h
  obtain ⟨fields, -, name, -, kind, -, topLevel, -, supertypes, -, typeParameters, -, properties, -,
    functions, hfunctions, serializable, -, location, -, ⟨⟩⟩ := h
  have hlist (j fs) (h : asList? FunctionDecl.ofJson? j = some fs) : ∀ f ∈ fs, f.Grammatical :=
    of_asList? (fun _ _ => .of_ofJson?) h
  exact of_withDefault hlist (List.forall_mem_nil _) hfunctions

end HttpService
