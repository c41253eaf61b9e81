import HttpService.Endpoint.Codec
import HttpService.Proofs.Json.Restoring
import HttpService.Proofs.TypeExpr.Rereading

/-!
# Reading a stored service again

Each part of a service is kept in its record (`kept`).  Where some fields may be left out, the
record is first written as a list of all of its fields (`toJson_eq`).

The types of a service are stored as texts, so they have to be grammatical
(`Service.Grammatical`).
-/

namespace HttpService

open Json

/-! ## Names and types -/

theorem TypeExpr.kept {t : TypeExpr} (h : t.Grammatical) : Kept ofJson? 0 .whole t.toJson t where
  reads := by
    rintro _ ⟨⟩
    exact parse?_display h
  stored _ := .string _

theorem TypeExpr.MapKind.kept (k : TypeExpr.MapKind) : Kept ofJson? 0 .whole k.toJson k where
  reads := by
    rintro _ ⟨⟩
    cases k <;> rfl
  stored _ := .string _

theorem Template.Kind.kept (k : Template.Kind) : Kept ofJson? 0 .whole (.string k.tag) k where
  reads := by
    rintro _ ⟨⟩
    cases k <;> rfl
  stored _ := .string _

/-! ## Methods -/

theorem Method.kept (m : Method) : Kept ofJson? 1 .whole m.toJson m := by
  cases m with
  | custom token hasBody =>
    refine kept_tagged "kind" "custom" [("token", some (.string token)),
      ("has_body", some (.bool hasBody))] (by simp)
      (fun _ => ⟨.value rfl (.string _), .value rfl (.bool _)⟩) fun j rest hj h => ?_
    simp [ofJson?, hj, h.asRecord?, h.required (n := "token") rfl (reads_string token),
      h.required (n := "has_body") rfl (reads_bool hasBody)]
  | _ =>
    refine kept_tagged "kind" _ [] (by simp) (fun _ => trivial) fun j rest hj h => ?_
    simp only [ofJson?, hj, Option.bind_eq_bind, Option.bind_some]
    rfl

/-! ## Bindings -/

theorem PathBinding.kept (b : PathBinding) : Kept ofJson? 1 .whole b.toJson b := by
  refine kept_record [("placeholder", some (.string b.placeholder)),
    ("parameter", some (.string b.parameter))] (by simp)
    (fun _ => ⟨.value rfl (.string _), .value rfl (.string _)⟩) fun ms h => ?_
  simp [ofJson?, h.asRecord?, h.required (n := "placeholder") rfl (reads_string _),
    h.required (n := "parameter") rfl (reads_string _)]

theorem ValueMode.kept (m : ValueMode) : Kept ofJson? 1 .whole m.toJson m := by
  cases m with
  | map kind =>
    refine kept_adjacent isVoid "mode" "map_type" "map" (some kind.toJson) (by simp)
      (by rintro _ _ ⟨⟩; exact kind.kept.stored _) fun j v' hj hv => ?_
    cases hv with
    | some hkind => simp [ofJson?, hj, kind.kept.reads _ hkind]
  | _ =>
    refine kept_adjacent isVoid "mode" "map_type" _ none (by simp) nofun fun j v' hj hv => ?_
    cases hv
    simp [ofJson?, hj, noPayload?]

namespace ValueBinding

def fields (b : ValueBinding) : List (String × Option Json) :=
  [("name", b.name.map .string), ("parameter", some (.string b.parameter)),
    ("mode", some b.mode.toJson)]

theorem toJson_eq (b : ValueBinding) : b.toJson = .object (present b.fields) := by
  obtain ⟨name, _, _⟩ := b
  cases name <;> rfl

theorem kept (b : ValueBinding) : Kept ofJson? 2 .whole b.toJson b := by
  rw [toJson_eq]
  refine kept_record b.fields (by simp [fields])
    (fun _ => ⟨.option rfl fun _ _ => .string _, .value rfl (.string _),
      .value rfl (b.mode.kept.stored _)⟩) fun ms h => ?_
  simp [ofJson?, h.asRecord?, h.optional (n := "name") rfl fun s _ => ⟨nofun, reads_string s⟩,
    h.required (n := "parameter") rfl (reads_string _),
    h.required (n := "mode") rfl b.mode.kept.reads]

end ValueBinding

namespace PartBinding

def fields (b : PartBinding) : List (String × Option Json) :=
  [("name", b.name.map .string), ("parameter", some (.string b.parameter)),
    ("content_type", some (.string b.contentType)), ("mode", some b.mode.toJson),
    ("raw", some (.bool b.raw))]

theorem toJson_eq (b : PartBinding) : b.toJson = .object (present b.fields) := by
  obtain ⟨name, _, _, _, _⟩ := b
  cases name <;> rfl

theorem kept (b : PartBinding) : Kept ofJson? 2 .whole b.toJson b := by
  rw [toJson_eq]
  refine kept_record b.fields (by simp [fields])
    (fun _ => ⟨.option rfl fun _ _ => .string _, .value rfl (.string _), .value rfl (.string _),
      .value rfl (b.mode.kept.stored _), .value rfl (.bool _)⟩) fun ms h => ?_
  simp [ofJson?, h.asRecord?, h.optional (n := "name") rfl fun s _ => ⟨nofun, reads_string s⟩,
    h.required (n := "parameter") rfl (reads_string _),
    h.required (n := "content_type") rfl (reads_string _),
    h.required (n := "mode") rfl b.mode.kept.reads, h.withDefault (n := "raw") rfl (reads_bool _)]

end PartBinding

theorem HeaderBinding.kept (b : HeaderBinding) : Kept ofJson? 1 .whole b.toJson b := by
  cases b with
  | static name value =>
    refine kept_tagged "kind" "static" [("name", some (.string name)),
      ("value", some (.string value))] (by simp)
      (fun _ => ⟨.value rfl (.string _), .value rfl (.string _)⟩) fun j rest hj h => ?_
    simp [ofJson?, hj, h.asRecord?, h.required (n := "name") rfl (reads_string _),
      h.required (n := "value") rfl (reads_string _)]
  | single name parameter iterable =>
    refine kept_tagged "kind" "single" [("name", some (.string name)),
      ("parameter", some (.string parameter)), ("iterable", some (.bool iterable))] (by simp)
      (fun _ => ⟨.value rfl (.string _), .value rfl (.string _), .value rfl (.bool _)⟩)
      fun j rest hj h => ?_
    simp [ofJson?, hj, h.asRecord?, h.required (n := "name") rfl (reads_string _),
      h.required (n := "parameter") rfl (reads_string _),
      h.required (n := "iterable") rfl (reads_bool _)]
  | map parameter kind =>
    refine kept_tagged "kind" "map" [("parameter", some (.string parameter)),
      ("map_type", some kind.toJson)] (by simp)
      (fun _ => ⟨.value rfl (.string _), .value rfl (kind.kept.stored _)⟩) fun j rest hj h => ?_
    simp [ofJson?, hj, h.asRecord?, h.required (n := "parameter") rfl (reads_string _),
      h.required (n := "map_type") rfl kind.kept.reads]

/-! ## Sources and contents -/

namespace UrlSource

def tag : UrlSource → String
  | .template .. => "template"
  | .dynamic .. => "dynamic"

def fields : UrlSource → List (String × Option Json)
  | .template text kind path queries =>
    [("template", some (.string text)), ("kind", some (.string kind.tag)),
      ("path_params", listValue PathBinding.toJson path),
      ("queries", listValue ValueBinding.toJson queries)]
  | .dynamic parameter queries =>
    [("parameter", some (.string parameter)), ("queries", listValue ValueBinding.toJson queries)]

theorem toJson_eq (u : UrlSource) :
    u.toJson = .object (present (("source", some (.string u.tag)) :: u.fields)) := by
  cases u with
  | template _ _ path queries => cases path <;> cases queries <;> rfl
  | dynamic _ queries => cases queries <;> rfl

theorem kept (u : UrlSource) : Kept ofJson? 4 .whole u.toJson u := by
  rw [toJson_eq]
  cases u with
  | template text kind path queries =>
    refine kept_tagged "source" _ _ (by simp [fields])
      (fun _ => ⟨.value rfl (.string _), .value rfl (.string _),
        .list rfl fun b _ _ => b.kept.stored _, .list rfl fun b _ _ => b.kept.stored _⟩)
      fun j rest hj h => ?_
    simp [ofJson?, hj, tag, h.asRecord?, h.required (n := "template") rfl (reads_string _),
      h.required (n := "kind") rfl kind.kept.reads,
      h.withDefault_listValue (n := "path_params") rfl fun b _ => b.kept.reads,
      h.withDefault_listValue (n := "queries") rfl fun b _ => b.kept.reads]
  | dynamic parameter queries =>
    refine kept_tagged "source" _ _ (by simp [fields])
      (fun _ => ⟨.value rfl (.string _), .list rfl fun b _ _ => b.kept.stored _⟩)
      fun j rest hj h => ?_
    simp [ofJson?, hj, tag, h.asRecord?, h.required (n := "parameter") rfl (reads_string _),
      h.withDefault_listValue (n := "queries") rfl fun b _ => b.kept.reads]

end UrlSource

theorem ContentBinding.kept (c : ContentBinding) : Kept ofJson? 4 .whole c.toJson c := by
  cases c with
  | body b =>
    refine kept_tagged "kind" "body" [("parameter", some (.string b.parameter)),
      ("content_type", some (.string b.contentType)), ("raw", some (.bool b.raw)),
      ("nullable", some (.bool b.nullable))] (by simp)
      (fun _ => ⟨.value rfl (.string _), .value rfl (.string _), .value rfl (.bool _),
        .value rfl (.bool _)⟩) fun j rest hj h => ?_
    simp [ofJson?, BodyBinding.ofJson?, hj, h.asRecord?,
      h.required (n := "parameter") rfl (reads_string _),
      h.required (n := "content_type") rfl (reads_string _),
      h.withDefault (n := "raw") rfl (reads_bool _),
      h.withDefault (n := "nullable") rfl (reads_bool _)]
  | form fields =>
    refine kept_tagged "kind" "form_url_encoded"
      [("fields", some (.array (fields.map ValueBinding.toJson)))] (by simp)
      (fun _ => .value rfl (stored_list fun b _ _ => b.kept.stored _)) fun j rest hj h => ?_
    simp [ofJson?, hj, h.asRecord?,
      h.required (n := "fields") rfl (reads_list fun b _ => b.kept.reads)]
  | multipart subtype parts =>
    refine kept_tagged "kind" "multipart" [("subtype", some (.string subtype)),
      ("parts", some (.array (parts.map PartBinding.toJson)))] (by simp)
      (fun _ => ⟨.value rfl (.string _),
        .value rfl (stored_list fun b _ _ => b.kept.stored _)⟩) fun j rest hj h => ?_
    simp [ofJson?, hj, h.asRecord?, h.required (n := "subtype") rfl (reads_string _),
      h.required (n := "parts") rfl (reads_list fun b _ => b.kept.reads)]

namespace ReturnShape

/-- The type of a shape is grammatical, where it has one. -/
def Grammatical : ReturnShape → Prop
  | .plain t => t.Grammatical
  | .wrapped t => t.Grammatical
  | .discarded => True

theorem kept {r : ReturnShape} (h : r.Grammatical) : Kept ofJson? 1 .whole r.toJson r := by
  cases r with
  | discarded =>
    refine kept_adjacent isNull "shape" "type" "wrapped_wildcard" none (by simp) nofun
      fun j v' hj hv => ?_
    cases hv
    simp [ofJson?, hj, noPayload?]
  | plain t | wrapped t =>
    have htype := TypeExpr.kept (t := t) h
    refine kept_adjacent isNull "shape" "type" _ (some t.toJson) (by simp)
      (by rintro _ _ ⟨⟩; exact htype.stored _) fun j v' hj hv => ?_
    cases hv with
    | some ht => simp [ofJson?, hj, htype.reads _ ht]

end ReturnShape

/-! ## Endpoints and services -/

theorem Parameter.kept {p : Parameter} (h : p.type.Grammatical) :
    Kept ofJson? 1 .whole p.toJson p := by
  have htype := TypeExpr.kept h
  refine kept_record [("name", some (.string p.name)), ("type", some p.type.toJson)] (by simp)
    (fun _ => ⟨.value rfl (.string _), .value rfl (htype.stored _)⟩) fun ms h => ?_
  simp [ofJson?, h.asRecord?, h.required (n := "name") rfl (reads_string _),
    h.required (n := "type") rfl htype.reads]

namespace Endpoint

structure Grammatical (e : Endpoint) : Prop where
  parameters : ∀ p ∈ e.parameters, p.type.Grammatical
  returns : e.returns.Grammatical

def fields (e : Endpoint) : List (String × Option Json) :=
  [("name", some (.string e.name)),
    ("parameters", some (.array (e.parameters.map Parameter.toJson))),
    ("method", some e.method.toJson), ("url", some e.url.toJson),
    ("headers", listValue HeaderBinding.toJson e.headers),
    ("content", e.content.map ContentBinding.toJson), ("returns", some e.returns.toJson)]

theorem toJson_eq (e : Endpoint) : e.toJson = .object (present e.fields) := by
  obtain ⟨_, _, _, _, headers, content, _⟩ := e
  cases headers <;> cases content <;> rfl

theorem kept {e : Endpoint} (he : e.Grammatical) : Kept ofJson? 5 .whole e.toJson e := by
  have hparameters (p) (hp : p ∈ e.parameters) := Parameter.kept (he.parameters p hp)
  have hreturns := ReturnShape.kept he.returns
  have hcontent (c : ContentBinding) : c.toJson ≠ .null := by
    cases c <;> nofun
  rw [toJson_eq]
  refine kept_record e.fields (by simp [fields])
    (fun _ => ⟨.value rfl (.string _),
      .value rfl (stored_list fun p hp _ => (hparameters p hp).stored _),
      .value rfl (e.method.kept.stored _), .value rfl (e.url.kept.stored _),
      .list rfl fun b _ _ => b.kept.stored _, .option rfl fun c _ => c.kept.stored _,
      .value rfl (hreturns.stored _)⟩) fun ms h => ?_
  simp [ofJson?, h.asRecord?, h.required (n := "name") rfl (reads_string _),
    h.required (n := "parameters") rfl (reads_list fun p hp => (hparameters p hp).reads),
    h.required (n := "method") rfl e.method.kept.reads,
    h.required (n := "url") rfl e.url.kept.reads,
    h.withDefault_listValue (n := "headers") rfl fun b _ => b.kept.reads,
    h.optional (n := "content") rfl fun c _ => ⟨hcontent c, c.kept.reads⟩,
    h.required (n := "returns") rfl hreturns.reads]

end Endpoint

namespace Service

def Grammatical (s : Service) : Prop :=
  ∀ e ∈ s.endpoints, e.Grammatical

theorem kept {s : Service} (hs : s.Grammatical) : Kept ofJson? 7 .whole s.toJson s := by
  refine kept_record [("name", some (.string s.name)), ("implements", some (.string s.implements)),
    ("functions", some (.array (s.endpoints.map Endpoint.toJson)))] (by simp)
    (fun _ => ⟨.value rfl (.string _), .value rfl (.string _),
      .value rfl (stored_list fun e he _ => (Endpoint.kept (hs e he)).stored _)⟩) fun ms h => ?_
  simp [ofJson?, h.asRecord?, h.required (n := "name") rfl (reads_string _),
    h.required (n := "implements") rfl (reads_string _),
    h.required (n := "functions") rfl (reads_list fun e he => (Endpoint.kept (hs e he)).reads)]

end Service

end HttpService
