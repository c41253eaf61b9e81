import HttpService.Proofs.Validation.Bindings
import HttpService.Proofs.Validation.Endpoints

/-!
# What a valid function says of its request head

The texts of an endpoint that go into a request head were checked when its function was:
`HeadChecked` lists them, and `headChecked_of_mem_service` says that it holds of every endpoint of
an analyzed service.  Marks are read one after another; what one more mark adds was checked
(`Marks.Checked.add`), and so is what all of them say.
-/

namespace HttpService

/-! ## Methods and marks -/

theorem checkToken_of_standard? {name : String} {m : Method} (h : Method.standard? name = some m) :
    Lexical.checkToken m.token = .ok () := by
  have hall : ∀ e ∈ Method.standardNames, Lexical.checkToken e.2.token = .ok () := by decide +kernel
  obtain ⟨front, back, he, -⟩ := List.lookup_eq_some_iff.mp h
  exact hall (name, m) (by rw [he]; simp)

theorem checkToken_of_method? {name : String} {hasBody : Option Bool} {m : Method}
    (h : Marks.method? name hasBody = .ok m) : Lexical.checkToken m.token = .ok () := by
  unfold Marks.method? at h
  split at h
  · next hstandard =>
    obtain rfl := Except.ok.inj h
    exact checkToken_of_standard? hstandard
  · obtain ⟨⟨⟩, hname, rfl⟩ := (map_ok_iff _ _ _).mp h
    exact hname

/-- The method and the multipart subtype that marks give are tokens. -/
structure Marks.Checked (m : Marks) : Prop where
  method : ∀ x ∈ m.method, Lexical.checkToken x.token = .ok ()
  subtype : ∀ t ∈ m.multipart, Lexical.checkToken t = .ok ()

namespace Marks

theorem checkToken_of_readMethod {name : String} {hasBody : Option Bool} {m : Method}
    (h : m ∈ (readMethod name hasBody).1) : Lexical.checkToken m.token = .ok () := by
  unfold readMethod at h
  split at h
  · next x hx =>
    obtain rfl := Option.some.inj h
    exact checkToken_of_method? hx
  · cases h

theorem subtypeViolations_eq_nil_iff {subtype : String} :
    subtypeViolations subtype = [] ↔ Lexical.checkToken subtype = .ok () := by
  unfold subtypeViolations
  split
  · next h => simp [h]
  · next h => simp [h]

theorem Checked.add {m : Marks} (hm : m.Checked) {mark : FunctionMark}
    (h : (m.add mark).2 = []) : (m.add mark).1.Checked := by
  cases mark with
  | http method path hasBody =>
    unfold Marks.add
    dsimp only
    split
    · exact ⟨fun _ hx => checkToken_of_readMethod hx, hm.subtype⟩
    · exact ⟨hm.method, hm.subtype⟩
  | headers values => exact ⟨hm.method, hm.subtype⟩
  | form => exact ⟨hm.method, hm.subtype⟩
  | multipart subtype =>
    unfold Marks.add at h ⊢
    dsimp only at h ⊢
    split
    · exact hm
    · next hnone =>
      rw [if_neg hnone] at h
      refine ⟨hm.method, ?_⟩
      rintro _ ⟨⟩
      exact subtypeViolations_eq_nil_iff.mp h

theorem Checked.addAll {m : Marks} (hm : m.Checked) {marks : List FunctionMark}
    (h : (m.addAll marks).2 = []) : (m.addAll marks).1.Checked := by
  induction marks generalizing m with
  | nil => exact hm
  | cons mark marks ih =>
    rw [Marks.addAll] at h ⊢
    rw [List.append_eq_nil_iff] at h
    exact ih (hm.add h.1) h.2

theorem checked_none : Marks.none.Checked :=
  ⟨nofun, nofun⟩

end Marks

/-! ## Endpoints -/

/-- A header whose written parts are legal. -/
def HeaderBinding.Checked : HeaderBinding → Prop
  | .static name value =>
    Lexical.checkHeaderName name = .ok () ∧ Lexical.checkHeaderValue value = .ok ()
  | .single name _ _ => Lexical.checkHeaderName name = .ok ()
  | .map .. => True

/-- A content whose media types were accepted. -/
def ContentBinding.Checked : ContentBinding → Prop
  | .body b => Lexical.checkMediaType b.contentType = .ok ()
  | .form _ => True
  | .multipart subtype parts =>
    Lexical.checkToken subtype = .ok () ∧
      ∀ b ∈ parts, Lexical.checkMediaType b.contentType = .ok ()

structure Endpoint.HeadChecked (e : Endpoint) : Prop where
  method : Lexical.checkToken e.method.token = .ok ()
  headers : ∀ b ∈ e.headers, b.Checked
  content : ∀ b ∈ e.content, b.Checked

namespace FunctionDecl

theorem checked_of_staticHeader {text : String} {b : HeaderBinding}
    (hb : (staticHeader text).1 = some b) (h : (staticHeader text).2 = []) : b.Checked := by
  unfold staticHeader at hb h
  split at h
  · cases h
  · next name value hcut =>
    rw [hcut] at hb
    obtain rfl := Option.some.inj hb
    rw [List.append_eq_nil_iff] at h
    refine ⟨(headerNameViolations_eq_nil_iff.mp h.1).1, ?_⟩
    have hvalue := h.2
    split at hvalue
    · next hok => exact hok
    · cases hvalue

theorem checked_of_mem_staticHeaders {texts : List String} {b : HeaderBinding}
    (h : (staticHeaders texts).2 = []) (hb : b ∈ (staticHeaders texts).1) : b.Checked := by
  simp only [staticHeaders, List.flatMap_eq_nil_iff, List.mem_map, forall_exists_index, and_imp,
    forall_apply_eq_imp_iff₂, List.mem_filterMap] at h hb
  obtain ⟨_, ⟨text, htext, rfl⟩, hb⟩ := hb
  exact checked_of_staticHeader hb (h text htext)

variable {serializable : List String} {f : FunctionDecl}

theorem checked_of_mem_headerBindings {b : HeaderBinding}
    (hb : b ∈ headerBindings (f.bound serializable)) : b.Checked := by
  obtain ⟨p, hp⟩ := mem_headerBindings_iff.mp hb
  obtain ⟨role, hlower⟩ := exists_lower_of_mem_bound hp
  cases b with
  | static name value =>
    cases role <;> simp only [ParameterDecl.lower, Prod.mk.injEq, reduceCtorEq, false_and,
      Binding.header.injEq] at hlower
  | single name parameter iterable => exact ParameterDecl.checkHeaderName_of_lower hlower
  | map parameter kind => trivial

theorem checked_of_mem_partBindings {b : PartBinding}
    (hb : b ∈ partBindings (f.bound serializable)) :
    Lexical.checkMediaType b.contentType = .ok () := by
  obtain ⟨p, hp⟩ := mem_partBindings_iff.mp hb
  obtain ⟨role, hlower⟩ := exists_lower_of_mem_bound hp
  exact ParameterDecl.checkMediaType_of_lower_part hlower

theorem checked_of_mem_bodyBindings {b : BodyBinding}
    (hb : b ∈ bodyBindings (f.bound serializable)) :
    Lexical.checkMediaType b.contentType = .ok () := by
  obtain ⟨p, hp⟩ := mem_bodyBindings_iff.mp hb
  obtain ⟨role, hlower⟩ := exists_lower_of_mem_bound hp
  exact ParameterDecl.checkMediaType_of_lower_body hlower

theorem checked_of_content? {marks : Marks} (hmarks : marks.Checked) {c : ContentBinding}
    (h : content? marks (f.bound serializable) = some c) : c.Checked := by
  unfold content? at h
  split at h
  · next b bs hbodies =>
    obtain rfl := Option.some.inj h
    exact checked_of_mem_bodyBindings (by rw [hbodies]; exact List.mem_cons_self)
  · split at h
    · obtain rfl := Option.some.inj h
      trivial
    · obtain ⟨subtype, hsubtype, rfl⟩ := Option.map_eq_some_iff.mp h
      exact ⟨hmarks.subtype subtype hsubtype, fun b hb => checked_of_mem_partBindings hb⟩

/-- **A function that becomes an endpoint was checked.** -/
theorem headChecked_of_endpoint? {e : Endpoint} (h : f.endpoint? serializable = some e) :
    e.HeadChecked := by
  obtain ⟨hnil, method, url, hmethod, -, rfl⟩ := endpoint?_eq_some_iff.mp h
  obtain ⟨-, hmarks, hstatic, -⟩ := diagnostics_eq_nil_iff.mp hnil
  rw [readMarks, List.append_eq_nil_iff] at hmarks
  have hchecked := Marks.checked_none.addAll hmarks.1
  refine ⟨hchecked.method method hmethod, ?_, fun c hc => checked_of_content? hchecked hc⟩
  intro b hb
  rcases List.mem_append.mp hb with hb | hb
  · exact checked_of_mem_staticHeaders hstatic hb
  · exact checked_of_mem_headerBindings hb

end FunctionDecl

theorem ServiceDecl.headChecked_of_mem_service {s : ServiceDecl} {service : Service}
    (hs : s.analyze.service = some service) {e : Endpoint} (he : e ∈ service.endpoints) :
    e.HeadChecked := by
  obtain ⟨f, -, hf⟩ := exists_of_mem_service hs he
  exact FunctionDecl.headChecked_of_endpoint? hf

end HttpService
