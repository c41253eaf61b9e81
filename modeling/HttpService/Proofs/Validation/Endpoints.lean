import HttpService.Proofs.Success
import HttpService.Proofs.Validation.OnePass

/-!
# What becomes an endpoint

A function becomes an endpoint exactly when no step of its check finds anything wrong
(`endpoint?_eq_some_iff`), and then every step has found nothing (`diagnostics_eq_nil_iff`).  The
steps that look at several parameters at once are taken apart here: where a URL comes from
(`checkUrl_eq_some_iff`), and which content a function has (`permitsBody_of_content?` and the
lemmas after it).
-/

namespace HttpService

namespace FunctionDecl

variable {serializable : List String} {f : FunctionDecl}

/-- The endpoint of a function, from the method and the source of the URL that its steps found. -/
def endpoint (serializable : List String) (f : FunctionDecl) (method : Method)
    (url : UrlSource) : Endpoint where
  name := f.name
  parameters := f.parameters.map fun p => ⟨p.name, p.type⟩
  method := method
  url := url
  headers := (staticHeaders f.readMarks.1.headers).1 ++ headerBindings (f.bound serializable)
  content := content? f.readMarks.1 (f.bound serializable)
  returns := (f.returnType.checkReturn serializable method).1

/-- **A function becomes an endpoint exactly when nothing is wrong with it**, and the marks give a
method and a source of the URL. -/
theorem endpoint?_eq_some_iff {e : Endpoint} :
    f.endpoint? serializable = some e ↔
      f.diagnostics serializable = [] ∧ ∃ method url, f.readMarks.1.method = some method ∧
        (f.urlStep f.readMarks.1 (f.bound serializable)).1 = some url ∧
        f.endpoint serializable method url = e := by
  unfold endpoint?
  dsimp only
  split
  · next hnil =>
    simp only [hnil, Option.bind_eq_bind, Option.bind_eq_some_iff, Option.pure_def,
      Option.some.injEq, true_and]
    constructor
    · rintro ⟨method, hmethod, url, hurl, rfl⟩
      exact ⟨method, url, hmethod, hurl, rfl⟩
    · rintro ⟨method, url, hmethod, hurl, rfl⟩
      exact ⟨method, hmethod, url, hurl, rfl⟩
  · next hne => simp [hne]

@[simp] theorem here_eq_nil_iff {vs : List Violation} : f.here vs = [] ↔ vs = [] :=
  List.map_eq_nil_iff

/-- **Nothing is wrong with a function exactly when no step finds anything.** -/
theorem diagnostics_eq_nil_iff :
    f.diagnostics serializable = [] ↔
      f.formViolations = [] ∧ f.readMarks.2 = [] ∧
        (staticHeaders f.readMarks.1.headers).2 = [] ∧
        f.parameterDiagnostics serializable = [] ∧
        (f.urlStep f.readMarks.1 (f.bound serializable)).2 = [] ∧
        orphanDiagnostics f.readMarks.1 (f.bound serializable) = [] ∧
        f.contentViolations f.readMarks.1 (f.bound serializable) = [] ∧
        (f.returnType.checkReturn serializable (f.readMarks.1.method.getD .get)).2 = [] := by
  simp only [diagnostics, List.append_eq_nil_iff, here_eq_nil_iff, and_assoc]

/-! ## The source of the URL -/

/-- **Where a URL comes from when nothing is wrong with it**: from a path, with the path parameters
for its placeholders, or from the one parameter that is the URL, and then there are no path
parameters. -/
theorem checkUrl_eq_some_iff {path : Option String} {bound : List Bound} {url : UrlSource} :
    f.checkUrl path bound = (some url, []) ↔
      (∃ template, path = some template ∧ urlParameters bound = [] ∧
        f.templateDiagnostics template (pathBindings bound) = [] ∧
        url = .template template (Template.classify template)
          ((pathBindings bound).map fun x => ⟨x.2, x.1.name⟩) (queryBindings bound)) ∨
      ∃ p, path = none ∧ urlParameters bound = [p] ∧ pathBindings bound = [] ∧
        url = .dynamic p.name (queryBindings bound) := by
  unfold checkUrl
  cases path with
  | none =>
    cases urlParameters bound with
    | nil => simp
    | cons p rest =>
      simp only [List.head?_cons, Prod.mk.injEq, Option.some.injEq, List.append_eq_nil_iff,
        here_eq_nil_iff, ite_eq_right_iff, reduceCtorEq, imp_false, List.map_eq_nil_iff, false_and,
        exists_false, List.cons.injEq, true_and, false_or, List.length_cons]
      constructor
      · rintro ⟨rfl, hone, hpaths⟩
        exact ⟨p, ⟨rfl, List.length_eq_zero_iff.mp (by omega)⟩, hpaths, rfl⟩
      · rintro ⟨_, ⟨rfl, rfl⟩, hpaths, rfl⟩
        exact ⟨rfl, by simp, hpaths⟩
  | some template =>
    cases urlParameters bound with
    | nil =>
      simp only [List.head?_nil, Prod.mk.injEq, Option.some.injEq, List.append_eq_nil_iff,
        exists_eq_left', reduceCtorEq, false_and, exists_false, or_false, true_and]
      constructor
      · rintro ⟨rfl, -, htemplate⟩
        exact ⟨htemplate, rfl⟩
      · rintro ⟨htemplate, rfl⟩
        exact ⟨rfl, rfl, htemplate⟩
    | cons p rest => simp

/-! ## Content -/

variable {marks : Marks} {bound : List Bound}

theorem permitsBody_of_content? {content : ContentBinding} {method : Method}
    (h : f.contentViolations marks bound = []) (hmethod : marks.method = some method)
    (hcontent : content? marks bound = some content) : method.permitsBody = true := by
  by_contra hpermits
  simp only [contentViolations, List.append_eq_nil_iff, hmethod, hpermits, if_false,
    ite_eq_right_iff, reduceCtorEq, imp_false, Bool.not_eq_true] at h
  obtain ⟨-, ⟨hbodies, hform⟩, hparts⟩ := h
  have hbodies : bodyBindings bound = [] := by simpa using hbodies
  have hparts : marks.multipart = none := by simpa using hparts
  simp [content?, hbodies, hform, hparts] at hcontent

theorem fields_ne_nil_of_content? {fields : List ValueBinding}
    (h : f.contentViolations marks bound = [])
    (hcontent : content? marks bound = some (.form fields)) :
    fields = fieldBindings bound ∧ fields ≠ [] := by
  unfold content? at hcontent
  split at hcontent
  · cases hcontent
  · split at hcontent
    · next hform =>
      cases hcontent
      refine ⟨rfl, fun hnil => ?_⟩
      simp [contentViolations, hform, hnil] at h
    · obtain ⟨_, -, he⟩ := Option.map_eq_some_iff.mp hcontent
      cases he

theorem parts_ne_nil_of_content? {subtype : String} {parts : List PartBinding}
    (h : f.contentViolations marks bound = [])
    (hcontent : content? marks bound = some (.multipart subtype parts)) :
    parts = partBindings bound ∧ parts ≠ [] := by
  unfold content? at hcontent
  split at hcontent
  · cases hcontent
  · split at hcontent
    · cases hcontent
    · obtain ⟨_, hparts, he⟩ := Option.map_eq_some_iff.mp hcontent
      cases he
      refine ⟨rfl, fun hnil => ?_⟩
      simp [contentViolations, hparts, hnil] at h

theorem mem_bodyBindings_of_content? {b : BodyBinding}
    (hcontent : content? marks bound = some (.body b)) : b ∈ bodyBindings bound := by
  unfold content? at hcontent
  split at hcontent
  · next hbodies =>
    cases hcontent
    rw [hbodies]
    exact List.mem_cons_self
  · split at hcontent
    · cases hcontent
    · obtain ⟨_, -, he⟩ := Option.map_eq_some_iff.mp hcontent
      cases he

end FunctionDecl

theorem ServiceDecl.exists_of_mem_service {s : ServiceDecl} {service : Service}
    (hs : s.analyze.service = some service) {e : Endpoint} (he : e ∈ service.endpoints) :
    ∃ f ∈ s.functions, f.endpoint? s.serializableTypes = some e := by
  simp only [analyze_eq, service?, Option.ite_none_right_eq_some, Option.some.injEq] at hs
  obtain ⟨-, rfl⟩ := hs
  exact List.mem_filterMap.mp he

end HttpService
