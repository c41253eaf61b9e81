import HttpService.CommandLine
import HttpService.Proofs.Validation.Endpoints

/-!
# An analysis is made function by function

What is said of a service is what is said of the declared type itself, then what is said of each
function when it is the only one (`ServiceDecl.contribution`).  A function of which nothing is said
always becomes an endpoint: `exists_endpoint?_iff` finds a report for every reason for which a
function could be left out.  So the strict validation and the lenient one differ in nothing but
what they do with a service of which something is said, and the commands that use the one and the
other succeed on the same declarations (`ServiceDecl.analyzedByFunction`).
-/

namespace HttpService

/-! ## No function is left out without a report -/

namespace Marks

/-- Marks that give a method, as soon as one of them is an HTTP mark. -/
def GiveMethod (m : Marks) : Prop :=
  m.httpCount ≠ 0 → ∃ method, m.method = some method

theorem exists_readMethod {name : String} {hasBody : Option Bool}
    (h : (readMethod name hasBody).2 = []) : ∃ method, (readMethod name hasBody).1 = some method := by
  unfold readMethod at h ⊢
  cases hm : method? name hasBody with
  | ok method => exact ⟨method, rfl⟩
  | error reason => simp [hm] at h

theorem GiveMethod.add {m : Marks} (hm : m.GiveMethod) {mark : FunctionMark}
    (h : (m.add mark).2 = []) : (m.add mark).1.GiveMethod := by
  cases mark with
  | http method path hasBody =>
    by_cases hfirst : m.httpCount = 0
    · simp only [Marks.add, if_pos hfirst] at h ⊢
      intro _
      exact exists_readMethod h
    · simp only [Marks.add, if_neg hfirst]
      intro _
      exact hm hfirst
  | headers values => exact hm
  | form => exact hm
  | multipart subtype =>
    intro hcount
    by_cases hseen : m.multipart.isSome = true
    · simp only [Marks.add, if_pos hseen] at hcount ⊢
      exact hm hcount
    · simp only [Marks.add, if_neg hseen] at hcount ⊢
      exact hm hcount

theorem GiveMethod.addAll {m : Marks} (hm : m.GiveMethod) {marks : List FunctionMark}
    (h : (m.addAll marks).2 = []) : (m.addAll marks).1.GiveMethod := by
  induction marks generalizing m with
  | nil => exact hm
  | cons mark rest ih =>
    obtain ⟨hfirst, hrest⟩ := List.append_eq_nil_iff.mp h
    exact ih (hm.add hfirst) hrest

theorem httpCount_of_countViolations {m : Marks} {function : String}
    (h : m.countViolations function = []) : m.httpCount = 1 := by
  unfold countViolations at h
  split at h
  · cases h
  · next hone => exact hone
  · cases h

end Marks

namespace FunctionDecl

variable {serializable : List String} {f : FunctionDecl}

theorem exists_method_of_readMarks (h : f.readMarks.2 = []) :
    f.readMarks.1.httpCount = 1 ∧ ∃ method, f.readMarks.1.method = some method := by
  obtain ⟨hmarks, hcount⟩ := List.append_eq_nil_iff.mp h
  have hone : f.readMarks.1.httpCount = 1 := Marks.httpCount_of_countViolations hcount
  have hnone : Marks.none.GiveMethod := fun hzero => absurd rfl hzero
  have hgive : f.readMarks.1.GiveMethod := hnone.addAll hmarks
  exact ⟨hone, hgive (by rw [hone]; exact Nat.one_ne_zero)⟩

/-- A URL is missing only where that is reported. -/
theorem exists_checkUrl {path : Option String} {bound : List Bound}
    (h : (f.checkUrl path bound).2 = []) : ∃ url, (f.checkUrl path bound).1 = some url := by
  unfold checkUrl at h ⊢
  cases path with
  | none =>
    cases hurls : (urlParameters bound).head? with
    | none => simp [hurls] at h
    | some p => simp [hurls]
  | some template =>
    cases hurls : (urlParameters bound).head? with
    | none => simp [hurls]
    | some p => simp [hurls] at h

/-- **A function becomes an endpoint exactly when nothing is said of it.** -/
theorem exists_endpoint?_iff :
    (∃ e, f.endpoint? serializable = some e) ↔ f.diagnostics serializable = [] := by
  constructor
  · rintro ⟨e, he⟩
    exact (endpoint?_eq_some_iff.mp he).1
  · intro hnil
    obtain ⟨-, hmarks, -, -, hurl, -⟩ := diagnostics_eq_nil_iff.mp hnil
    obtain ⟨hone, method, hmethod⟩ := exists_method_of_readMarks hmarks
    have hstep : f.urlStep f.readMarks.1 (f.bound serializable)
        = f.checkUrl f.readMarks.1.path (f.bound serializable) := by
      unfold urlStep
      rw [if_neg (by rw [hone]; exact Nat.one_ne_zero)]
    rw [hstep] at hurl
    obtain ⟨url, hsome⟩ := exists_checkUrl hurl
    rw [← hstep] at hsome
    exact ⟨_, endpoint?_eq_some_iff.mpr ⟨hnil, method, url, hmethod, hsome, rfl⟩⟩

theorem endpoint?_eq_none_iff :
    f.endpoint? serializable = none ↔ f.diagnostics serializable ≠ [] := by
  rw [Ne, ← exists_endpoint?_iff, ← Option.ne_none_iff_exists', not_not]

/-- The name of a function, and the names and the types of its parameters. -/
def signature (f : FunctionDecl) : String × List Parameter :=
  (f.name, f.parameters.map fun p => ⟨p.name, p.type⟩)

end FunctionDecl

def Endpoint.signature (e : Endpoint) : String × List Parameter :=
  (e.name, e.parameters)

theorem FunctionDecl.signature_of_endpoint? {serializable : List String} {f : FunctionDecl}
    {e : Endpoint} (h : f.endpoint? serializable = some e) : e.signature = f.signature := by
  obtain ⟨-, method, url, -, -, rfl⟩ := endpoint?_eq_some_iff.mp h
  rfl

/-! ## One function at a time -/

namespace ServiceDecl

def withFunctions (s : ServiceDecl) (functions : List FunctionDecl) : ServiceDecl :=
  { s with functions }

/-- What is said of a function when it is the only one of the service. -/
def contribution (s : ServiceDecl) (f : FunctionDecl) : List Diagnostic :=
  (s.withFunctions [f]).analyze.diagnostics.drop s.ownDiagnostics.length

/-- An endpoint that a function becomes when it is the only one of the service, under the same
name and with the same parameters. -/
structure Keeps (s : ServiceDecl) (f : FunctionDecl) (e : Endpoint) : Prop where
  signature : e.signature = f.signature
  alone : ∃ service, (s.withFunctions [f]).analyze.service = some service ∧
    service.endpoints = [e]

theorem diagnostics_alone (s : ServiceDecl) (f : FunctionDecl) :
    (s.withFunctions [f]).analyze.diagnostics
      = s.ownDiagnostics ++ f.diagnostics s.serializableTypes := by
  rw [analyze_diagnostics]
  show s.ownDiagnostics ++ [f].flatMap (FunctionDecl.diagnostics s.serializableTypes) = _
  rw [List.flatMap_singleton]

theorem contribution_eq (s : ServiceDecl) :
    s.contribution = FunctionDecl.diagnostics s.serializableTypes := by
  funext f
  rw [contribution, diagnostics_alone, List.drop_left]

/-- There is a service exactly when nothing is said of the declared type itself, and its endpoints
are those of its functions. -/
theorem service_eq_some_iff {s : ServiceDecl} {service : Service} :
    s.analyze.service = some service ↔ s.ownDiagnostics = [] ∧
      service = ⟨s.name ++ "Client", s.name,
        s.functions.filterMap (FunctionDecl.endpoint? s.serializableTypes)⟩ := by
  simp only [analyze_eq, service?, Option.ite_none_right_eq_some, List.isEmpty_iff,
    Option.some.injEq]
  exact and_congr_right fun _ => eq_comm

theorem keeps_of_endpoint? {s : ServiceDecl} (hown : s.ownDiagnostics = []) {f : FunctionDecl}
    {e : Endpoint} (h : f.endpoint? s.serializableTypes = some e) : s.Keeps f e where
  signature := FunctionDecl.signature_of_endpoint? h
  alone := by
    refine ⟨_, service_eq_some_iff.mpr ⟨hown, rfl⟩, ?_⟩
    show [f].filterMap (FunctionDecl.endpoint? s.serializableTypes) = [e]
    rw [List.filterMap_cons_some h, List.filterMap_nil]

theorem forall₂_endpoint? (s : ServiceDecl) (fs : List FunctionDecl) :
    List.Forall₂ (fun f e => f.endpoint? s.serializableTypes = some e)
      (fs.filter fun f => (s.contribution f).isEmpty)
      (fs.filterMap (FunctionDecl.endpoint? s.serializableTypes)) := by
  induction fs with
  | nil => exact .nil
  | cons f fs ih =>
    by_cases hnil : s.contribution f = []
    · have hdiagnostics : f.diagnostics s.serializableTypes = [] := by
        rw [← contribution_eq]
        exact hnil
      obtain ⟨e, he⟩ := FunctionDecl.exists_endpoint?_iff.mpr hdiagnostics
      rw [List.filter_cons_of_pos (by simp [hnil]), List.filterMap_cons_some he]
      exact .cons he ih
    · have hnone : f.endpoint? s.serializableTypes = none := by
        rw [FunctionDecl.endpoint?_eq_none_iff, ← contribution_eq]
        exact hnil
      rw [List.filter_cons_of_neg (by simpa using hnil), List.filterMap_cons_none hnone]
      exact ih

/-- The endpoints are the functions of which nothing is said, in their order. -/
theorem forall₂_keeps {s : ServiceDecl} (hown : s.ownDiagnostics = []) (fs : List FunctionDecl) :
    List.Forall₂ s.Keeps (fs.filter fun f => (s.contribution f).isEmpty)
      (fs.filterMap (FunctionDecl.endpoint? s.serializableTypes)) :=
  (forall₂_endpoint? s fs).imp fun _ _ => keeps_of_endpoint? hown

theorem diagnostics_by_function (s : ServiceDecl) :
    s.analyze.diagnostics = s.ownDiagnostics ++ s.functions.flatMap s.contribution := by
  rw [analyze_diagnostics, contribution_eq]
  rfl

/-! ## Strict and lenient -/

theorem isClean_iff {s : ServiceDecl} :
    s.analyze.isClean = true ↔ s.ownDiagnostics = [] ∧ ∀ f ∈ s.functions, s.contribution f = [] := by
  rw [Analysis.isClean, List.isEmpty_iff, diagnostics_by_function, List.append_eq_nil_iff,
    List.flatMap_eq_nil_iff]

/-- The strict validation accepts a service of which nothing is said, and no other. -/
theorem validate_eq_ok_iff {s : ServiceDecl} {service : Service} :
    s.validate = .ok service ↔ s.analyze.isClean = true ∧ s.analyze.service = some service := by
  unfold validate Analysis.isClean
  rcases s.analyze with ⟨_ | found, _ | ⟨d, ds⟩⟩
  · simp
  · simp
  · simp
  · simp

theorem validate_eq_error_iff {s : ServiceDecl} {ds : List Diagnostic} :
    s.validate = .error ds ↔ s.analyze.isClean = false ∧ s.analyze.diagnostics = ds := by
  have hservice : s.analyze.isClean = true → s.analyze.service ≠ none := by
    intro hclean
    rw [service_eq_some_iff.mpr ⟨(isClean_iff.mp hclean).1, rfl⟩]
    exact Option.some_ne_none _
  unfold validate
  unfold Analysis.isClean at hservice ⊢
  generalize s.analyze = analysis at hservice ⊢
  rcases analysis with ⟨_ | found, _ | ⟨d, ds⟩⟩
  · exact absurd rfl (hservice rfl)
  · simp
  · simp
  · simp

theorem exists_validate_iff {s : ServiceDecl} :
    (∃ service, s.validate = .ok service) ↔ s.analyze.isClean = true := by
  constructor
  · rintro ⟨service, h⟩
    exact (validate_eq_ok_iff.mp h).1
  · intro hclean
    exact ⟨_, validate_eq_ok_iff.mpr
      ⟨hclean, service_eq_some_iff.mpr ⟨(isClean_iff.mp hclean).1, rfl⟩⟩⟩

theorem forall₂_keeps_of_validate {s : ServiceDecl} {service : Service}
    (h : s.validate = .ok service) : List.Forall₂ s.Keeps s.functions service.endpoints := by
  obtain ⟨hclean, hservice⟩ := validate_eq_ok_iff.mp h
  obtain ⟨hown, rfl⟩ := service_eq_some_iff.mp hservice
  have hkept := forall₂_keeps hown s.functions
  have hall : (s.functions.filter fun f => (s.contribution f).isEmpty) = s.functions := by
    rw [List.filter_eq_self]
    intro f hf
    rw [(isClean_iff.mp hclean).2 f hf]
    rfl
  rw [hall] at hkept
  exact hkept

end ServiceDecl

/-! ## The commands -/

namespace CommandLine

theorem exit_check_eq_zero_iff {s : ServiceDecl} :
    (check s).exit = 0 ↔ s.analyze.isClean = true := by
  rw [← ServiceDecl.exists_validate_iff, check]
  cases s.validate with
  | ok service => simp [succeed]
  | error ds => simp

theorem exit_describe_eq_zero_iff {s : ServiceDecl} {asJson : Bool} :
    (describe s asJson).exit = 0 ↔ s.analyze.isClean = true := by
  unfold describe Analysis.isClean
  dsimp only
  cases s.analyze.diagnostics with
  | nil => simp
  | cons d ds => simp

end CommandLine

/-- What a service is made of, as it is analyzed: first the declared type, then one function after
another, each as if it were the only one. -/
structure ServiceDecl.AnalyzedByFunction (s : ServiceDecl) : Prop where
  collected : ∀ seen, s.check.run seen = (s.analyze.service, seen ++ s.analyze.diagnostics)
  own : (s.withFunctions []).analyze.diagnostics = s.ownDiagnostics
  alone : ∀ f, (s.withFunctions [f]).analyze.diagnostics = s.ownDiagnostics ++ s.contribution f
  independent : ∀ t : ServiceDecl, t.serializableTypes = s.serializableTypes →
    t.contribution = s.contribution
  diagnostics : s.analyze.diagnostics = s.ownDiagnostics ++ s.functions.flatMap s.contribution
  refused : s.analyze.service = none ↔ s.ownDiagnostics ≠ []
  kept : ∀ service, s.analyze.service = some service →
    List.Forall₂ s.Keeps (s.functions.filter fun f => (s.contribution f).isEmpty) service.endpoints
  accepted : (∃ service, s.validate = .ok service) ↔ s.analyze.isClean = true
  strict : ∀ service, s.validate = .ok service →
    s.analyze.service = some service ∧ List.Forall₂ s.Keeps s.functions service.endpoints
  lenient : ∀ ds, s.validate = .error ds → s.analyze.diagnostics = ds
  commands : ∀ [DomainNames] (file : String) (input : Except String Bytes),
    CommandLine.readDeclaration file input = .ok s →
      ∀ (σ : Type) (env : String → Option String) (transport : Transport σ) (state : σ),
        (((Command.check file).run input env transport state).exit = 0 ↔
          s.analyze.isClean = true) ∧
        ∀ asJson, ((Command.describe file asJson).run input env transport state).exit = 0 ↔
          s.analyze.isClean = true

/-- **Every analysis is made function by function**, and the strict validation and both commands
agree with it. -/
theorem ServiceDecl.analyzedByFunction (s : ServiceDecl) : s.AnalyzedByFunction where
  collected seen := by
    rw [analyze_eq]
    exact s.reports_check seen
  own := by
    rw [analyze_diagnostics]
    exact List.append_nil _
  alone f := by rw [contribution_eq, diagnostics_alone]
  independent t ht := by rw [contribution_eq, contribution_eq, ht]
  diagnostics := s.diagnostics_by_function
  refused := by
    rw [Option.eq_none_iff_forall_ne_some]
    constructor
    · intro hnone hown
      exact hnone _ (service_eq_some_iff.mpr ⟨hown, rfl⟩)
    · intro hown service hservice
      exact hown (service_eq_some_iff.mp hservice).1
  kept service hservice := by
    obtain ⟨hown, rfl⟩ := service_eq_some_iff.mp hservice
    exact forall₂_keeps hown s.functions
  accepted := exists_validate_iff
  strict service h := ⟨(validate_eq_ok_iff.mp h).2, forall₂_keeps_of_validate h⟩
  lenient ds h := (validate_eq_error_iff.mp h).2
  commands file input hread σ env transport state := by
    constructor
    · simp only [Command.run, hread]
      exact CommandLine.exit_check_eq_zero_iff
    · intro asJson
      simp only [Command.run, hread]
      exact CommandLine.exit_describe_eq_zero_iff

namespace ServiceDecl

/-- A function without an HTTP mark. -/
def unmarked : FunctionDecl where
  name := "lost"
  marks := []
  isSuspending := true
  hasDefaultBody := false
  typeParameters := []
  parameters := [⟨"id", .named "Int", [], .unknown⟩]
  returnType := .named "Unit"
  location := .unknown

/-- The same function with a mark, and with a role for its parameter. -/
def marked : FunctionDecl :=
  { unmarked with
    name := "found"
    marks := [.http "GET" (some "at") none]
    parameters := [⟨"id", .named "Int", [.query none], .unknown⟩] }

/-- A service with both. -/
def halfMarked : ServiceDecl where
  name := "S"
  kind := .interface
  topLevel := true
  supertypes := []
  typeParameters := []
  properties := []
  functions := [unmarked, marked]
  serializableTypes := []
  location := .unknown

/-- The marked function is kept, next to all that is wrong with the other one. -/
theorem halfMarked_analyzedByFunction :
    (halfMarked.analyze.diagnostics = halfMarked.contribution unmarked ∧
      halfMarked.contribution unmarked =
        [⟨.unknown, .missingHttpMethod "lost"⟩, ⟨.unknown, .missingParameterRole "id"⟩]) ∧
    (∃ service, halfMarked.analyze.service = some service ∧
      List.Forall₂ halfMarked.Keeps [marked] service.endpoints) ∧
    ¬ ∃ service, halfMarked.validate = .ok service := by
  have h := halfMarked.analyzedByFunction
  have hcontribution : halfMarked.contribution unmarked =
      [⟨.unknown, .missingHttpMethod "lost"⟩, ⟨.unknown, .missingParameterRole "id"⟩] := by decide
  have hmarked : halfMarked.contribution marked = [] := by decide
  have hall : halfMarked.analyze.diagnostics = halfMarked.contribution unmarked := by
    rw [h.diagnostics, ← List.append_nil (halfMarked.contribution unmarked), ← hmarked]
    rfl
  refine ⟨⟨hall, hcontribution⟩, ?_, ?_⟩
  · cases hservice : halfMarked.analyze.service with
    | none => exact absurd rfl (h.refused.mp hservice)
    | some service =>
      refine ⟨service, rfl, ?_⟩
      have hkept : halfMarked.functions.filter (fun f => (halfMarked.contribution f).isEmpty)
          = [marked] := by
        decide
      rw [← hkept]
      exact h.kept service hservice
  · rw [h.accepted, Analysis.isClean, hall, hcontribution]
    exact Bool.false_ne_true

end ServiceDecl

end HttpService
