import HttpService.Proofs.Validation.RoleLevel

/-!
# What the rules about roles see

The rules see of the bound parameters only how many are the URL or the body, which fill
placeholders, which are fields or parts without their content, and whether there are fields and
parts (`filter_urlStep`, `filter_contentViolations`).  What they say of a function is what they say
of its bound parameters (`roleDiagnostics_eq_rules`).
-/

namespace HttpService

namespace FunctionDecl

/-- The names in a template that no path parameter fills. -/
def unfilled (template : String) (paths : List (ParameterDecl × String)) : List String :=
  (distinct [] (Template.names (Template.split template.toList).path)).filter fun n =>
    !(paths.map Prod.snd).contains n

/-- What the rules say of a template and the parameters that fill its placeholders. -/
def templateRules (f : FunctionDecl) (template : String) (paths : List (ParameterDecl × String)) :
    List Diagnostic :=
  f.here ((unfilled template paths).map .placeholderWithoutParameter) ++
    pathBindingDiagnostics (Template.names (Template.split template.toList).path) [] paths

/-- What the rules about roles say of the source of the URL, given how many parameters are the URL
and which fill placeholders. -/
def urlRules (f : FunctionDecl) (marks : Marks) (urls : Nat)
    (paths : List (ParameterDecl × String)) : List Diagnostic :=
  if marks.httpCount = 0 then []
  else f.here (if 1 < urls then [.multipleUrlParameters f.name] else []) ++
    match marks.path, urls with
    | none, 0 => f.here [.missingUrl f.name]
    | some _, _ + 1 => f.here [.conflictingUrl f.name]
    | none, _ + 1 => paths.map fun (q, _) => ⟨q.location, .pathWithDynamicUrl q.name⟩
    | some template, 0 => f.templateRules template paths

/-- What the rules about roles say of the content, given how many parameters are the body and
whether there are fields and parts. -/
def contentRules (f : FunctionDecl) (marks : Marks) (bodies : Nat) (noFields noParts : Bool) :
    List Violation :=
  let given (b : Bool) (v : Violation) : List Violation := if b then [v] else []
  let hasBody : Bool := 0 < bodies
  let hasParts := marks.multipart.isSome
  given (1 < bodies) (.multipleBodies f.name) ++
    given (hasBody && marks.form) (.bodyWithForm FunctionMark.form.label) ++
    given (hasBody && hasParts) (.bodyWithForm (FunctionMark.multipart none).label) ++
    given (marks.form && noFields) .emptyForm ++
    given (hasParts && noParts) .emptyMultipart ++
    match marks.method with
    | none => []
    | some method =>
      if method.permitsBody then []
      else
        given hasBody (.bodyNotAllowed (Role.body none).label method.token) ++
          given marks.form (.bodyNotAllowed FunctionMark.form.label method.token) ++
          given hasParts (.bodyNotAllowed (FunctionMark.multipart none).label method.token)

theorem filter_pathBindingDiagnostics (names seen : List String)
    (paths : List (ParameterDecl × String)) :
    (pathBindingDiagnostics names seen paths).filter (fun d => d.violation.isRoleLevel)
      = pathBindingDiagnostics names seen paths := by
  induction paths generalizing seen with
  | nil => rfl
  | cons x paths ih =>
    rw [pathBindingDiagnostics]
    split
    · rw [List.filter_cons_of_pos rfl, ih]
    · split
      · rw [List.filter_cons_of_pos rfl, ih]
      · exact ih _

theorem filter_orphanDiagnostics (marks : Marks) (bound : List Bound) :
    (orphanDiagnostics marks bound).filter (fun d => d.violation.isRoleLevel)
      = orphanDiagnostics marks bound := by
  refine List.filter_eq_self.mpr fun d hd => ?_
  obtain ⟨⟨p, b⟩, -, hd⟩ := List.mem_filterMap.mp hd
  cases b <;> simp only [Option.ite_none_left_eq_some, Option.some.injEq, reduceCtorEq] at hd
  · obtain ⟨-, rfl⟩ := hd
    rfl
  · obtain ⟨-, rfl⟩ := hd
    rfl

theorem silent_schemeViolations (template : String) : Silent (schemeViolations template) :=
  .ite (.ite .nil (.singleton rfl)) .nil

theorem filter_templateDiagnostics (f : FunctionDecl) (template : String)
    (paths : List (ParameterDecl × String)) :
    (f.templateDiagnostics template paths).filter (fun d => d.violation.isRoleLevel)
      = f.templateRules template paths := by
  simp only [templateDiagnostics, List.filter_append, filter_here, filter_pathBindingDiagnostics,
    (silent_schemeViolations template).filter_eq_nil, templateRules, unfilled,
    filter_map_silent (fun s => .traversalInTemplate (String.ofList s)) (fun _ => rfl),
    filter_map_silent .malformedPlaceholder (fun _ => rfl),
    filter_map_silent .placeholderOutsidePath (fun _ => rfl),
    filter_map_silent .duplicatePlaceholder (fun _ => rfl),
    filter_map_spoken .placeholderWithoutParameter (fun _ => rfl), List.nil_append]

theorem filter_urlStep (f : FunctionDecl) (marks : Marks) (bound : List Bound) :
    (f.urlStep marks bound).2.filter (fun d => d.violation.isRoleLevel)
      = f.urlRules marks (urlParameters bound).length (pathBindings bound) := by
  have hseveral (n : Nat) : (f.here (if 1 < n then [Violation.multipleUrlParameters f.name] else
      [])).filter (fun d => d.violation.isRoleLevel)
        = f.here (if 1 < n then [Violation.multipleUrlParameters f.name] else []) := by
    split <;> rfl
  unfold urlStep urlRules checkUrl
  split
  · rfl
  · cases marks.path with
    | none =>
      cases urlParameters bound with
      | nil => rfl
      | cons u us =>
        simp only [List.head?_cons, List.filter_append, hseveral, List.length_cons]
        refine congrArg _ (List.filter_eq_self.mpr fun d hd => ?_)
        obtain ⟨x, -, rfl⟩ := List.mem_map.mp hd
        rfl
    | some template =>
      cases urlParameters bound with
      | nil =>
        simp only [List.head?_nil, List.filter_append, hseveral, List.length_nil,
          filter_templateDiagnostics]
      | cons u us =>
        simp only [List.head?_cons, List.filter_append, hseveral, List.length_cons]
        rfl

theorem filter_contentViolations (f : FunctionDecl) (marks : Marks) (bound : List Bound) :
    (f.contentViolations marks bound).filter (·.isRoleLevel)
      = f.contentRules marks (bodyBindings bound).length (fieldBindings bound).isEmpty
          (partBindings bound).isEmpty := by
  have spoken (b : Bool) (v : Violation) (hv : v.isRoleLevel = true) :
      (if b = true then [v] else []).filter (·.isRoleLevel) = if b = true then [v] else [] := by
    cases b
    · rfl
    · exact List.filter_cons_of_pos hv
  have silent (b : Bool) : (if b = true then [Violation.formAndMultipart] else []).filter
      (·.isRoleLevel) = [] := by
    cases b <;> rfl
  have hbody : (!(bodyBindings bound).isEmpty) = decide (0 < (bodyBindings bound).length) := by
    cases bodyBindings bound <;> rfl
  unfold contentViolations contentRules
  simp only [List.filter_append, silent, hbody, List.append_nil, spoken _ (.multipleBodies _) rfl,
    spoken _ (.bodyWithForm _) rfl, spoken _ .emptyForm rfl, spoken _ .emptyMultipart rfl]
  congr 1
  cases marks.method with
  | none => rfl
  | some method =>
    cases hpermits : method.permitsBody with
    | true => simp [hpermits]
    | false =>
      simp only [hpermits, Bool.false_eq_true, if_false, List.filter_append,
        spoken _ (.bodyNotAllowed _ _) rfl]

/-- What the rules about roles say of some bound parameters. -/
def rules (f : FunctionDecl) (marks : Marks) (bound : List Bound) : List Diagnostic :=
  f.urlRules marks (urlParameters bound).length (pathBindings bound) ++
    orphanDiagnostics marks bound ++
    f.here (f.contentRules marks (bodyBindings bound).length (fieldBindings bound).isEmpty
      (partBindings bound).isEmpty)

/-- **The rules about roles see the parameters only as they are bound.** -/
theorem roleDiagnostics_eq_rules (serializable : List String) (f : FunctionDecl) :
    f.roleDiagnostics serializable = f.rules f.readMarks.1 (f.bound serializable) := by
  rw [roleDiagnostics_eq, filter_urlStep, filter_orphanDiagnostics, filter_contentViolations]
  rfl

end FunctionDecl

end HttpService
