import HttpService.Proofs.Validation.Placeholders
import HttpService.Proofs.Validation.Rules

/-!
# One bound parameter more

One bound parameter more changes what the rules about roles say exactly when it counts for one of
them (`rules_insert_iff`).  When it does depends on its role, on the marks of the function and on
the other bound parameters (`Role.Counts`).
-/

namespace HttpService

namespace FunctionDecl

/-! ## Paths -/

theorem mem_unfilled_iff {template n : String} {paths : List (ParameterDecl × String)} :
    n ∈ unfilled template paths ↔
      n ∈ Template.names (Template.split template.toList).path ∧ n ∉ paths.map Prod.snd := by
  simp [unfilled, mem_distinct_iff]

theorem reportedAt_templateRules {f : FunctionDecl} {template : String}
    {paths : List (ParameterDecl × String)} {v : Violation}
    (hv : ∀ n, .placeholderWithoutParameter n ≠ v) :
    reportedAt v (f.templateRules template paths)
      = reportedAt v (pathBindingDiagnostics
          (Template.names (Template.split template.toList).path) [] paths) := by
  rw [templateRules, reportedAt_append, reportedAt_here, count_map_of_ne _ hv]
  rfl

/-- **Every path parameter counts for a template.**  One without a placeholder is told, a second
one for a placeholder is told, and without the first one the placeholder is. -/
theorem templateRules_insert_ne (f : FunctionDecl) (template : String)
    (front back : List (ParameterDecl × String)) (x : ParameterDecl × String) :
    f.templateRules template (front ++ x :: back) ≠ f.templateRules template (front ++ back) := by
  intro he
  by_cases hx : x.2 ∈ Template.names (Template.split template.toList).path
  · by_cases hother : x.2 ∈ (front ++ back).map Prod.snd
    · have hreported := congrArg (reportedAt (.duplicatePathBinding x.2)) he
      rw [reportedAt_templateRules (by simp), reportedAt_templateRules (by simp),
        reportedAt_duplicatePathBinding, reportedAt_duplicatePathBinding, if_pos hx,
        if_pos hx] at hreported
      have hlength := congrArg List.length hreported
      have hpos : 0 < ((front ++ back).filter fun y => y.2 = x.2).length := by
        obtain ⟨y, hy, hy'⟩ := List.mem_map.mp hother
        exact List.length_pos_of_mem (List.mem_filter.mpr ⟨hy, by simpa using hy'⟩)
      simp only [List.not_mem_nil, if_false, List.length_map, List.length_drop, List.filter_append,
        List.length_append, List.filter_cons, decide_true, if_true, List.length_cons]
        at hlength hpos
      omega
    · have hmem : ⟨f.location, .placeholderWithoutParameter x.2⟩
          ∈ f.templateRules template (front ++ back) :=
        List.mem_append_left _ (List.mem_map_of_mem (List.mem_map_of_mem
          (mem_unfilled_iff.mpr ⟨hx, hother⟩)))
      rw [← he, templateRules, List.mem_append] at hmem
      rcases hmem with hmem | hmem
      · simp only [here, List.map_map, List.mem_map, Function.comp_apply, Diagnostic.mk.injEq,
          true_and, Violation.placeholderWithoutParameter.injEq, exists_eq_right] at hmem
        exact (mem_unfilled_iff.mp hmem).2 (by simp)
      · rcases violation_of_mem_pathBindingDiagnostics hmem with ⟨n, hn⟩ | ⟨n, hn⟩ <;> cases hn
  · have hreported := congrArg (reportedAt (.parameterWithoutPlaceholder x.1.name)) he
    rw [reportedAt_templateRules (by simp), reportedAt_templateRules (by simp),
      reportedAt_parameterWithoutPlaceholder, reportedAt_parameterWithoutPlaceholder] at hreported
    have hlength := congrArg List.length hreported
    simp [hx] at hlength

/-! ## One binding more -/

/-- A path parameter counts for the source of the URL when there is a path or a parameter that is
the URL, but not both. -/
theorem urlRules_insert_path_iff (f : FunctionDecl) (marks : Marks) (urls : Nat)
    (front back : List (ParameterDecl × String)) (x : ParameterDecl × String) :
    f.urlRules marks urls (front ++ x :: back) = f.urlRules marks urls (front ++ back) ↔
      ¬ (marks.httpCount ≠ 0 ∧ (marks.path.isSome ↔ urls = 0)) := by
  unfold urlRules
  by_cases hcount : marks.httpCount = 0
  · simp [hcount]
  · rw [if_neg hcount, if_neg hcount]
    cases marks.path with
    | none =>
      cases urls with
      | zero => simp
      | succ n =>
        simp only [List.append_cancel_left_eq, Option.isSome_none, Bool.false_eq_true,
          Nat.succ_ne_zero, not_false_eq_true, and_true, hcount, ne_eq, not_true_eq_false,
          iff_false]
        intro he
        have hlength := congrArg List.length he
        simp at hlength
    | some template =>
      cases urls with
      | zero => simpa [hcount] using templateRules_insert_ne f template front back x
      | succ n => simp

theorem urlRules_one_ne (f : FunctionDecl) {marks : Marks} (hcount : marks.httpCount ≠ 0)
    (paths : List (ParameterDecl × String)) :
    f.urlRules marks 1 paths ≠ f.urlRules marks 0 paths := by
  unfold urlRules
  rw [if_neg hcount, if_neg hcount, if_neg (by omega), if_neg (by omega), ne_eq,
    List.append_cancel_left_eq]
  cases marks.path with
  | none =>
    intro (he : (paths.map fun x =>
      (⟨x.1.location, .pathWithDynamicUrl x.1.name⟩ : Diagnostic)) = f.here [.missingUrl f.name])
    have hmem : ⟨f.location, .missingUrl f.name⟩ ∈ f.here [.missingUrl f.name] :=
      List.mem_cons_self
    rw [← he] at hmem
    simp at hmem
  | some template =>
    intro (he : f.here [.conflictingUrl f.name] = f.templateRules template paths)
    have hmem : ⟨f.location, .conflictingUrl f.name⟩ ∈ f.here [.conflictingUrl f.name] :=
      List.mem_cons_self
    rw [he] at hmem
    rcases List.mem_append.mp hmem with hmem | hmem
    · simp [here] at hmem
    · rcases violation_of_mem_pathBindingDiagnostics hmem with ⟨n, hn⟩ | ⟨n, hn⟩ <;> cases hn

theorem urlRules_two_ne (f : FunctionDecl) {marks : Marks} (hcount : marks.httpCount ≠ 0)
    (paths : List (ParameterDecl × String)) :
    f.urlRules marks 2 paths ≠ f.urlRules marks 1 paths := by
  intro he
  have hlength := congrArg List.length he
  simp only [urlRules, if_neg hcount, List.length_append, here, List.length_map] at hlength
  cases hpath : marks.path <;> simp [hpath] at hlength

/-- A parameter that is the URL counts when there is at most one other. -/
theorem urlRules_succ_iff (f : FunctionDecl) (marks : Marks) (urls : Nat)
    (paths : List (ParameterDecl × String)) :
    f.urlRules marks (urls + 1) paths = f.urlRules marks urls paths ↔
      ¬ (marks.httpCount ≠ 0 ∧ urls ≤ 1) := by
  by_cases hcount : marks.httpCount = 0
  · simp [urlRules, hcount]
  · rcases urls with _ | _ | n
    · exact iff_of_false (urlRules_one_ne f hcount paths)
        (not_not_intro ⟨hcount, Nat.zero_le 1⟩)
    · exact iff_of_false (urlRules_two_ne f hcount paths)
        (not_not_intro ⟨hcount, Nat.le_refl 1⟩)
    · refine iff_of_true ?_ fun h => absurd h.2 (by omega)
      unfold urlRules
      rw [if_neg hcount, if_neg hcount, if_pos (by omega), if_pos (by omega)]
      cases marks.path <;> rfl

/-- Whether one body more counts for the content, given how many there are. -/
def bodyCounts (marks : Marks) : Nat → Prop
  | 0 => marks.form = true ∨ marks.multipart.isSome = true ∨
      ∃ method ∈ marks.method, method.permitsBody = false
  | 1 => True
  | _ => False

/-- One body more counts when it is the first next to other content or where none may be, or the
second. -/
theorem contentRules_succ_iff (f : FunctionDecl) (marks : Marks) (bodies : Nat)
    (noFields noParts : Bool) :
    f.contentRules marks (bodies + 1) noFields noParts
        = f.contentRules marks bodies noFields noParts ↔ ¬ bodyCounts marks bodies := by
  unfold contentRules
  rcases bodies with _ | _ | n
  · have hmethod : (∃ method ∈ marks.method, method.permitsBody = false) ↔
        (marks.method.any fun m => !m.permitsBody) = true := by
      cases marks.method <;> simp
    rw [bodyCounts, hmethod]
    generalize marks.form = form
    generalize marks.multipart.isSome = hasParts
    cases marks.method with
    | none => cases form <;> cases hasParts <;> cases noFields <;> cases noParts <;> simp
    | some method =>
      cases hp : method.permitsBody <;> cases form <;> cases hasParts <;> cases noFields <;>
        cases noParts <;> simp [hp]
  · refine iff_of_false (fun he => ?_) (not_not_intro trivial)
    have hlength := congrArg List.length he
    simp at hlength
  · simp [bodyCounts]

theorem contentRules_noFields_iff (f : FunctionDecl) (marks : Marks) (bodies : Nat)
    (noFields noParts : Bool) :
    f.contentRules marks bodies false noParts = f.contentRules marks bodies noFields noParts ↔
      (marks.form = true → noFields = false) := by
  unfold contentRules
  cases marks.form <;> cases noFields <;> simp

theorem contentRules_noParts_iff (f : FunctionDecl) (marks : Marks) (bodies : Nat)
    (noFields noParts : Bool) :
    f.contentRules marks bodies noFields false = f.contentRules marks bodies noFields noParts ↔
      (marks.multipart.isSome = true → noParts = false) := by
  unfold contentRules
  cases marks.multipart.isSome <;> cases noParts <;> simp

theorem here_inj {f : FunctionDecl} {vs ws : List Violation} :
    f.here vs = f.here ws ↔ vs = ws :=
  List.map_inj_right fun _ _ h => congrArg Diagnostic.violation h

theorem isEmpty_insert {α : Type} (front back : List α) (a : α) :
    (front ++ a :: back).isEmpty = false := by
  cases front <;> rfl

variable (f : FunctionDecl) (marks : Marks) (front back : List Bound) (p : ParameterDecl)

theorem rules_insert_query (b : ValueBinding) :
    f.rules marks (front ++ (p, .query b) :: back) = f.rules marks (front ++ back) := by
  simp [rules, urlParameters, pathBindings, orphanDiagnostics, bodyBindings, fieldBindings,
    partBindings]

theorem rules_insert_header (b : HeaderBinding) :
    f.rules marks (front ++ (p, .header b) :: back) = f.rules marks (front ++ back) := by
  simp [rules, urlParameters, pathBindings, orphanDiagnostics, bodyBindings, fieldBindings,
    partBindings]

theorem rules_insert_path_iff (placeholder : String) :
    f.rules marks (front ++ (p, .path placeholder) :: back) = f.rules marks (front ++ back) ↔
      ¬ (marks.httpCount ≠ 0 ∧
        (marks.path.isSome ↔ (urlParameters (front ++ back)).length = 0)) := by
  rw [← urlRules_insert_path_iff f marks _ (pathBindings front) (pathBindings back)
    (p, placeholder)]
  simp [rules, urlParameters, pathBindings, orphanDiagnostics, bodyBindings, fieldBindings,
    partBindings]

theorem rules_insert_url_iff :
    f.rules marks (front ++ (p, .url) :: back) = f.rules marks (front ++ back) ↔
      ¬ (marks.httpCount ≠ 0 ∧ (urlParameters (front ++ back)).length ≤ 1) := by
  rw [← urlRules_succ_iff f marks _ (pathBindings (front ++ back))]
  simp [rules, urlParameters, pathBindings, orphanDiagnostics, bodyBindings, fieldBindings,
    partBindings, Nat.add_assoc]

theorem rules_insert_body_iff (b : BodyBinding) :
    f.rules marks (front ++ (p, .body b) :: back) = f.rules marks (front ++ back) ↔
      ¬ bodyCounts marks (bodyBindings (front ++ back)).length := by
  rw [← contentRules_succ_iff f marks _ (fieldBindings (front ++ back)).isEmpty
    (partBindings (front ++ back)).isEmpty, ← here_inj (f := f)]
  simp [rules, urlParameters, pathBindings, orphanDiagnostics, bodyBindings, fieldBindings,
    partBindings, Nat.add_assoc]

theorem rules_insert_field_iff (b : ValueBinding) :
    f.rules marks (front ++ (p, .field b) :: back) = f.rules marks (front ++ back) ↔
      ¬ (marks.form = true → (fieldBindings (front ++ back)).isEmpty = true) := by
  have hrule := contentRules_noFields_iff f marks (bodyBindings (front ++ back)).length
    (fieldBindings (front ++ back)).isEmpty (partBindings (front ++ back)).isEmpty
  have hurls : urlParameters (front ++ (p, .field b) :: back) = urlParameters (front ++ back) := by
    simp [urlParameters]
  have hpaths : pathBindings (front ++ (p, .field b) :: back) = pathBindings (front ++ back) := by
    simp [pathBindings]
  have hbodies : bodyBindings (front ++ (p, .field b) :: back) = bodyBindings (front ++ back) := by
    simp [bodyBindings]
  have hparts : partBindings (front ++ (p, .field b) :: back) = partBindings (front ++ back) := by
    simp [partBindings]
  have hfields : (fieldBindings (front ++ (p, .field b) :: back)).isEmpty = false := by
    simp [fieldBindings, isEmpty_insert]
  rw [rules, rules, hurls, hpaths, hbodies, hparts, hfields]
  by_cases hform : marks.form = true
  · have horphans : orphanDiagnostics marks (front ++ (p, .field b) :: back)
        = orphanDiagnostics marks (front ++ back) := by
      simp [orphanDiagnostics, hform]
    rw [horphans, List.append_cancel_left_eq, here_inj, hrule]
    simp [hform]
  · have horphans : (orphanDiagnostics marks (front ++ (p, .field b) :: back)).length
        = (orphanDiagnostics marks (front ++ back)).length + 1 := by
      simp [orphanDiagnostics, hform, Nat.add_assoc]
    refine iff_of_false (fun he => ?_) (not_not_intro fun h => absurd h hform)
    have hlength := congrArg List.length he
    rw [hrule.mpr fun h => absurd h hform] at hlength
    simp only [List.length_append, horphans] at hlength
    omega

theorem rules_insert_part_iff (b : PartBinding) :
    f.rules marks (front ++ (p, .part b) :: back) = f.rules marks (front ++ back) ↔
      ¬ (marks.multipart.isSome = true → (partBindings (front ++ back)).isEmpty = true) := by
  have hrule := contentRules_noParts_iff f marks (bodyBindings (front ++ back)).length
    (fieldBindings (front ++ back)).isEmpty (partBindings (front ++ back)).isEmpty
  have hurls : urlParameters (front ++ (p, .part b) :: back) = urlParameters (front ++ back) := by
    simp [urlParameters]
  have hpaths : pathBindings (front ++ (p, .part b) :: back) = pathBindings (front ++ back) := by
    simp [pathBindings]
  have hbodies : bodyBindings (front ++ (p, .part b) :: back) = bodyBindings (front ++ back) := by
    simp [bodyBindings]
  have hfields : fieldBindings (front ++ (p, .part b) :: back) = fieldBindings (front ++ back) := by
    simp [fieldBindings]
  have hparts : (partBindings (front ++ (p, .part b) :: back)).isEmpty = false := by
    simp [partBindings, isEmpty_insert]
  rw [rules, rules, hurls, hpaths, hbodies, hfields, hparts]
  by_cases hmultipart : marks.multipart.isSome = true
  · have horphans : orphanDiagnostics marks (front ++ (p, .part b) :: back)
        = orphanDiagnostics marks (front ++ back) := by
      simp [orphanDiagnostics, hmultipart]
    rw [horphans, List.append_cancel_left_eq, here_inj, hrule]
    simp [hmultipart]
  · have horphans : (orphanDiagnostics marks (front ++ (p, .part b) :: back)).length
        = (orphanDiagnostics marks (front ++ back)).length + 1 := by
      simp [orphanDiagnostics, hmultipart, Nat.add_assoc]
    refine iff_of_false (fun he => ?_) (not_not_intro fun h => absurd h hmultipart)
    have hlength := congrArg List.length he
    rw [hrule.mpr fun h => absurd h hmultipart] at hlength
    simp only [List.length_append, horphans] at hlength
    omega

end FunctionDecl

/-- Whether a parameter with a role counts for a rule about roles, next to other bound
parameters. -/
def Role.Counts (marks : Marks) (others : List FunctionDecl.Bound) : Role → Prop
  | .path _ => marks.httpCount ≠ 0 ∧
      (marks.path.isSome ↔ (FunctionDecl.urlParameters others).length = 0)
  | .url => marks.httpCount ≠ 0 ∧ (FunctionDecl.urlParameters others).length ≤ 1
  | .body _ => FunctionDecl.bodyCounts marks (FunctionDecl.bodyBindings others).length
  | .field _ | .fieldMap =>
    marks.form = true → (FunctionDecl.fieldBindings others).isEmpty = true
  | .part .. | .partMap _ =>
    marks.multipart.isSome = true → (FunctionDecl.partBindings others).isEmpty = true
  | .query _ | .queryMap | .header _ | .headerMap => False

namespace FunctionDecl

/-- **One bound parameter more changes what the rules say exactly when it counts.** -/
theorem rules_insert_iff (f : FunctionDecl) (marks : Marks) (front back : List Bound)
    (serializable : List String) (p : ParameterDecl) (role : Role) :
    f.rules marks (front ++ (p, (p.lower serializable role).1) :: back)
        = f.rules marks (front ++ back) ↔ ¬ role.Counts marks (front ++ back) := by
  cases role with
  | path name => exact rules_insert_path_iff ..
  | url => exact rules_insert_url_iff ..
  | query name => exact iff_of_true (rules_insert_query ..) not_false
  | queryMap => exact iff_of_true (rules_insert_query ..) not_false
  | header name => exact iff_of_true (rules_insert_header ..) not_false
  | headerMap => exact iff_of_true (rules_insert_header ..) not_false
  | field name => exact rules_insert_field_iff ..
  | fieldMap => exact rules_insert_field_iff ..
  | part name contentType => exact rules_insert_part_iff ..
  | partMap contentType => exact rules_insert_part_iff ..
  | body contentType => exact rules_insert_body_iff ..

end FunctionDecl

end HttpService
