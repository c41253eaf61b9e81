import HttpService.Proofs.Validation.Bindings
import HttpService.Proofs.Validation.Insertion

/-!
# What the type of a parameter changes

The rules about roles are checked on the parameters that are bound, and a parameter of the wrong
type is not.  So changing its type can hide a violation or make one up: it changes what the rules
say exactly when it binds or unbinds the parameter and the parameter counts for a rule
(`roleDiagnostics_retype_iff`).
-/

namespace HttpService

namespace FunctionDecl

theorem label_lower (serializable : List String) (p : ParameterDecl) (role : Role) :
    (p.lower serializable role).1.label = role.label := by
  cases role <;> simp only [ParameterDecl.lower, ParameterDecl.listOrSingle] <;>
    first | rfl | (split <;> rfl)

theorem pathBindingDiagnostics_retype (names seen : List String) (p : ParameterDecl) (t : TypeExpr)
    (placeholder : String) (front back : List (ParameterDecl × String)) :
    pathBindingDiagnostics names seen (front ++ ({ p with type := t }, placeholder) :: back)
      = pathBindingDiagnostics names seen (front ++ (p, placeholder) :: back) := by
  induction front generalizing seen with
  | nil => rfl
  | cons x front ih => simp only [List.cons_append, pathBindingDiagnostics, ih]

theorem urlRules_retype (f : FunctionDecl) (marks : Marks) (urls : Nat) (p : ParameterDecl)
    (t : TypeExpr) (placeholder : String) (front back : List (ParameterDecl × String)) :
    f.urlRules marks urls (front ++ ({ p with type := t }, placeholder) :: back)
      = f.urlRules marks urls (front ++ (p, placeholder) :: back) := by
  have hunfilled (template : String) :
      unfilled template (front ++ ({ p with type := t }, placeholder) :: back)
        = unfilled template (front ++ (p, placeholder) :: back) := by
    simp [unfilled]
  unfold urlRules
  simp [templateRules, hunfilled, pathBindingDiagnostics_retype]

section Retype

variable (f : FunctionDecl) (marks : Marks) (front back : List Bound) (p : ParameterDecl)
  (t : TypeExpr)

theorem rules_retype_path (placeholder : String) :
    f.rules marks (front ++ ({ p with type := t }, .path placeholder) :: back)
      = f.rules marks (front ++ (p, .path placeholder) :: back) := by
  have hurl := urlRules_retype f marks (urlParameters (front ++ back)).length p t placeholder
    (pathBindings front) (pathBindings back)
  simpa [rules, urlParameters, pathBindings, orphanDiagnostics, bodyBindings, fieldBindings,
    partBindings] using hurl

theorem rules_retype_url :
    f.rules marks (front ++ ({ p with type := t }, .url) :: back)
      = f.rules marks (front ++ (p, .url) :: back) := by
  simp [rules, urlParameters, pathBindings, orphanDiagnostics, bodyBindings, fieldBindings,
    partBindings]

theorem rules_retype_body (b c : BodyBinding) :
    f.rules marks (front ++ ({ p with type := t }, .body c) :: back)
      = f.rules marks (front ++ (p, .body b) :: back) := by
  simp [rules, urlParameters, pathBindings, orphanDiagnostics, bodyBindings, fieldBindings,
    partBindings]

theorem rules_retype_field {b c : ValueBinding}
    (hlabel : (Binding.field c).label = (Binding.field b).label) :
    f.rules marks (front ++ ({ p with type := t }, .field c) :: back)
      = f.rules marks (front ++ (p, .field b) :: back) := by
  cases hform : marks.form <;>
    simp [rules, urlParameters, pathBindings, orphanDiagnostics, bodyBindings, fieldBindings,
      partBindings, isEmpty_insert, hform, hlabel]

theorem rules_retype_part {b c : PartBinding}
    (hlabel : (Binding.part c).label = (Binding.part b).label) :
    f.rules marks (front ++ ({ p with type := t }, .part c) :: back)
      = f.rules marks (front ++ (p, .part b) :: back) := by
  cases hmultipart : marks.multipart.isSome <;>
    simp [rules, urlParameters, pathBindings, orphanDiagnostics, bodyBindings, fieldBindings,
      partBindings, isEmpty_insert, hmultipart, hlabel]

/-- The rules do not see the type of a bound parameter. -/
theorem rules_retype (serializable : List String) (role : Role) :
    f.rules marks (front ++ ({ p with type := t },
        (({ p with type := t } : ParameterDecl).lower serializable role).1) :: back)
      = f.rules marks (front ++ (p, (p.lower serializable role).1) :: back) := by
  have hlabel := label_lower serializable { p with type := t } role
  rw [← label_lower serializable p role] at hlabel
  cases role with
  | path name => exact rules_retype_path ..
  | url => exact rules_retype_url ..
  | query name => exact (rules_insert_query ..).trans (rules_insert_query ..).symm
  | queryMap => exact (rules_insert_query ..).trans (rules_insert_query ..).symm
  | header name => exact (rules_insert_header ..).trans (rules_insert_header ..).symm
  | headerMap => exact (rules_insert_header ..).trans (rules_insert_header ..).symm
  | field name => exact rules_retype_field f marks front back p t hlabel
  | fieldMap => exact rules_retype_field f marks front back p t hlabel
  | part name contentType => exact rules_retype_part f marks front back p t hlabel
  | partMap contentType => exact rules_retype_part f marks front back p t hlabel
  | body contentType => exact rules_retype_body ..

end Retype

/-- The parameters of a list that are bound, with their bindings. -/
def boundAmong (serializable : List String) (ps : List ParameterDecl) : List Bound :=
  ps.filterMap fun p => (p.bind serializable).toOption.map fun b => (p, b)

theorem boundAmong_append (serializable : List String) (ps qs : List ParameterDecl) :
    boundAmong serializable (ps ++ qs) = boundAmong serializable ps ++ boundAmong serializable qs :=
  List.filterMap_append

variable {serializable : List String} {p : ParameterDecl} {role : Role}

theorem boundAmong_insert_of_ok (hrole : p.roles = [role])
    (hok : (p.lower serializable role).2 = []) (front back : List ParameterDecl) :
    boundAmong serializable (front ++ p :: back)
      = boundAmong serializable front ++
        (p, (p.lower serializable role).1) :: boundAmong serializable back := by
  have hbind : p.bind serializable = .ok (p.lower serializable role).1 :=
    ParameterDecl.bind_ok_iff.mpr ⟨role, hrole, Prod.ext rfl hok⟩
  rw [boundAmong_append, boundAmong, boundAmong, List.filterMap_cons, hbind]
  rfl

theorem boundAmong_insert_of_wrong (hrole : p.roles = [role])
    (hwrong : (p.lower serializable role).2 ≠ []) (front back : List ParameterDecl) :
    boundAmong serializable (front ++ p :: back) = boundAmong serializable (front ++ back) := by
  rw [boundAmong_append, boundAmong_append, boundAmong, boundAmong, List.filterMap_cons]
  cases hbind : p.bind serializable with
  | error vs => rfl
  | ok b =>
    obtain ⟨r, hr, hlower⟩ := ParameterDecl.bind_ok_iff.mp hbind
    obtain rfl : role = r := by simpa [hrole] using hr
    exact absurd (congrArg Prod.snd hlower) hwrong

/-- **Changing the type of a parameter changes what the rules about roles say exactly when it binds
or unbinds the parameter and the parameter counts for a rule.**  A type that is wrong in the role
of its parameter thus hides what the parameter violates, and makes up that it is missing. -/
theorem roleDiagnostics_retype_iff (f : FunctionDecl) {front back : List ParameterDecl}
    (hf : f.parameters = front ++ p :: back) (hrole : p.roles = [role]) (t : TypeExpr) :
    ({ f with parameters := front ++ { p with type := t } :: back }).roleDiagnostics serializable
        = f.roleDiagnostics serializable ↔
      ((p.lower serializable role).2 = [] ↔
        (({ p with type := t } : ParameterDecl).lower serializable role).2 = []) ∨
      ¬ role.Counts f.readMarks.1 (boundAmong serializable (front ++ back)) := by
  have hretyped : ({ p with type := t } : ParameterDecl).roles = [role] := hrole
  have hinsert (q : ParameterDecl) := rules_insert_iff f f.readMarks.1
    (boundAmong serializable front) (boundAmong serializable back) serializable q role
  have hbefore : f.roleDiagnostics serializable
      = f.rules f.readMarks.1 (boundAmong serializable (front ++ p :: back)) := by
    rw [← hf]
    exact roleDiagnostics_eq_rules serializable f
  have hafter : ({ f with parameters := front ++ { p with type := t } :: back }).roleDiagnostics
      serializable = f.rules f.readMarks.1
        (boundAmong serializable (front ++ { p with type := t } :: back)) :=
    roleDiagnostics_eq_rules serializable _
  rw [hbefore, hafter]
  by_cases hold : (p.lower serializable role).2 = []
  · rw [boundAmong_insert_of_ok hrole hold]
    by_cases hnew : (({ p with type := t } : ParameterDecl).lower serializable role).2 = []
    · rw [boundAmong_insert_of_ok hretyped hnew, rules_retype]
      simp [hold, hnew]
    · rw [boundAmong_insert_of_wrong hretyped hnew, boundAmong_append, eq_comm, hinsert]
      simp [hold, hnew]
  · rw [boundAmong_insert_of_wrong hrole hold]
    by_cases hnew : (({ p with type := t } : ParameterDecl).lower serializable role).2 = []
    · rw [boundAmong_insert_of_ok hretyped hnew, boundAmong_append, hinsert]
      simp [hold, hnew]
    · rw [boundAmong_insert_of_wrong hretyped hnew]
      simp [hold, hnew]

/-- A function that sends a field without a form. -/
def sendingField (t : TypeExpr) : FunctionDecl where
  name := "f"
  marks := [.http "POST" (some "a") none]
  isSuspending := true
  hasDefaultBody := false
  typeParameters := []
  parameters := [⟨"v", t, [.field none], .unknown⟩]
  returnType := .named "Unit"
  location := .unknown

theorem roleDiagnostics_retype_iff_int :
    (sendingField (.named "String")).parameters
        = [] ++ ⟨"v", .named "String", [.field none], .unknown⟩ :: [] ∧
      (sendingField (.named "Int")).roleDiagnostics []
        = (sendingField (.named "String")).roleDiagnostics [] := by
  have hf : (sendingField (.named "String")).parameters
      = [] ++ ⟨"v", .named "String", [.field none], .unknown⟩ :: [] := rfl
  have hbound : ((⟨"v", .named "String", [.field none], .unknown⟩ : ParameterDecl).lower []
        (.field none)).2 = [] ↔
      ((⟨"v", .named "Int", [.field none], .unknown⟩ : ParameterDecl).lower []
        (.field none)).2 = [] := by
    decide +kernel
  exact ⟨hf, (roleDiagnostics_retype_iff _ hf rfl (.named "Int")).mpr (Or.inl hbound)⟩

/-- A type that is not serializable hides that a field needs a form. -/
theorem roleDiagnostics_hides_form :
    (sendingField (.named "String")).roleDiagnostics []
        = [⟨.unknown, .fieldWithoutForm "@Field" "v"⟩] ∧
      (sendingField (.named "Foo")).roleDiagnostics [] = [] := by
  decide +kernel

end FunctionDecl

end HttpService
