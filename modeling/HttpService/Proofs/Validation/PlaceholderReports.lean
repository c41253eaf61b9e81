import HttpService.Proofs.Validation.Bindings
import HttpService.Proofs.Validation.Placeholders
import Mathlib.Data.List.Count

/-!
# What is reported about placeholders

Four kinds of violation compare the placeholders of a template with the path parameters of its
function.  Each has a loop of its own in the check, with its own record of the names that were
seen; what each reports, how often and where, is read off the names alone (`PlaceholderReports`,
`templateReports`).  All four are silent exactly when the names match one to one (`Matched`).
-/

namespace HttpService

/-- Whether a violation compares placeholders with path parameters. -/
def Violation.isAboutPlaceholders : Violation → Bool
  | placeholderWithoutParameter _ | parameterWithoutPlaceholder _ | duplicatePlaceholder _
  | duplicatePathBinding _ => true
  | _ => false

/-! ## Names that match one to one -/

/-- Every entry of each list has exactly one equal entry in the other. -/
def Matched {α : Type} (as bs : List α) : Prop :=
  (∀ i : Fin as.length, ∃! j : Fin bs.length, bs.get j = as.get i) ∧
    ∀ j : Fin bs.length, ∃! i : Fin as.length, as.get i = bs.get j

/-- The entries of a list are told apart when each is matched by one entry of another. -/
theorem nodup_of_matched {α : Type} {as bs : List α} (h : Matched as bs) : as.Nodup := by
  refine List.nodup_iff_injective_get.mpr fun i i' hi => ?_
  obtain ⟨j, hj, -⟩ := h.1 i
  exact (h.2 j).unique hj.symm (hi.symm.trans hj.symm)

theorem existsUnique_get {α : Type} {bs : List α} (hbs : bs.Nodup) {a : α} (ha : a ∈ bs) :
    ∃! j : Fin bs.length, bs.get j = a := by
  obtain ⟨j, hj⟩ := List.mem_iff_get.mp ha
  exact ⟨j, hj, fun k hk => List.nodup_iff_injective_get.mp hbs (hk.trans hj.symm)⟩

theorem matched_iff {α : Type} {as bs : List α} :
    Matched as bs ↔ as.Nodup ∧ bs.Nodup ∧ ∀ a, a ∈ as ↔ a ∈ bs := by
  constructor
  · intro h
    refine ⟨nodup_of_matched h, nodup_of_matched ⟨h.2, h.1⟩, fun a => ⟨fun ha => ?_, fun hb => ?_⟩⟩
    · obtain ⟨i, rfl⟩ := List.mem_iff_get.mp ha
      obtain ⟨j, hj, -⟩ := h.1 i
      exact List.mem_iff_get.mpr ⟨j, hj⟩
    · obtain ⟨j, rfl⟩ := List.mem_iff_get.mp hb
      obtain ⟨i, hi, -⟩ := h.2 j
      exact List.mem_iff_get.mpr ⟨i, hi⟩
  · rintro ⟨has, hbs, hmem⟩
    exact ⟨fun i => existsUnique_get hbs ((hmem _).mp (List.get_mem as i)),
      fun j => existsUnique_get has ((hmem _).mpr (List.get_mem bs j))⟩

/-! ## Reports -/

theorem forall_not_isAboutPlaceholders_iff {ds : List Diagnostic} :
    (∀ d ∈ ds, d.violation.isAboutPlaceholders = false) ↔
      (∀ n, reportedAt (.placeholderWithoutParameter n) ds = []) ∧
        (∀ name, reportedAt (.parameterWithoutPlaceholder name) ds = []) ∧
        (∀ n, reportedAt (.duplicatePlaceholder n) ds = []) ∧
        ∀ n, reportedAt (.duplicatePathBinding n) ds = [] := by
  simp only [reportedAt_eq_nil_iff]
  constructor
  · intro hnone
    refine ⟨?_, ?_, ?_, ?_⟩ <;>
    · intro n d hd he
      simpa [he, Violation.isAboutPlaceholders] using hnone d hd
  · rintro ⟨hunfilled, hunnamed, hrepeated, hrebound⟩ d hd
    cases hv : d.violation with
    | placeholderWithoutParameter n => exact absurd hv (hunfilled n d hd)
    | parameterWithoutPlaceholder name => exact absurd hv (hunnamed name d hd)
    | duplicatePlaceholder n => exact absurd hv (hrepeated n d hd)
    | duplicatePathBinding n => exact absurd hv (hrebound n d hd)
    | _ => rfl

/-- What is reported about placeholders, given their names, the path parameters with the names
that these fill, and the place of the function. -/
structure PlaceholderReports (here : Location) (names : List String)
    (paths : List (ParameterDecl × String)) (ds : List Diagnostic) : Prop where
  /-- Each name that no path parameter fills is reported once. -/
  unfilled : ∀ n, reportedAt (.placeholderWithoutParameter n) ds
    = if n ∈ names ∧ n ∉ paths.map Prod.snd then [here] else []
  /-- Each path parameter without a placeholder is reported. -/
  unnamed : ∀ name, reportedAt (.parameterWithoutPlaceholder name) ds
    = (paths.filter fun x => x.2 ∉ names ∧ x.1.name = name).map fun x => x.1.location
  /-- Each name that stands twice or more is reported once. -/
  repeated : ∀ n, reportedAt (.duplicatePlaceholder n) ds
    = if 2 ≤ names.count n then [here] else []
  /-- Each path parameter for a placeholder is reported, except the first. -/
  rebound : ∀ n, reportedAt (.duplicatePathBinding n) ds
    = if n ∈ names then ((paths.filter fun x => x.2 = n).drop 1).map fun x => x.1.location else []

namespace PlaceholderReports

variable {here : Location} {names : List String} {paths : List (ParameterDecl × String)}
  {ds : List Diagnostic}

theorem unfilled_silent_iff (h : PlaceholderReports here names paths ds) :
    (∀ n, reportedAt (.placeholderWithoutParameter n) ds = []) ↔
      ∀ n ∈ names, n ∈ paths.map Prod.snd := by
  simp only [h.unfilled, ite_eq_right_iff, List.cons_ne_nil, imp_false, not_and, not_not]

theorem unnamed_silent_iff (h : PlaceholderReports here names paths ds) :
    (∀ name, reportedAt (.parameterWithoutPlaceholder name) ds = []) ↔
      ∀ n ∈ paths.map Prod.snd, n ∈ names := by
  simp only [h.unnamed, List.map_eq_nil_iff, List.filter_eq_nil_iff, decide_eq_true_eq, not_and,
    List.forall_mem_map]
  constructor
  · intro hnone x hx
    by_contra hnamed
    exact hnone x.1.name x hx hnamed rfl
  · exact fun hall name x hx hnamed _ => hnamed (hall x hx)

theorem repeated_silent_iff (h : PlaceholderReports here names paths ds) :
    (∀ n, reportedAt (.duplicatePlaceholder n) ds = []) ↔ names.Nodup := by
  simp only [h.repeated, ite_eq_right_iff, List.cons_ne_nil, imp_false, Nat.not_le,
    List.nodup_iff_count_le_one, Nat.lt_succ_iff]

theorem rebound_silent_iff (h : PlaceholderReports here names paths ds) :
    (∀ n, reportedAt (.duplicatePathBinding n) ds = []) ↔
      ∀ n ∈ names, (paths.map Prod.snd).count n ≤ 1 := by
  have hcount (n : String) : (paths.map Prod.snd).count n
      = (paths.filter fun x => x.2 = n).length := by
    rw [List.count, List.countP_map, List.countP_eq_length_filter]
    rfl
  simp only [h.rebound, ite_eq_right_iff, List.map_eq_nil_iff, List.drop_eq_nil_iff, hcount]

/-- Nothing is reported about placeholders exactly when their names and those of the path
parameters match one to one. -/
theorem silent_iff (h : PlaceholderReports here names paths ds) :
    (∀ d ∈ ds, d.violation.isAboutPlaceholders = false) ↔ Matched names (paths.map Prod.snd) := by
  rw [forall_not_isAboutPlaceholders_iff, h.unfilled_silent_iff, h.unnamed_silent_iff,
    h.repeated_silent_iff, h.rebound_silent_iff, matched_iff]
  constructor
  · rintro ⟨hfilled, hnamed, hnames, honce⟩
    refine ⟨hnames, List.nodup_iff_count_le_one.mpr fun n => ?_, fun n => ⟨hfilled n, hnamed n⟩⟩
    by_cases hn : n ∈ names
    · exact honce n hn
    -- what is no placeholder is no path parameter's either
    · rw [List.count_eq_zero.mpr fun hbound => hn (hnamed n hbound)]
      exact Nat.zero_le 1
  · rintro ⟨hnames, hbound, hmem⟩
    exact ⟨fun n => (hmem n).mp, fun n => (hmem n).mpr, hnames,
      fun n _ => List.nodup_iff_count_le_one.mp hbound n⟩

end PlaceholderReports

/-! ## A function with a template -/

def FunctionMark.httpPath? : FunctionMark → Option (Option String)
  | .http _ path _ => some path
  | _ => none

namespace Marks

theorem httpCount_addAll (m : Marks) (marks : List FunctionMark) :
    (m.addAll marks).1.httpCount
      = m.httpCount + (marks.filterMap FunctionMark.httpPath?).length := by
  induction marks generalizing m with
  | nil => rfl
  | cons mark marks ih =>
    show ((m.add mark).1.addAll marks).1.httpCount = _
    rw [ih]
    cases mark with
    | http method path hasBody =>
      by_cases hfirst : m.httpCount = 0
      · simp [add, hfirst, FunctionMark.httpPath?, Nat.add_comm]
      · simp [add, hfirst, FunctionMark.httpPath?, Nat.add_assoc, Nat.add_comm 1]
    | headers values => rfl
    | form => rfl
    | multipart subtype =>
      rw [List.filterMap_cons_none rfl]
      cases hs : m.multipart <;> simp [add, hs]

theorem path_addAll (m : Marks) (marks : List FunctionMark) :
    (m.addAll marks).1.path
      = if m.httpCount = 0 then (marks.filterMap FunctionMark.httpPath?).head?.getD m.path
        else m.path := by
  induction marks generalizing m with
  | nil => simp [addAll]
  | cons mark marks ih =>
    show ((m.add mark).1.addAll marks).1.path = _
    rw [ih]
    cases mark with
    | http method path hasBody =>
      by_cases hfirst : m.httpCount = 0
      · simp [add, hfirst, FunctionMark.httpPath?]
      · simp [add, hfirst]
    | headers values => rfl
    | form => rfl
    | multipart subtype =>
      rw [List.filterMap_cons_none rfl]
      cases hs : m.multipart <;> simp [add, hs]

end Marks

namespace FunctionDecl

/-- A function whose URL is the template of its one HTTP mark. -/
structure HasTemplate (f : FunctionDecl) (template : String) : Prop where
  mark : f.marks.filterMap FunctionMark.httpPath? = [some template]
  noUrl : ∀ p ∈ f.parameters, .url ∉ p.roles

def pathParameters (f : FunctionDecl) : List (ParameterDecl × String) :=
  f.parameters.filterMap fun p => match p.roles with
    | [.path name] => some (p, p.bindingName name)
    | _ => none

variable {f : FunctionDecl} {template : String} {serializable : List String}

theorem HasTemplate.httpCount (h : f.HasTemplate template) : f.readMarks.1.httpCount = 1 := by
  show (Marks.none.addAll f.marks).1.httpCount = 1
  rw [Marks.httpCount_addAll, h.mark]
  rfl

theorem HasTemplate.path (h : f.HasTemplate template) : f.readMarks.1.path = some template := by
  show (Marks.none.addAll f.marks).1.path = some template
  rw [Marks.path_addAll, h.mark]
  rfl

theorem HasTemplate.urlParameters (h : f.HasTemplate template) :
    urlParameters (f.bound serializable) = [] := by
  refine List.eq_nil_iff_forall_not_mem.mpr fun p hp => ?_
  obtain ⟨hmem, hbind⟩ := mem_bound_iff.mp (mem_urlParameters_iff.mp hp)
  obtain ⟨role, hrole, hlower⟩ := ParameterDecl.bind_ok_iff.mp hbind
  cases role <;> simp only [ParameterDecl.lower, Prod.mk.injEq, reduceCtorEq, false_and] at hlower
  exact h.noUrl p hmem (hrole ▸ List.mem_cons_self)

theorem pathBindings_bound (hbind : ∀ p ∈ f.parameters, ∃ b, p.bind serializable = .ok b) :
    pathBindings (f.bound serializable) = f.pathParameters := by
  rw [pathBindings, bound, List.filterMap_filterMap]
  refine List.filterMap_congr fun p hp => ?_
  obtain ⟨b, hb⟩ := hbind p hp
  obtain ⟨role, hrole, hlower⟩ := ParameterDecl.bind_ok_iff.mp hb
  rw [hb, hrole]
  cases role <;> simp only [ParameterDecl.lower, Prod.mk.injEq] at hlower <;>
    obtain ⟨rfl, -⟩ := hlower <;> rfl

theorem HasTemplate.urlStep (h : f.HasTemplate template)
    (hbind : ∀ p ∈ f.parameters, ∃ b, p.bind serializable = .ok b) :
    (f.urlStep f.readMarks.1 (f.bound serializable)).2
      = f.templateDiagnostics template f.pathParameters := by
  simp only [FunctionDecl.urlStep, h.httpCount, h.path, checkUrl, h.urlParameters,
    pathBindings_bound hbind]
  rfl

/-! ## Each kind of report -/

section

variable {v : Violation} (hv : v.isAboutPlaceholders = true)

include hv

theorem ne_of_not_isAboutPlaceholders {w : Violation} (hw : w.isAboutPlaceholders = false) :
    w ≠ v := by
  rintro rfl
  exact absurd hv (by simp [hw])

theorem count_schemeViolations (template : String) : (schemeViolations template).count v = 0 := by
  refine List.count_eq_zero.mpr fun hmem => ?_
  unfold schemeViolations at hmem
  split at hmem
  · dsimp only at hmem
    split at hmem
    · cases hmem
    · exact ne_of_not_isAboutPlaceholders hv rfl (List.mem_singleton.mp hmem).symm
  · cases hmem

/-- Of the steps that check a template, three compare its placeholders with path parameters. -/
theorem reportedAt_templateDiagnostics (f : FunctionDecl) (template : String)
    (paths : List (ParameterDecl × String)) :
    let names := Template.names (Template.split template.toList).path
    reportedAt v (f.templateDiagnostics template paths)
      = List.replicate (((repeated [] [] names).map .duplicatePlaceholder).count v
            + (((distinct [] names).filter fun n => !(paths.map Prod.snd).contains n).map
              .placeholderWithoutParameter).count v) f.location
          ++ reportedAt v (pathBindingDiagnostics names [] paths) := by
  have hne {w : Violation} (hw : w.isAboutPlaceholders = false) : w ≠ v :=
    ne_of_not_isAboutPlaceholders hv hw
  simp only [templateDiagnostics, reportedAt_append, reportedAt_here, List.count_append,
    count_schemeViolations hv, Nat.zero_add,
    count_map_of_ne (fun s => .traversalInTemplate (String.ofList s)) fun _ => hne rfl,
    count_map_of_ne .malformedPlaceholder fun _ => hne rfl,
    count_map_of_ne .placeholderOutsidePath fun _ => hne rfl]

end

/-- What is reported of path parameters compares them with placeholders one by one. -/
theorem reportedAt_pathBindingDiagnostics {v : Violation}
    (hunnamed : ∀ name, .parameterWithoutPlaceholder name ≠ v)
    (hrebound : ∀ n, .duplicatePathBinding n ≠ v) (names seen : List String)
    (paths : List (ParameterDecl × String)) :
    reportedAt v (pathBindingDiagnostics names seen paths) = [] := by
  refine reportedAt_eq_nil_iff.mpr fun d hd he => ?_
  rcases violation_of_mem_pathBindingDiagnostics hd with ⟨name, hname⟩ | ⟨n, hn⟩
  · exact hunnamed name (hname.symm.trans he)
  · exact hrebound n (hn.symm.trans he)

theorem replicate_ite_one {α : Type} (c : Prop) [Decidable c] (a : α) :
    List.replicate (if c then 1 else 0) a = if c then [a] else [] := by
  split <;> rfl

/-- **What the check of a template reports about its placeholders.** -/
theorem templateReports (f : FunctionDecl) (template : String)
    (paths : List (ParameterDecl × String)) :
    PlaceholderReports f.location (Template.names (Template.split template.toList).path) paths
      (f.templateDiagnostics template paths) where
  unfilled n := by
    rw [reportedAt_templateDiagnostics rfl, count_map_of_ne .duplicatePlaceholder (by simp),
      List.count_map_of_injective _ _ fun _ _ => Violation.placeholderWithoutParameter.inj,
      ((nodup_distinct _ _).filter _).count, reportedAt_pathBindingDiagnostics (by simp) (by simp),
      Nat.zero_add, List.append_nil, replicate_ite_one]
    exact if_congr (by simp [mem_distinct_iff]) rfl rfl
  unnamed name := by
    rw [reportedAt_templateDiagnostics rfl, count_map_of_ne .duplicatePlaceholder (by simp),
      count_map_of_ne .placeholderWithoutParameter (by simp),
      reportedAt_parameterWithoutPlaceholder]
    rfl
  repeated n := by
    rw [reportedAt_templateDiagnostics rfl, count_map_of_ne .placeholderWithoutParameter (by simp),
      List.count_map_of_injective _ _ fun _ _ => Violation.duplicatePlaceholder.inj,
      (nodup_repeated _ _ _).count, reportedAt_pathBindingDiagnostics (by simp) (by simp),
      Nat.add_zero, List.append_nil, replicate_ite_one]
    exact if_congr (by simp [mem_repeated_iff]) rfl rfl
  rebound n := by
    rw [reportedAt_templateDiagnostics rfl, count_map_of_ne .duplicatePlaceholder (by simp),
      count_map_of_ne .placeholderWithoutParameter (by simp), reportedAt_duplicatePathBinding]
    rfl

/-- **What is reported about placeholders is what their names and those of the path parameters
differ in**, each difference once and in its place; so nothing is when they match one to one. -/
theorem placeholders_reported (hf : f.HasTemplate template)
    (hbind : ∀ p ∈ f.parameters, ∃ b, p.bind serializable = .ok b) :
    let names := Template.names (Template.split template.toList).path
    let ds := (f.urlStep f.readMarks.1 (f.bound serializable)).2
    PlaceholderReports f.location names f.pathParameters ds ∧
      ((∀ d ∈ ds, d.violation.isAboutPlaceholders = false) ↔
        Matched names (f.pathParameters.map Prod.snd)) := by
  intro names ds
  have hds : ds = f.templateDiagnostics template f.pathParameters := hf.urlStep hbind
  have hreports : PlaceholderReports f.location names f.pathParameters ds :=
    hds ▸ templateReports f template f.pathParameters
  exact ⟨hreports, hreports.silent_iff⟩

/-- A function with a placeholder and a parameter too many, and with names that stand again. -/
def jumbled : FunctionDecl where
  name := "f"
  marks := [.headers ["A: b"],
    .http "GET" (some "{x}/{y}/{x}/{z}/{x}") none]
  isSuspending := true
  hasDefaultBody := false
  typeParameters := []
  parameters := [⟨"x", .named "Int", [.path none], ⟨"s", 1, 1⟩⟩,
    ⟨"again", .named "Int", [.path (some "x")], ⟨"s", 2, 1⟩⟩,
    ⟨"w", .named "Int", [.path none], ⟨"s", 3, 1⟩⟩,
    ⟨"y", .named "Int", [.path none], ⟨"s", 4, 1⟩⟩,
    ⟨"q", .named "Int", [.query none], ⟨"s", 5, 1⟩⟩,
    ⟨"more", .named "Int", [.path (some "x")], ⟨"s", 6, 1⟩⟩]
  returnType := .named "Unit"
  location := ⟨"s", 0, 1⟩

theorem placeholders_reported_jumbled :
    jumbled.HasTemplate "{x}/{y}/{x}/{z}/{x}" ∧
      (∀ p ∈ jumbled.parameters, ∃ b, p.bind [] = .ok b) ∧
      let ds := (jumbled.urlStep jumbled.readMarks.1 (jumbled.bound [])).2
      reportedAt (.placeholderWithoutParameter "z") ds = [⟨"s", 0, 1⟩] ∧
        reportedAt (.placeholderWithoutParameter "x") ds = [] ∧
        reportedAt (.parameterWithoutPlaceholder "w") ds = [⟨"s", 3, 1⟩] ∧
        reportedAt (.duplicatePlaceholder "x") ds = [⟨"s", 0, 1⟩] ∧
        reportedAt (.duplicatePathBinding "x") ds = [⟨"s", 2, 1⟩, ⟨"s", 6, 1⟩] ∧
        ¬ ∀ d ∈ ds, d.violation.isAboutPlaceholders = false := by
  have hf : jumbled.HasTemplate "{x}/{y}/{x}/{z}/{x}" :=
    ⟨rfl, by decide⟩
  have hbind : ∀ p ∈ jumbled.parameters, ∃ b, p.bind [] = .ok b := by
    simp only [jumbled, List.forall_mem_cons, List.not_mem_nil, false_imp_iff, implies_true,
      and_true]
    exact ⟨⟨.path "x", by decide +kernel⟩, ⟨.path "x", by decide +kernel⟩,
      ⟨.path "w", by decide +kernel⟩, ⟨.path "y", by decide +kernel⟩,
      ⟨.query ⟨some "q", "q", .single⟩, by decide +kernel⟩, ⟨.path "x", by decide +kernel⟩⟩
  obtain ⟨hreports, hsilent⟩ := placeholders_reported hf hbind
  refine ⟨hf, hbind, (hreports.unfilled "z").trans (by decide +kernel),
    (hreports.unfilled "x").trans (by decide +kernel),
    (hreports.unnamed "w").trans (by decide +kernel),
    (hreports.repeated "x").trans (by decide +kernel),
    (hreports.rebound "x").trans (by decide +kernel), fun hnone => ?_⟩
  exact absurd (matched_iff.mp (hsilent.mp hnone)).1 (by decide +kernel)

end FunctionDecl

end HttpService
