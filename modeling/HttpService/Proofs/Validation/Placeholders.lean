import HttpService.Proofs.Template.Pieces
import HttpService.Proofs.Validation.Endpoints
import Mathlib.Data.List.Nodup
import Mathlib.Data.List.Perm.Basic

/-!
# Placeholders and path parameters

A template is accepted with the path parameters of a function exactly when its parts are in order
and every placeholder is filled by exactly one parameter (`templateDiagnostics_eq_nil_iff`).  That
the names agree is checked in four steps: no placeholder twice, none without a parameter, no
parameter without a placeholder, and no placeholder with two parameters.  Together they say that
the names that are bound are those of the placeholders, in some order.

The steps keep a record of the names that they saw.  What a step reports from a given record on is
stated for every record (`mem_distinct_iff`, `mem_repeated_iff`,
`reportedAt_duplicatePathBinding`), since the recursion changes it.
-/

namespace HttpService

/-- Where a violation is reported, in order. -/
def reportedAt (v : Violation) (ds : List Diagnostic) : List Location :=
  (ds.filter fun d => d.violation = v).map (·.location)

theorem reportedAt_cons (v : Violation) (d : Diagnostic) (ds : List Diagnostic) :
    reportedAt v (d :: ds)
      = if d.violation = v then d.location :: reportedAt v ds else reportedAt v ds := by
  by_cases h : d.violation = v <;> simp [reportedAt, h]

theorem reportedAt_append (v : Violation) (ds es : List Diagnostic) :
    reportedAt v (ds ++ es) = reportedAt v ds ++ reportedAt v es := by
  rw [reportedAt, List.filter_append, List.map_append]
  rfl

theorem reportedAt_eq_nil_iff {v : Violation} {ds : List Diagnostic} :
    reportedAt v ds = [] ↔ ∀ d ∈ ds, d.violation ≠ v := by
  simp [reportedAt]

namespace FunctionDecl

theorem count_map_of_ne {α : Type} (make : α → Violation) {v : Violation} (h : ∀ a, make a ≠ v)
    (l : List α) : (l.map make).count v = 0 := by
  refine List.count_eq_zero.mpr fun hmem => ?_
  obtain ⟨a, -, ha⟩ := List.mem_map.mp hmem
  exact h a ha

theorem reportedAt_here (v : Violation) (f : FunctionDecl) (vs : List Violation) :
    reportedAt v (f.here vs) = List.replicate (vs.count v) f.location := by
  induction vs with
  | nil => rfl
  | cons w vs ih =>
    show reportedAt v (⟨f.location, w⟩ :: f.here vs) = _
    rw [reportedAt_cons, ih]
    by_cases h : w = v
    · rw [if_pos h, h, List.count_cons_self, List.replicate_succ]
    · rw [if_neg h, List.count_cons_of_ne h]

theorem nodup_distinct (seen names : List String) : (distinct seen names).Nodup := by
  induction names generalizing seen with
  | nil => exact List.nodup_nil
  | cons n names ih =>
    rw [distinct]
    split
    · exact ih seen
    · refine List.nodup_cons.mpr ⟨fun h => ?_, ih (n :: seen)⟩
      exact (mem_distinct_iff.mp h).2 List.mem_cons_self

/-- A name is told as repeated when it stands twice, or once more after it was seen. -/
theorem mem_repeated_iff {n : String} {seen told names : List String} :
    n ∈ repeated seen told names ↔
      n ∉ told ∧ (2 ≤ names.count n ∨ n ∈ seen ∧ n ∈ names) := by
  induction names generalizing seen told with
  | nil => simp [repeated]
  | cons m names ih =>
    rw [repeated]
    by_cases hnm : n = m
    · subst hnm
      by_cases hseen : n ∈ seen
      · by_cases htold : n ∈ told
        · simp [hseen, htold, ih]
        · simp [hseen, htold]
      -- the first occurrence only puts the name on record, so another one has to follow
      · have hone : 0 < names.count n ↔ n ∈ names := List.count_pos_iff
        simp only [List.contains_eq_mem, hseen, decide_false, Bool.not_false, if_true, ih,
          List.mem_cons_self, true_and, List.count_cons_self, false_and, or_false, ← hone]
        exact and_congr_right fun _ => by omega
    · by_cases hseen : m ∈ seen
      · by_cases htold : m ∈ told
        · simp [hseen, htold, ih, hnm, Ne.symm hnm]
        · simp [hseen, htold, ih, hnm, Ne.symm hnm]
      · simp [hseen, ih, hnm, Ne.symm hnm]

theorem nodup_repeated (seen told names : List String) : (repeated seen told names).Nodup := by
  induction names generalizing seen told with
  | nil => exact List.nodup_nil
  | cons n names ih =>
    rw [repeated]
    split
    · exact ih (n :: seen) told
    · split
      · exact ih seen told
      · refine List.nodup_cons.mpr ⟨fun h => ?_, ih seen (n :: told)⟩
        exact (mem_repeated_iff.mp h).1 List.mem_cons_self

theorem repeated_eq_nil_iff {names : List String} : repeated [] [] names = [] ↔ names.Nodup := by
  simp only [List.eq_nil_iff_forall_not_mem, mem_repeated_iff, List.not_mem_nil, not_false_eq_true,
    false_and, or_false, true_and, Nat.not_le, List.nodup_iff_count_le_one, Nat.lt_succ_iff]

/-- The rules about path parameters speak of a missing placeholder or of a second binding. -/
theorem violation_of_mem_pathBindingDiagnostics {names seen : List String}
    {paths : List (ParameterDecl × String)} {d : Diagnostic}
    (h : d ∈ pathBindingDiagnostics names seen paths) :
    (∃ n, d.violation = .parameterWithoutPlaceholder n) ∨
      ∃ n, d.violation = .duplicatePathBinding n := by
  induction paths generalizing seen with
  | nil => cases h
  | cons x paths ih =>
    rw [pathBindingDiagnostics] at h
    split at h
    · rcases List.mem_cons.mp h with rfl | h
      · exact Or.inl ⟨_, rfl⟩
      · exact ih h
    · split at h
      · rcases List.mem_cons.mp h with rfl | h
        · exact Or.inr ⟨_, rfl⟩
        · exact ih h
      · exact ih h

/-- Each path parameter without a placeholder is reported. -/
theorem reportedAt_parameterWithoutPlaceholder (names seen : List String) (name : String)
    (paths : List (ParameterDecl × String)) :
    reportedAt (.parameterWithoutPlaceholder name) (pathBindingDiagnostics names seen paths)
      = (paths.filter fun x => x.2 ∉ names ∧ x.1.name = name).map fun x => x.1.location := by
  induction paths generalizing seen with
  | nil => rfl
  | cons x paths ih =>
    rw [pathBindingDiagnostics]
    by_cases hnamed : x.2 ∈ names
    · by_cases hseen : x.2 ∈ seen
      · simp [hnamed, hseen, reportedAt_cons, ih]
      · simp [hnamed, hseen, ih]
    · by_cases hname : x.1.name = name
      · simp [hnamed, hname, reportedAt_cons, ih]
      · simp [hnamed, hname, reportedAt_cons, ih]

/-- Each binding of a placeholder is reported, except the first. -/
theorem reportedAt_duplicatePathBinding (names seen : List String) (n : String)
    (paths : List (ParameterDecl × String)) :
    reportedAt (.duplicatePathBinding n) (pathBindingDiagnostics names seen paths)
      = if n ∈ names then
          ((paths.filter fun x => x.2 = n).drop (if n ∈ seen then 0 else 1)).map
            fun x => x.1.location
        else [] := by
  induction paths generalizing seen with
  | nil => simp [pathBindingDiagnostics, reportedAt]
  | cons x paths ih =>
    rw [pathBindingDiagnostics]
    by_cases hx : x.2 = n
    · subst hx
      by_cases hnamed : x.2 ∈ names
      · by_cases hseen : x.2 ∈ seen
        · simp [hnamed, hseen, reportedAt_cons, ih]
        · simp [hnamed, hseen, ih]
      · simp [hnamed, reportedAt_cons, ih]
    · by_cases hnamed : x.2 ∈ names
      · by_cases hseen : x.2 ∈ seen
        · simp [hnamed, hseen, hx, reportedAt_cons, ih]
        · simp [hnamed, hseen, hx, Ne.symm hx, ih]
      · simp [hnamed, hx, reportedAt_cons, ih]

/-- Nothing is wrong with path parameters exactly when each has a placeholder of its own. -/
theorem pathBindingDiagnostics_eq_nil_iff {names seen : List String}
    {paths : List (ParameterDecl × String)} :
    pathBindingDiagnostics names seen paths = [] ↔
      (∀ n ∈ paths.map Prod.snd, n ∈ names) ∧ (paths.map Prod.snd).Nodup ∧
        ∀ n ∈ paths.map Prod.snd, n ∉ seen := by
  induction paths generalizing seen with
  | nil => simp [pathBindingDiagnostics]
  | cons x paths ih =>
    obtain ⟨p, n⟩ := x
    rw [pathBindingDiagnostics]
    by_cases hname : n ∈ names
    · by_cases hn : n ∈ seen
      · simp [hname, hn]
      · simp only [List.contains_eq_mem, hname, decide_true, Bool.not_true, Bool.false_eq_true,
          if_false, hn, decide_false, ih, List.map_cons, List.nodup_cons, List.forall_mem_cons,
          not_false_eq_true, true_and]
        constructor
        · rintro ⟨hnames, hnodup, hseen⟩
          exact ⟨hnames, ⟨fun hmem => hseen n hmem List.mem_cons_self, hnodup⟩,
            fun m hm hs => hseen m hm (List.mem_cons_of_mem n hs)⟩
        · rintro ⟨hnames, ⟨hmem, hnodup⟩, hseen⟩
          refine ⟨hnames, hnodup, fun m hm hs => ?_⟩
          rcases List.mem_cons.mp hs with rfl | hs
          · exact hmem hm
          · exact hseen m hm hs
    · simp [hname]

/-- **Nothing is wrong with a template and its path parameters exactly when the template is in
order and the parameters fill its placeholders one by one.** -/
theorem templateDiagnostics_eq_nil_iff {f : FunctionDecl} {template : String}
    {paths : List (ParameterDecl × String)} :
    f.templateDiagnostics template paths = [] ↔
      let parts := Template.split template.toList
      schemeViolations template = [] ∧ Template.traversalSegment? parts.path = none ∧
        (Template.scan parts.path).malformed = [] ∧
        (∀ t ∈ parts.query.toList ++ parts.fragment.toList, Template.names t = []) ∧
        (Template.names parts.path).Nodup ∧
        (paths.map Prod.snd).Perm (Template.names parts.path) := by
  have hperm {names : List String} (hnames : names.Nodup) :
      (paths.map Prod.snd).Perm names ↔
        (∀ n ∈ names, n ∈ paths.map Prod.snd) ∧ (∀ n ∈ paths.map Prod.snd, n ∈ names) ∧
          (paths.map Prod.snd).Nodup := by
    constructor
    · exact fun h => ⟨fun n => h.mem_iff.mpr, fun n => h.mem_iff.mp, h.nodup_iff.mpr hnames⟩
    · rintro ⟨hfilled, hnamed, hnodup⟩
      exact (List.perm_ext_iff_of_nodup hnodup hnames).mpr fun n => ⟨hnamed n, hfilled n⟩
  have hfilled (names : List String) :
      ((distinct [] names).filter fun n => !(paths.map Prod.snd).contains n) = [] ↔
        ∀ n ∈ names, n ∈ paths.map Prod.snd := by
    simp only [List.filter_eq_nil_iff, mem_distinct_iff, List.not_mem_nil, not_false_eq_true,
      and_true, Bool.not_eq_true', Bool.not_eq_false, List.contains_iff_mem]
  have hnone (o : Option (List Char)) : o.toList = [] ↔ o = none := by cases o <;> simp
  simp only [templateDiagnostics, List.append_eq_nil_iff, here_eq_nil_iff, List.map_eq_nil_iff,
    List.flatMap_eq_nil_iff, repeated_eq_nil_iff, pathBindingDiagnostics_eq_nil_iff, hfilled,
    hnone, List.not_mem_nil, not_false_eq_true, implies_true, and_true]
  constructor
  · rintro ⟨⟨⟨⟨⟨⟨hscheme, htraversal⟩, hmalformed⟩, htail⟩, hnodup⟩, hnames⟩, hbound⟩
    exact ⟨hscheme, htraversal, hmalformed, htail, hnodup, (hperm hnodup).mpr ⟨hnames, hbound⟩⟩
  · rintro ⟨hscheme, htraversal, hmalformed, htail, hnodup, hfill⟩
    obtain ⟨hnames, hbound⟩ := (hperm hnodup).mp hfill
    exact ⟨⟨⟨⟨⟨⟨hscheme, htraversal⟩, hmalformed⟩, htail⟩, hnodup⟩, hnames⟩, hbound⟩

end FunctionDecl

end HttpService
