import HttpService.Validation.Services

/-!
# What one pass reports

A check only ever adds to the diagnostics that it is handed, and adds the same ones whatever was
reported before it: `Check.Reports` says which ones, and what the check makes of the declaration.
Checks that follow one another report one list after the other (`Reports.bind`).  A check that is
watched knows whether its own list is empty (`Reports.watch`), however many marks were taken before
its own.

So every check of a pass has the list of violations beside it for its report, and the pass over a
service finds the diagnostics of the declared type and then those of one function after another
(`ServiceDecl.analyze_eq`).
-/

namespace HttpService

namespace Check

/-- A check that comes to `a` and reports `ds`, from any diagnostics on. -/
def Reports {α : Type} (c : Check α) (a : α) (ds : List Diagnostic) : Prop :=
  ∀ seen, c.run seen = (a, seen ++ ds)

/-- Violations that are found at one place. -/
def found (location : Location) (vs : List Violation) : List Diagnostic :=
  vs.map fun v => ⟨location, v⟩

variable {α β : Type} {c : Check α} {a : α} {b : β} {ds es : List Diagnostic}
  {location : Location} {v : Violation}

theorem found_append (vs ws : List Violation) :
    found location (vs ++ ws) = found location vs ++ found location ws :=
  List.map_append

/-! ## One check after another -/

theorem reports_return (a : α) : Reports (return a) a [] := by
  intro seen
  rw [List.append_nil]
  rfl

theorem Reports.bind {f : α → Check β} (hc : c.Reports a ds) (hf : (f a).Reports b es) :
    (c >>= f).Reports b (ds ++ es) := by
  intro seen
  rw [StateT.run_bind, hc seen, ← List.append_assoc, ← hf (seen ++ ds)]
  rfl

/-- At one place, the violations of two checks follow one another. -/
theorem Reports.bind_found {vs ws : List Violation} {f : α → Check β}
    (hc : c.Reports a (found location vs)) (hf : (f a).Reports b (found location ws)) :
    (c >>= f).Reports b (found location (vs ++ ws)) := by
  rw [found_append]
  exact hc.bind hf

theorem Reports.map (hc : c.Reports a ds) (g : α → β) :
    (do let x ← c; return g x : Check β).Reports (g a) ds := by
  rw [← List.append_nil ds]
  exact hc.bind (reports_return (g a))

theorem Reports.congr {a' : α} (h : c.Reports a ds) (ha : a = a') (hds : ds = es) :
    c.Reports a' es := by
  rw [← ha, ← hds]
  exact h

/-- What is watched knows its own report from all that was there before it. -/
theorem Reports.watch (h : c.Reports a ds) : (watch c).Reports (a, !ds.isEmpty) ds := by
  intro seen
  have hsince : decide (seen.length < (seen ++ ds).length) = !ds.isEmpty := by
    cases ds with
    | nil => simp
    | cons d ds => simp
  rw [← hsince]
  show (do let a ← c; return (a, ← since seen.length) : Check (α × Bool)).run seen = _
  rw [StateT.run_bind, h seen]
  rfl

/-! ## Single reports -/

theorem reports_report (location : Location) (v : Violation) :
    (report location v).Reports () (found location [v]) := by
  intro seen
  rfl

theorem reports_when (broken : Prop) [Decidable broken] :
    (reportIf broken location v).Reports () (found location (if broken then [v] else [])) := by
  unfold reportIf
  split
  · exact reports_report location v
  · exact reports_return ()

theorem reports_unless (fine : Bool) :
    (reportIf (!fine) location v).Reports () (found location (if fine then [] else [v])) := by
  cases fine with
  | false => exact reports_report location v
  | true => exact reports_return ()

theorem reports_reportAll (vs : List Violation) :
    (reportAll location vs).Reports () (found location vs) := by
  induction vs with
  | nil => exact reports_return ()
  | cons v vs ih => exact (reports_report location v).bind ih

end Check

open Check

/-! ## Types -/

namespace TypeExpr

variable {serializable : List String} {location : Location} {root : TypeExpr}
  {position : Position}

theorem reports_checkNode (top : Bool) (t : TypeExpr) :
    (checkNode serializable location root position top t).Reports
      (nodeViolations serializable root position top t).2
      (found location (nodeViolations serializable root position top t).1) := by
  unfold checkNode nodeViolations
  split
  · exact (reports_report _ _).map fun _ => false
  · cases t.family? with
    | none =>
      dsimp only
      unfold checkName
      cases position.context? with
      | none => exact reports_return true
      | some context =>
        refine ((reports_unless _).map fun _ => true).congr ?_ ?_
        · dsimp only
          split <;> rfl
        · dsimp only
          split <;> rfl
    | some family =>
      cases family
      case result => exact (reports_report _ _).map fun _ => false
      -- the other families differ in their arity only, and in whether they are byte streams
      all_goals
        dsimp only
        split
        · exact (reports_report _ _).map fun _ => false
        · refine ((reports_when _).map fun _ => true).congr ?_ ?_
          · split <;> rfl
          · split <;> simp_all

mutual

theorem reports_checkTree (top : Bool) : (t : TypeExpr) →
    (checkTree serializable location root position top t).Reports ()
      (found location (walk serializable root position top t))
  | mk n b as => by
    rw [checkTree, walk, found_append]
    refine (reports_checkNode top (mk n b as)).bind ?_
    split
    · exact reports_checkTrees as
    · exact reports_return ()

theorem reports_checkTrees : (ts : List TypeExpr) →
    (checkTrees serializable location root position ts).Reports ()
      (found location (walkAll serializable root position ts))
  | [] => reports_return ()
  | t :: rest => by
    rw [checkTrees, walkAll]
    exact (reports_checkTree false t).bind_found (reports_checkTrees rest)

end

/-- **A type is fine in a position exactly when it has no violation there.** -/
theorem reports_check (position : Position) (t : TypeExpr) :
    (t.check serializable location position).Reports (t.violations serializable position).isEmpty
      (found location (t.violations serializable position)) := by
  refine ((reports_checkTree true t).watch.map fun x => !x.2).congr ?_ rfl
  rw [Bool.not_not, found, List.isEmpty_map]
  rfl

theorem check_eq_true_iff (t : TypeExpr) (seen : List Diagnostic) :
    ((t.check serializable location position).run seen).1 = true ↔
      t.violations serializable position = [] := by
  rw [reports_check position t seen]
  exact List.isEmpty_iff

theorem reports_checkShape (t : TypeExpr) :
    (t.checkShape serializable location).Reports (t.returnShape serializable).1
      (found location (t.returnShape serializable).2) := by
  unfold checkShape returnShape
  by_cases hresult : t.family? = some .result
  · rw [if_pos hresult, if_pos hresult]
    cases t.arguments with
    | nil => exact (reports_report _ _).map fun _ => ReturnShape.plain t
    | cons argument rest =>
      cases rest with
      | nil =>
        dsimp only
        split
        · exact reports_return _
        · exact (reports_checkTree true argument).map fun _ => ReturnShape.wrapped argument
      | cons second rest => exact (reports_report _ _).map fun _ => ReturnShape.plain t
  · rw [if_neg hresult, if_neg hresult]
    exact (reports_checkTree true t).map fun _ => ReturnShape.plain t

theorem reports_checkResult (method : Method) (t : TypeExpr) :
    (t.checkResult serializable location method).Reports (t.checkReturn serializable method).1
      (found location (t.checkReturn serializable method).2) := by
  unfold checkResult checkReturn
  exact (reports_checkShape t).bind_found ((reports_when _).map fun _ => _)

end TypeExpr

/-! ## Parameters -/

theorem reports_checkHeaderName (name : String) :
    (checkHeaderName location name).Reports () (found location (headerNameViolations name)) := by
  unfold checkHeaderName headerNameViolations
  cases Lexical.checkHeaderName name with
  | error reason => exact reports_report _ _
  | ok _ => exact reports_when _

theorem reports_checkContentType (contentType : String) :
    (checkContentType location contentType).Reports ()
      (found location (contentTypeViolations contentType)) := by
  unfold checkContentType contentTypeViolations
  cases Lexical.checkMediaType contentType with
  | error reason => exact reports_report _ _
  | ok _ => exact reports_return ()

theorem reports_checkPartType (explicit : Option String) (value : TypeExpr) :
    (checkPartType location explicit value).Reports (explicit.getD (defaultPartType value))
      (found location ((explicit.map contentTypeViolations).getD [])) := by
  cases explicit with
  | none => exact reports_return _
  | some contentType => exact (reports_checkContentType contentType).map fun _ => contentType

namespace ParameterDecl

variable {serializable : List String} (p : ParameterDecl) (role : Role)

theorem reports_checkBindingName (explicit : Option String) :
    (p.checkBindingName role explicit).Reports (p.bindingName explicit)
      (found p.location (p.nameViolations role explicit)) := by
  cases explicit with
  | none => exact reports_return p.name
  | some name =>
    refine ((reports_when _).map fun _ => name).congr rfl ?_
    unfold nameViolations
    simp only [Option.some.injEq]

theorem reports_checkMap :
    (p.checkMap role).Reports p.mapKind (found p.location (p.mapViolations role)) := by
  unfold checkMap mapKind mapViolations
  cases p.type.mapShape? with
  | none => exact (reports_report _ _).map fun _ => TypeExpr.MapKind.map
  | some shape =>
    obtain ⟨kind, key, value⟩ := shape
    refine Reports.map (a := ()) ?_ fun _ => kind
    cases key with
    | none => exact reports_return ()
    | some key =>
      unfold checkKey
      dsimp only
      split
      · exact reports_report _ _
      · exact reports_when _

theorem reports_checkType (position : Position) :
    (p.checkType serializable position).Reports
      (p.type.violations serializable position).isEmpty
      (found p.location (p.type.violations serializable position)) :=
  TypeExpr.reports_check position p.type

/-- **What a role asks of a parameter.** -/
theorem reports_checkRole :
    (p.checkRole serializable role).Reports (p.lower serializable role).1
      (found p.location (p.lower serializable role).2) := by
  have hname := p.reports_checkBindingName role
  have hmap := p.reports_checkMap role
  have htype (position : Position) :
      (p.checkType serializable position).Reports _ _ := p.reports_checkType position
  cases role with
  | path name =>
    have hpath : (reportIf (p.type.isIterable || p.type.mapShape?.isSome || p.type.isByteStream)
        p.location (.pathParameterNotScalar p.name p.type.display)).Reports () _ := reports_when _
    refine ((hname name).bind_found ((reports_when _).bind_found (hpath.bind_found
      ((htype .argument).map fun _ => Binding.path (p.bindingName name))))).congr rfl ?_
    simp only [lower, pathViolations, List.append_assoc]
  | url => exact (reports_when _).map fun _ => Binding.url
  | query name => exact (hname name).bind_found ((htype .argument).map fun _ => _)
  | queryMap => exact hmap.bind_found ((htype .argument).map fun _ => _)
  | header name =>
    exact (reports_checkHeaderName name).bind_found ((htype .argument).map fun _ => _)
  | headerMap => exact hmap.bind_found ((htype .argument).map fun _ => _)
  | field name => exact (hname name).bind_found ((htype .field).map fun _ => _)
  | fieldMap => exact hmap.bind_found ((htype .field).map fun _ => _)
  | part name contentType =>
    refine ((hname name).bind_found ((htype .part).bind_found
      ((reports_checkPartType contentType _).map fun _ => _))).congr rfl ?_
    simp only [lower, List.append_assoc]
  | partMap contentType =>
    refine (hmap.bind_found ((htype .part).bind_found
      ((reports_checkPartType contentType _).map fun _ => _))).congr rfl ?_
    simp only [lower, List.append_assoc]
  | body contentType =>
    exact (htype .body).bind_found ((reports_checkContentType _).map fun _ => _)

def violations (serializable : List String) (p : ParameterDecl) : List Violation :=
  match p.bind serializable with
  | .ok _ => []
  | .error vs => vs

/-- **A parameter gets its binding exactly when nothing is reported of it.** -/
theorem reports_check :
    (p.check serializable).Reports (p.bind serializable).toOption
      (found p.location (p.violations serializable)) := by
  unfold check violations bind
  cases p.roles with
  | nil => exact (reports_report _ _).map fun _ => none
  | cons role rest =>
    cases rest with
    | nil =>
      have hrole : (watch (p.checkRole serializable role)).Reports _ _ :=
        (p.reports_checkRole role).watch
      refine (hrole.map fun x => if x.2 then none else some x.1).congr ?_ ?_
      · dsimp only
        rcases p.lower serializable role with ⟨binding, _ | ⟨v, vs⟩⟩ <;> rfl
      · dsimp only
        rcases p.lower serializable role with ⟨binding, _ | ⟨v, vs⟩⟩ <;> rfl
    | cons second rest => exact (reports_report _ _).map fun _ => none

end ParameterDecl

/-! ## Marks -/

namespace Marks

theorem reports_checkMethod (name : String) (hasBody : Option Bool) :
    (checkMethod location name hasBody).Reports (readMethod name hasBody).1
      (found location (readMethod name hasBody).2) := by
  unfold checkMethod readMethod
  cases method? name hasBody with
  | ok method => exact reports_return (some method)
  | error reason => exact (reports_report _ _).map fun _ => Option.none

theorem reports_checkSubtype (subtype : String) :
    (checkSubtype location subtype).Reports () (found location (subtypeViolations subtype)) := by
  unfold checkSubtype subtypeViolations
  cases Lexical.checkToken subtype with
  | ok _ => exact reports_return ()
  | error reason => exact reports_report _ _

theorem reports_checkMark (m : Marks) (mark : FunctionMark) :
    (m.checkMark location mark).Reports (m.add mark).1 (found location (m.add mark).2) := by
  unfold checkMark add
  cases mark with
  | http method path hasBody =>
    dsimp only
    split
    · exact (reports_checkMethod method hasBody).map fun method =>
        { m with httpCount := 1, method, path }
    · exact reports_return _
  | headers values => exact (reports_when _).map fun _ => _
  | form => exact (reports_when _).map fun _ => _
  | multipart subtype =>
    dsimp only
    split
    · exact (reports_report _ _).map fun _ => m
    · exact (reports_checkSubtype _).map fun _ => _

theorem reports_checkMarks (m : Marks) (marks : List FunctionMark) :
    (m.checkMarks location marks).Reports (m.addAll marks).1
      (found location (m.addAll marks).2) := by
  induction marks generalizing m with
  | nil => exact reports_return m
  | cons mark rest ih =>
    rw [checkMarks, addAll]
    exact (reports_checkMark m mark).bind_found (ih _)

theorem reports_checkCount (m : Marks) (function : String) :
    (m.checkCount location function).Reports () (found location (m.countViolations function)) := by
  unfold checkCount countViolations
  rcases m.httpCount with _ | _ | n
  · exact reports_report _ _
  · exact reports_return ()
  · exact reports_report _ _

end Marks

/-! ## Functions -/

namespace FunctionDecl

variable {serializable : List String} {place : Location} (f : FunctionDecl)

theorem reports_checkMarks :
    f.checkMarks.Reports f.readMarks.1 (f.here f.readMarks.2) :=
  (Marks.reports_checkMarks _ f.marks).bind_found
    ((Marks.reports_checkCount _ f.name).map fun _ => _)

theorem reports_checkHeaderValue (name value : String) :
    (checkHeaderValue place name value).Reports () (found place
      (match Lexical.checkHeaderValue value with
        | .ok () => []
        | .error reason => [.invalidHeaderValue name reason])) := by
  unfold checkHeaderValue
  cases Lexical.checkHeaderValue value with
  | ok _ => exact reports_return ()
  | error reason => exact reports_report _ _

theorem reports_checkHeaders (texts : List String) :
    (checkHeaders place texts).Reports (staticHeaders texts).1
      (found place (staticHeaders texts).2) := by
  induction texts with
  | nil => exact reports_return []
  | cons text rest ih =>
    have hcons : staticHeaders (text :: rest)
        = ((staticHeader text).1.toList ++ (staticHeaders rest).1,
          (staticHeader text).2 ++ (staticHeaders rest).2) := by
      unfold staticHeaders
      cases h : (staticHeader text).1 <;> simp [h]
    rw [hcons, found_append, checkHeaders, staticHeader]
    cases Text.cut (· == ':') text.toList with
    | none => exact (reports_report _ _).bind ih
    | some cut =>
      obtain ⟨name, value⟩ := cut
      refine ((reports_checkHeaderName _).bind
        ((reports_checkHeaderValue _ _).bind (ih.map fun headers => _ :: headers))).congr rfl ?_
      exact (List.append_assoc _ _ _).symm.trans (congrArg (· ++ _) (found_append _ _).symm)

theorem reports_checkParameters (ps : List ParameterDecl) :
    (checkParameters serializable ps).Reports
      (ps.filterMap fun p => (p.bind serializable).toOption.map fun b => (p, b))
      (ps.flatMap fun p => found p.location (p.violations serializable)) := by
  induction ps with
  | nil => exact reports_return []
  | cons p rest ih =>
    rw [checkParameters, List.flatMap_cons]
    refine (p.reports_check.bind (ih.map fun bound => _)).congr ?_ rfl
    cases h : (p.bind serializable).toOption with
    | none => rw [List.filterMap_cons_none (by rw [h]; rfl)]
    | some b => rw [List.filterMap_cons_some (by rw [h]; rfl)]

theorem parameterDiagnostics_eq :
    f.parameterDiagnostics serializable
      = f.parameters.flatMap fun p => found p.location (p.violations serializable) := by
  unfold parameterDiagnostics ParameterDecl.violations
  congr 1
  funext p
  cases p.bind serializable <;> rfl

/-! ### The source of the URL -/

theorem reports_checkScheme (template : String) :
    (f.checkScheme template).Reports () (f.here (schemeViolations template)) := by
  unfold checkScheme schemeViolations
  split
  · exact reports_unless _
  · exact reports_return ()

theorem reports_checkTraversal (path : List Char) :
    (f.checkTraversal path).Reports () (f.here ((Template.traversalSegment? path).toList.map
      fun s => .traversalInTemplate (String.ofList s))) := by
  unfold checkTraversal
  cases Template.traversalSegment? path with
  | none => exact reports_return ()
  | some segment => exact reports_report _ _

theorem reports_checkNames (seen told names : List String) :
    (f.checkNames seen told names).Reports (distinct seen names)
      (f.here ((repeated seen told names).map .duplicatePlaceholder)) := by
  induction names generalizing seen told with
  | nil => exact reports_return []
  | cons n rest ih =>
    rw [checkNames, distinct, repeated]
    by_cases hseen : seen.contains n = true
    · have hnot : ¬ (!seen.contains n) = true := by rw [hseen]; exact Bool.false_ne_true
      rw [if_neg hnot, if_pos hseen, if_neg hnot]
      split
      · exact ih seen told
      · exact (reports_report _ _).bind (ih seen (n :: told))
    · have hnew : (!seen.contains n) = true := by rw [Bool.eq_false_iff.mpr hseen]; rfl
      rw [if_pos hnew, if_neg hseen, if_pos hnew]
      exact (ih (n :: seen) told).map fun names => n :: names

theorem reports_checkBound (bound names : List String) :
    (f.checkBound bound names).Reports ()
      (f.here ((names.filter fun n => !bound.contains n).map .placeholderWithoutParameter)) := by
  induction names with
  | nil => exact reports_return ()
  | cons n rest ih =>
    refine ((reports_when _).bind ih).congr rfl ?_
    rw [List.filter_cons]
    split
    · rfl
    · rfl

theorem reports_checkPaths (names seen : List String) (paths : List (ParameterDecl × String)) :
    (checkPaths names seen paths).Reports (paths.map fun x => ⟨x.2, x.1.name⟩)
      (pathBindingDiagnostics names seen paths) := by
  induction paths generalizing seen with
  | nil => exact reports_return []
  | cons x rest ih =>
    obtain ⟨p, placeholder⟩ := x
    rw [checkPaths, pathBindingDiagnostics]
    split
    · exact (reports_report _ _).bind ((ih seen).map fun bindings => _ :: bindings)
    · split
      · exact (reports_report _ _).bind ((ih seen).map fun bindings => _ :: bindings)
      · exact (ih (placeholder :: seen)).map fun bindings => _ :: bindings

theorem mem_distinct_iff {n : String} {seen names : List String} :
    n ∈ distinct seen names ↔ n ∈ names ∧ n ∉ seen := by
  induction names generalizing seen with
  | nil => simp [distinct]
  | cons m names ih =>
    rw [distinct]
    split
    · next hm =>
      rw [ih, List.mem_cons]
      have hm : m ∈ seen := List.contains_iff_mem.mp hm
      constructor
      · exact fun h => ⟨Or.inr h.1, h.2⟩
      · rintro ⟨rfl | h, hs⟩
        · exact absurd hm hs
        · exact ⟨h, hs⟩
    · next hm =>
      have hm : m ∉ seen := fun h => hm (List.contains_iff_mem.mpr h)
      rw [List.mem_cons, ih, List.mem_cons, List.mem_cons, not_or]
      constructor
      · rintro (rfl | ⟨h, -, hs⟩)
        · exact ⟨Or.inl rfl, hm⟩
        · exact ⟨Or.inr h, hs⟩
      · rintro ⟨rfl | h, hs⟩
        · exact Or.inl rfl
        · by_cases he : n = m
          · exact Or.inl he
          · exact Or.inr ⟨h, he, hs⟩

/-- What is wrong with path parameters depends on which names there are, not on how often. -/
theorem pathBindingDiagnostics_congr {names names' : List String} (h : ∀ n, n ∈ names ↔ n ∈ names')
    (seen : List String) (paths : List (ParameterDecl × String)) :
    pathBindingDiagnostics names seen paths = pathBindingDiagnostics names' seen paths := by
  induction paths generalizing seen with
  | nil => rfl
  | cons x rest ih =>
    obtain ⟨p, placeholder⟩ := x
    have hcontains : names.contains placeholder = names'.contains placeholder := by
      rw [Bool.eq_iff_iff, List.contains_iff_mem, List.contains_iff_mem, h placeholder]
    rw [pathBindingDiagnostics, pathBindingDiagnostics, hcontains, ih, ih]

theorem reports_checkTemplate (template : String) (paths : List (ParameterDecl × String)) :
    (f.checkTemplate template paths).Reports (paths.map fun x => ⟨x.2, x.1.name⟩)
      (f.templateDiagnostics template paths) := by
  have hdistinct (names : List String) (n : String) : n ∈ distinct [] names ↔ n ∈ names := by
    rw [mem_distinct_iff]
    exact and_iff_left List.not_mem_nil
  refine ((f.reports_checkScheme template).bind ((f.reports_checkTraversal _).bind
    ((reports_reportAll _).bind ((reports_reportAll _).bind ((f.reports_checkNames [] [] _).bind
      ((f.reports_checkBound _ _).bind (reports_checkPaths _ [] paths))))))).congr rfl ?_
  rw [pathBindingDiagnostics_congr (hdistinct _)]
  unfold templateDiagnostics here
  simp only [List.map_append, List.append_assoc]
  rfl

theorem reports_checkNoPaths (paths : List (ParameterDecl × String)) :
    (checkNoPaths paths).Reports ()
      (paths.map fun (p, _) => ⟨p.location, .pathWithDynamicUrl p.name⟩) := by
  induction paths with
  | nil => exact reports_return ()
  | cons x rest ih => exact (reports_report _ _).bind ih

/-- **Where the URL comes from**, and what is reported of it. -/
theorem reports_checkSource (path : Option String) (bound : List Bound) :
    (f.checkSource path bound).Reports (f.checkUrl path bound).1 (f.checkUrl path bound).2 := by
  unfold checkSource checkUrl
  dsimp only
  cases path with
  | none =>
    cases (urlParameters bound).head? with
    | none => exact (reports_when _).bind ((reports_report _ _).map fun _ => none)
    | some p => exact (reports_when _).bind ((reports_checkNoPaths _).map fun _ => some _)
  | some template =>
    cases (urlParameters bound).head? with
    | none => exact (reports_when _).bind ((f.reports_checkTemplate _ _).map fun _ => some _)
    | some p => exact (reports_when _).bind ((reports_report _ _).map fun _ => none)

theorem reports_checkUrlStep (marks : Marks) (bound : List Bound) :
    (f.checkUrlStep marks bound).Reports (f.urlStep marks bound).1 (f.urlStep marks bound).2 := by
  unfold checkUrlStep urlStep
  split
  · exact reports_return none
  · exact f.reports_checkSource marks.path bound

/-! ### Content -/

theorem reports_checkContents (marks : Marks) (bound : List Bound) :
    (checkContents marks bound).Reports
      ⟨bodyBindings bound, fieldBindings bound, partBindings bound⟩
      (orphanDiagnostics marks bound) := by
  induction bound with
  | nil => exact reports_return _
  | cons x rest ih =>
    obtain ⟨p, b⟩ := x
    cases b with
    | body b => exact ih.map fun more => { more with bodies := b :: more.bodies }
    | field b =>
      refine ((reports_unless marks.form).bind
        (ih.map fun more => { more with fields := b :: more.fields })).congr rfl ?_
      cases hform : marks.form with
      | true => simp [orphanDiagnostics, hform, found]
      | false => simp [orphanDiagnostics, hform, found]
    | part b =>
      refine ((reports_unless marks.multipart.isSome).bind
        (ih.map fun more => { more with parts := b :: more.parts })).congr rfl ?_
      cases hparts : marks.multipart.isSome with
      | true => simp [orphanDiagnostics, hparts, found]
      | false => simp [orphanDiagnostics, hparts, found]
    | path placeholder | url | query q | header h => exact ih

theorem reports_checkPermitted (marks : Marks) (contents : Contents) :
    (f.checkPermitted marks contents).Reports () (f.here
      (match marks.method with
        | none => []
        | some method =>
          if method.permitsBody then []
          else
            (if !contents.bodies.isEmpty then
              [.bodyNotAllowed (Role.body none).label method.token] else []) ++
            (if marks.form then
              [.bodyNotAllowed FunctionMark.form.label method.token] else []) ++
            if marks.multipart.isSome then
              [.bodyNotAllowed (FunctionMark.multipart none).label method.token] else [])) := by
  unfold checkPermitted
  cases marks.method with
  | none => exact reports_return ()
  | some method =>
    dsimp only
    split
    · exact reports_return ()
    · refine ((reports_when _).bind ((reports_when _).bind (reports_when _))).congr rfl ?_
      rw [← found_append, ← found_append, ← List.append_assoc]
      rfl

theorem reports_checkContent (marks : Marks) (bound : List Bound) :
    (f.checkContent marks bound).Reports (content? marks bound)
      (orphanDiagnostics marks bound ++ f.here (f.contentViolations marks bound)) := by
  refine (reports_checkContents marks bound).bind (Reports.congr ((reports_when _).bind
    ((reports_when _).bind ((reports_when _).bind ((reports_when _).bind ((reports_when _).bind
      ((reports_when _).bind ((f.reports_checkPermitted marks _).map fun _ => _))))))) ?_ ?_)
  · rfl
  · unfold contentViolations here
    simp only [List.map_append, List.append_assoc, decide_eq_true_eq]
    rfl

/-! ### The whole function -/

theorem reports_checkSteps :
    (f.checkSteps serializable).Reports
      { marks := f.readMarks.1
        headers := (staticHeaders f.readMarks.1.headers).1
        bound := f.bound serializable
        url := (f.urlStep f.readMarks.1 (f.bound serializable)).1
        content := content? f.readMarks.1 (f.bound serializable)
        returns := (f.returnType.checkReturn serializable (f.readMarks.1.method.getD .get)).1 }
      (f.diagnostics serializable) := by
  refine ((reports_unless _).bind ((reports_when _).bind ((reports_unless _).bind
    (f.reports_checkMarks.bind ((reports_checkHeaders _).bind ((reports_checkParameters _).bind
      ((f.reports_checkUrlStep _ _).bind ((f.reports_checkContent _ _).bind
        ((TypeExpr.reports_checkResult _ _).map fun returns => _))))))))).congr rfl ?_
  unfold diagnostics formViolations here
  rw [parameterDiagnostics_eq]
  simp only [List.map_append, List.append_assoc]
  rfl

/-- **A function becomes an endpoint exactly when its own check reports nothing**, whatever was
reported before it. -/
theorem reports_check :
    (f.check serializable).Reports (f.endpoint? serializable) (f.diagnostics serializable) := by
  refine (f.reports_checkSteps.watch.map
    fun x => if x.2 then none else x.1.endpoint? f).congr ?_ rfl
  unfold endpoint?
  cases hnil : f.diagnostics serializable with
  | cons d ds => rfl
  | nil =>
    unfold Steps.endpoint?
    cases hmethod : f.readMarks.1.method with
    | none => simp [hmethod]
    | some method => simp [hmethod]

end FunctionDecl

/-! ## Services -/

namespace ServiceDecl

variable (s : ServiceDecl)

theorem reports_checkProperties (ps : List PropertyDecl) :
    (checkProperties ps).Reports () (ps.map fun p => ⟨p.location, .serviceProperty p.name⟩) := by
  induction ps with
  | nil => exact reports_return ()
  | cons p rest ih => exact (reports_report _ _).bind ih

theorem reports_checkDeclared : s.checkDeclared.Reports () s.ownDiagnostics := by
  have hgiven (b : Bool) (v : Violation) :
      found s.location (if b = true then [v] else []) = if b then [⟨s.location, v⟩] else [] := by
    cases b <;> rfl
  refine ((reports_when _).bind ((reports_when _).bind ((reports_when _).bind
    ((reports_when _).bind (reports_checkProperties s.properties))))).congr rfl ?_
  unfold ownDiagnostics
  simp only [hgiven, List.append_assoc]

theorem reports_checkOwn : s.checkOwn.Reports s.ownDiagnostics.isEmpty s.ownDiagnostics :=
  (s.reports_checkDeclared.watch.map fun x => !x.2).congr (Bool.not_not _) rfl

theorem reports_checkFunctions (serializable : List String) (fs : List FunctionDecl) :
    (checkFunctions serializable fs).Reports (fs.filterMap (FunctionDecl.endpoint? serializable))
      (fs.flatMap (FunctionDecl.diagnostics serializable)) := by
  induction fs with
  | nil => exact reports_return []
  | cons f rest ih =>
    rw [checkFunctions, List.flatMap_cons]
    refine (f.reports_check.bind (ih.map fun endpoints => _)).congr ?_ rfl
    cases h : f.endpoint? serializable with
    | none => rw [List.filterMap_cons_none h]
    | some e => rw [List.filterMap_cons_some h]

/-- **One pass over a service finds what its parts find on their own.** -/
theorem reports_check : s.check.Reports s.service? s.diagnostics :=
  s.reports_checkOwn.bind ((reports_checkFunctions _ s.functions).map fun _ => _)

theorem analyze_eq : s.analyze = ⟨s.service?, s.diagnostics⟩ := by
  unfold analyze
  rw [s.reports_check []]
  rfl

theorem analyze_diagnostics : s.analyze.diagnostics = s.diagnostics := by
  rw [analyze_eq]

end ServiceDecl

end HttpService
