import HttpService.Validation.Functions
import Mathlib.Data.List.Basic

/-!
# Rules about roles

The rules about roles speak of the marks of a function and the roles of its parameters, and not of
types.  They are checked in two steps, the source of the URL and the content; no other step breaks
one of them (`roleDiagnostics_eq`), so their diagnostics depend on the parameters only through the
bindings that the two steps look at.
-/

namespace HttpService

/-- Whether a violation breaks a rule about roles. -/
def Violation.isRoleLevel : Violation → Bool
  | missingUrl _ | conflictingUrl _ | multipleUrlParameters _ | pathWithDynamicUrl _
  | placeholderWithoutParameter _ | parameterWithoutPlaceholder _ | duplicatePathBinding _
  | multipleBodies _ | bodyWithForm _ | bodyNotAllowed _ _ | emptyForm | emptyMultipart
  | fieldWithoutForm _ _ | partWithoutMultipart _ _ => true
  | _ => false

/-- Violations of which none breaks a rule about roles. -/
structure Silent (vs : List Violation) : Prop where
  isRoleLevel : ∀ v ∈ vs, v.isRoleLevel = false

namespace Silent

theorem nil : Silent [] :=
  ⟨nofun⟩

theorem singleton {v : Violation} (h : v.isRoleLevel = false) : Silent [v] :=
  ⟨by simpa using h⟩

theorem append {vs ws : List Violation} (hv : Silent vs) (hw : Silent ws) : Silent (vs ++ ws) := by
  constructor
  intro v h
  rcases List.mem_append.mp h with h | h
  · exact hv.isRoleLevel v h
  · exact hw.isRoleLevel v h

theorem filter_eq_nil {vs : List Violation} (h : Silent vs) : vs.filter (·.isRoleLevel) = [] :=
  List.filter_eq_nil_iff.mpr fun v hv => by simp [h.isRoleLevel v hv]

theorem ite {c : Prop} [Decidable c] {vs ws : List Violation} (hv : Silent vs) (hw : Silent ws) :
    Silent (if c then vs else ws) := by
  split
  · exact hv
  · exact hw

end Silent

theorem filter_map_silent {α : Type} (make : α → Violation)
    (h : ∀ a, (make a).isRoleLevel = false) (l : List α) :
    (l.map make).filter (·.isRoleLevel) = [] := by
  refine List.filter_eq_nil_iff.mpr fun v hv => ?_
  obtain ⟨a, -, rfl⟩ := List.mem_map.mp hv
  simp [h a]

theorem filter_map_spoken {α : Type} (make : α → Violation)
    (h : ∀ a, (make a).isRoleLevel = true) (l : List α) :
    (l.map make).filter (·.isRoleLevel) = l.map make := by
  refine List.filter_eq_self.mpr fun v hv => ?_
  obtain ⟨a, -, rfl⟩ := List.mem_map.mp hv
  exact h a

/-! ## Types -/

namespace TypeExpr

theorem silent_nodeViolations (serializable : List String) (root : TypeExpr) (position : Position)
    (top : Bool) (t : TypeExpr) : Silent (nodeViolations serializable root position top t).1 := by
  unfold nodeViolations
  split
  · exact .singleton rfl
  · split
    · exact .singleton rfl
    · split
      · exact .singleton rfl
      · split
        · exact .singleton rfl
        · exact .nil
    · split
      · split
        · exact .nil
        · exact .singleton rfl
      · exact .nil

mutual

theorem silent_walk (serializable : List String) (root : TypeExpr) (position : Position)
    (top : Bool) : (t : TypeExpr) → Silent (walk serializable root position top t)
  | mk n b as => by
    rw [walk]
    exact (silent_nodeViolations ..).append
      (.ite (silent_walkAll serializable root position as) .nil)

theorem silent_walkAll (serializable : List String) (root : TypeExpr) (position : Position) :
    (ts : List TypeExpr) → Silent (walkAll serializable root position ts)
  | [] => .nil
  | t :: rest => by
    rw [walkAll]
    exact (silent_walk serializable root position false t).append
      (silent_walkAll serializable root position rest)

end

theorem silent_violations (serializable : List String) (position : Position) (t : TypeExpr) :
    Silent (t.violations serializable position) :=
  silent_walk ..

theorem silent_checkReturn (serializable : List String) (method : Method) (t : TypeExpr) :
    Silent (t.checkReturn serializable method).2 := by
  unfold checkReturn
  refine Silent.append ?_ (.ite (.singleton rfl) .nil)
  unfold returnShape
  split
  · split
    · split
      · exact .nil
      · exact silent_walk ..
    · exact .singleton rfl
  · exact silent_violations ..

end TypeExpr

/-! ## Parameters -/

theorem silent_headerNameViolations (name : String) : Silent (headerNameViolations name) := by
  unfold headerNameViolations
  split
  · exact .singleton rfl
  · exact .ite (.singleton rfl) .nil

theorem silent_contentTypeViolations (contentType : String) :
    Silent (contentTypeViolations contentType) := by
  unfold contentTypeViolations
  split
  · exact .singleton rfl
  · exact .nil

namespace ParameterDecl

theorem silent_nameViolations (p : ParameterDecl) (role : Role) (explicit : Option String) :
    Silent (p.nameViolations role explicit) :=
  .ite (.singleton rfl) .nil

theorem silent_mapViolations (p : ParameterDecl) (role : Role) : Silent (p.mapViolations role) := by
  unfold mapViolations
  split
  · exact .singleton rfl
  · split
    · exact .nil
    · exact .ite (.singleton rfl) (.ite (.singleton rfl) .nil)

theorem silent_lower (serializable : List String) (p : ParameterDecl) (role : Role) :
    Silent (p.lower serializable role).2 := by
  have uses (position : Position) := TypeExpr.silent_violations serializable position p.type
  have types (contentType : Option String) :
      Silent ((contentType.map contentTypeViolations).getD []) := by
    cases contentType with
    | none => exact .nil
    | some t => exact silent_contentTypeViolations t
  cases role with
  | path name =>
    exact ((silent_nameViolations ..).append
      (.append (.ite (.singleton rfl) .nil) (.ite (.singleton rfl) .nil))).append (uses _)
  | url => exact .ite (.singleton rfl) .nil
  | query name => exact (silent_nameViolations ..).append (uses _)
  | queryMap => exact (silent_mapViolations ..).append (uses _)
  | header name => exact (silent_headerNameViolations _).append (uses _)
  | headerMap => exact (silent_mapViolations ..).append (uses _)
  | field name => exact (silent_nameViolations ..).append (uses _)
  | fieldMap => exact (silent_mapViolations ..).append (uses _)
  | part name contentType =>
    exact ((silent_nameViolations ..).append (uses _)).append (types _)
  | partMap contentType => exact ((silent_mapViolations ..).append (uses _)).append (types _)
  | body contentType => exact (uses _).append (silent_contentTypeViolations _)

theorem silent_bind {serializable : List String} {p : ParameterDecl} {vs : List Violation}
    (h : p.bind serializable = .error vs) : Silent vs := by
  unfold bind at h
  split at h
  · obtain rfl := Except.error.inj h
    exact .singleton rfl
  · next role _ =>
    have hlower := silent_lower serializable p role
    split at h
    · cases h
    · next hvs =>
      obtain rfl := Except.error.inj h
      rwa [hvs] at hlower
  · obtain rfl := Except.error.inj h
    exact .singleton rfl

end ParameterDecl

/-! ## Marks and static headers -/

namespace Marks

theorem silent_add (m : Marks) (mark : FunctionMark) : Silent (m.add mark).2 := by
  unfold add
  cases mark with
  | http method path hasBody =>
    dsimp only
    split
    · unfold readMethod
      split
      · exact .nil
      · exact .singleton rfl
    · exact .nil
  | headers values => exact .ite (.singleton rfl) .nil
  | form => exact .ite (.singleton rfl) .nil
  | multipart subtype =>
    dsimp only
    split
    · exact .singleton rfl
    · unfold subtypeViolations
      split
      · exact .nil
      · exact .singleton rfl

theorem silent_addAll (m : Marks) (marks : List FunctionMark) : Silent (m.addAll marks).2 := by
  induction marks generalizing m with
  | nil => exact .nil
  | cons mark marks ih => exact (silent_add m mark).append (ih _)

theorem silent_countViolations (m : Marks) (function : String) :
    Silent (m.countViolations function) := by
  unfold countViolations
  split
  · exact .singleton rfl
  · exact .nil
  · exact .singleton rfl

end Marks

namespace FunctionDecl

variable {serializable : List String} {f : FunctionDecl}

theorem silent_formViolations (f : FunctionDecl) : Silent f.formViolations :=
  (Silent.append (.ite .nil (.singleton rfl)) (.ite (.singleton rfl) .nil)).append
    (.ite .nil (.singleton rfl))

theorem silent_readMarks (f : FunctionDecl) : Silent f.readMarks.2 :=
  (Marks.silent_addAll ..).append (Marks.silent_countViolations ..)

theorem silent_staticHeader (text : String) : Silent (staticHeader text).2 := by
  unfold staticHeader
  split
  · exact .singleton rfl
  · refine (silent_headerNameViolations _).append ?_
    split
    · exact .nil
    · exact .singleton rfl

theorem silent_staticHeaders (texts : List String) : Silent (staticHeaders texts).2 := by
  constructor
  intro v hv
  obtain ⟨h, hh, hv⟩ := List.mem_flatMap.mp hv
  obtain ⟨text, -, rfl⟩ := List.mem_map.mp hh
  exact (silent_staticHeader text).isRoleLevel v hv

/-! ## The diagnostics of rules about roles -/

def roleDiagnostics (serializable : List String) (f : FunctionDecl) : List Diagnostic :=
  (f.diagnostics serializable).filter fun d => d.violation.isRoleLevel

theorem filter_here (f : FunctionDecl) (vs : List Violation) :
    (f.here vs).filter (fun d => d.violation.isRoleLevel) = f.here (vs.filter (·.isRoleLevel)) := by
  rw [here, List.filter_map]
  rfl

theorem filter_here_of_silent {vs : List Violation} (h : Silent vs) :
    (f.here vs).filter (fun d => d.violation.isRoleLevel) = [] := by
  rw [filter_here, h.filter_eq_nil]
  rfl

theorem filter_parameterDiagnostics (serializable : List String) (f : FunctionDecl) :
    (f.parameterDiagnostics serializable).filter (fun d => d.violation.isRoleLevel) = [] := by
  refine List.filter_eq_nil_iff.mpr fun d hd => ?_
  obtain ⟨p, -, hd⟩ := List.mem_flatMap.mp hd
  split at hd
  · cases hd
  · next vs hvs =>
    obtain ⟨v, hv, rfl⟩ := List.mem_map.mp hd
    simp [(ParameterDecl.silent_bind hvs).isRoleLevel v hv]

/-- **Only the source of the URL and the content break rules about roles.** -/
theorem roleDiagnostics_eq (serializable : List String) (f : FunctionDecl) :
    f.roleDiagnostics serializable =
      (f.urlStep f.readMarks.1 (f.bound serializable)).2.filter (fun d => d.violation.isRoleLevel) ++
      (orphanDiagnostics f.readMarks.1 (f.bound serializable)).filter
        (fun d => d.violation.isRoleLevel) ++
      f.here ((f.contentViolations f.readMarks.1 (f.bound serializable)).filter
        (·.isRoleLevel)) := by
  simp only [roleDiagnostics, diagnostics, List.filter_append,
    filter_here_of_silent (silent_formViolations f), filter_here_of_silent (silent_readMarks f),
    filter_here_of_silent (silent_staticHeaders _), filter_parameterDiagnostics,
    filter_here_of_silent (TypeExpr.silent_checkReturn ..), filter_here, List.nil_append,
    List.append_nil]

end FunctionDecl

end HttpService
