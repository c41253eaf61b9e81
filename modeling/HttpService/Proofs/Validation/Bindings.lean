import HttpService.Proofs.Lexical
import HttpService.Validation.Functions

/-!
# Parameters that are bound

A parameter is bound exactly when it has one role and nothing is wrong with it there
(`bind_ok_iff`), so what a binding holds was checked.  The lemmas about violations say what a check
without violations has found.
-/

namespace HttpService

theorem headerNameViolations_eq_nil_iff {name : String} :
    headerNameViolations name = [] ↔
      Lexical.checkHeaderName name = .ok () ∧ Lexical.isContentHeader name = false := by
  unfold headerNameViolations
  split
  · next h => simp [h]
  · next h => simp [h]

theorem contentTypeViolations_eq_nil_iff {contentType : String} :
    contentTypeViolations contentType = [] ↔ Lexical.checkMediaType contentType = .ok () := by
  unfold contentTypeViolations
  split
  · next h => simp [h]
  · next h => simp [h]

/-- A content type that is given was checked, and a default one is a media type. -/
theorem checkMediaType_getD {contentType : Option String} {default : String}
    (h : (contentType.map contentTypeViolations).getD [] = [])
    (hdefault : Lexical.checkMediaType default = .ok ()) :
    Lexical.checkMediaType (contentType.getD default) = .ok () := by
  cases contentType with
  | none => exact hdefault
  | some t => exact contentTypeViolations_eq_nil_iff.mp h

theorem checkMediaType_defaultPartType (t : TypeExpr) :
    Lexical.checkMediaType (defaultPartType t) = .ok () := by
  unfold defaultPartType
  split
  · decide +kernel
  · split
    · decide +kernel
    · decide +kernel

namespace ParameterDecl

variable {serializable : List String} {p : ParameterDecl} {b : Binding}

/-- **A parameter is bound exactly when it has one role and nothing is wrong with it there.** -/
theorem bind_ok_iff :
    p.bind serializable = .ok b ↔
      ∃ role, p.roles = [role] ∧ p.lower serializable role = (b, []) := by
  unfold bind
  split
  · next h => simp [h]
  · next role h =>
    split
    · next c hc => simp [h, hc]
    · next c vs hne hc =>
      simp only [reduceCtorEq, h, List.cons.injEq, and_true, exists_eq_left', hc, Prod.mk.injEq,
        false_iff, not_and]
      rintro - rfl
      exact hne rfl
  · next roles hnil hone =>
    simp only [reduceCtorEq, false_iff, not_exists, not_and]
    intro role h
    exact absurd h (hone role)

theorem checkHeaderName_of_lower {role : Role} {name parameter : String} {iterable : Bool}
    (h : p.lower serializable role = (.header (.single name parameter iterable), [])) :
    Lexical.checkHeaderName name = .ok () := by
  cases role <;> simp only [lower, Prod.mk.injEq, reduceCtorEq, false_and, Binding.header.injEq,
    HeaderBinding.single.injEq, List.append_eq_nil_iff] at h
  obtain ⟨⟨rfl, -, -⟩, hname, -⟩ := h
  exact (headerNameViolations_eq_nil_iff.mp hname).1

theorem checkMediaType_of_lower_part {role : Role} {c : PartBinding}
    (h : p.lower serializable role = (.part c, [])) :
    Lexical.checkMediaType c.contentType = .ok () := by
  cases role <;> simp only [lower, Prod.mk.injEq, reduceCtorEq, false_and, Binding.part.injEq,
    List.append_eq_nil_iff] at h
  · obtain ⟨rfl, -, hc⟩ := h
    exact checkMediaType_getD hc (checkMediaType_defaultPartType _)
  · obtain ⟨rfl, -, hc⟩ := h
    exact checkMediaType_getD hc (checkMediaType_defaultPartType _)

theorem checkMediaType_of_lower_body {role : Role} {c : BodyBinding}
    (h : p.lower serializable role = (.body c, [])) :
    Lexical.checkMediaType c.contentType = .ok () := by
  cases role <;> simp only [lower, Prod.mk.injEq, reduceCtorEq, false_and, Binding.body.injEq,
    List.append_eq_nil_iff] at h
  obtain ⟨rfl, -, hc⟩ := h
  exact contentTypeViolations_eq_nil_iff.mp hc

end ParameterDecl

namespace FunctionDecl

variable {serializable : List String} {f : FunctionDecl} {p : ParameterDecl}

theorem mem_bound_iff {b : Binding} :
    (p, b) ∈ f.bound serializable ↔ p ∈ f.parameters ∧ p.bind serializable = .ok b := by
  simp only [bound, List.mem_filterMap, Option.map_eq_some_iff, Prod.mk.injEq]
  constructor
  · rintro ⟨q, hq, c, hc, rfl, rfl⟩
    refine ⟨hq, ?_⟩
    cases hbind : q.bind serializable with
    | error vs => simp [hbind, Except.toOption] at hc
    | ok d =>
      rw [hbind] at hc
      rw [Option.some.inj hc]
  · rintro ⟨hp, hbind⟩
    exact ⟨p, hp, b, by rw [hbind]; rfl, rfl, rfl⟩

theorem exists_lower_of_mem_bound {b : Binding} (h : (p, b) ∈ f.bound serializable) :
    ∃ role, p.lower serializable role = (b, []) := by
  obtain ⟨role, -, hlower⟩ := ParameterDecl.bind_ok_iff.mp (mem_bound_iff.mp h).2
  exact ⟨role, hlower⟩

theorem mem_pathBindings_iff {bound : List Bound} {placeholder : String} :
    (p, placeholder) ∈ pathBindings bound ↔ (p, .path placeholder) ∈ bound := by
  simp only [pathBindings, List.mem_filterMap]
  constructor
  · rintro ⟨⟨q, c⟩, hmem, hc⟩
    cases c <;> cases hc
    exact hmem
  · exact fun hmem => ⟨(p, .path placeholder), hmem, rfl⟩

theorem mem_urlParameters_iff {bound : List Bound} :
    p ∈ urlParameters bound ↔ (p, .url) ∈ bound := by
  simp only [urlParameters, List.mem_filterMap]
  constructor
  · rintro ⟨⟨q, c⟩, hmem, hc⟩
    cases c <;> cases hc
    exact hmem
  · exact fun hmem => ⟨(p, .url), hmem, rfl⟩

theorem mem_filterMap_bound_iff {α : Type} {make : α → Binding} {held : Bound → Option α}
    (h : ∀ x a, held x = some a ↔ x.2 = make a) {bound : List Bound} {a : α} :
    a ∈ bound.filterMap held ↔ ∃ p, (p, make a) ∈ bound := by
  simp only [List.mem_filterMap, h]
  constructor
  · rintro ⟨⟨p, c⟩, hmem, rfl⟩
    exact ⟨p, hmem⟩
  · rintro ⟨p, hmem⟩
    exact ⟨(p, make a), hmem, rfl⟩

theorem mem_queryBindings_iff {bound : List Bound} {b : ValueBinding} :
    b ∈ queryBindings bound ↔ ∃ p, (p, .query b) ∈ bound :=
  mem_filterMap_bound_iff fun ⟨_, c⟩ _ => by cases c <;> simp

theorem mem_fieldBindings_iff {bound : List Bound} {b : ValueBinding} :
    b ∈ fieldBindings bound ↔ ∃ p, (p, .field b) ∈ bound :=
  mem_filterMap_bound_iff fun ⟨_, c⟩ _ => by cases c <;> simp

theorem mem_headerBindings_iff {bound : List Bound} {b : HeaderBinding} :
    b ∈ headerBindings bound ↔ ∃ p, (p, .header b) ∈ bound :=
  mem_filterMap_bound_iff fun ⟨_, c⟩ _ => by cases c <;> simp

theorem mem_partBindings_iff {bound : List Bound} {b : PartBinding} :
    b ∈ partBindings bound ↔ ∃ p, (p, .part b) ∈ bound :=
  mem_filterMap_bound_iff fun ⟨_, c⟩ _ => by cases c <;> simp

theorem mem_bodyBindings_iff {bound : List Bound} {b : BodyBinding} :
    b ∈ bodyBindings bound ↔ ∃ p, (p, .body b) ∈ bound :=
  mem_filterMap_bound_iff fun ⟨_, c⟩ _ => by cases c <;> simp

end FunctionDecl

end HttpService
