import HttpService.Proofs.TypeExpr.Rereading
import HttpService.Proofs.Validation.TypeUse

/-!
# What the shape of a result keeps of its type

A declared result is lowered to a shape, and the shape has a text again.  It is the text of the
declared type, but for one thing: the mark of a nullable `Result` is taken off without a word.
Marks are not looked at for `HEAD` either: what is accepted there is `Unit`, `Result<Unit>` or
`Result<*>` only when all marks are taken off (`checkReturn_faithful_iff`).

* `returnShape_cases`: which shape a type gets when nothing is wrong with it.
* `display_of_returnShape`: the text of the shape, and what is missing there.
* `unmarked_mem_of_isBodyless`: which types have a shape without a body.
-/

namespace HttpService

namespace TypeExpr

mutual

/-- The type with the marks of all nullable types taken off. -/
def unmarked : TypeExpr → TypeExpr
  | mk n _ as => mk n false (unmarkedAll as)

def unmarkedAll : List TypeExpr → List TypeExpr
  | [] => []
  | t :: ts => unmarked t :: unmarkedAll ts

end

/-- A captured outcome that is declared as nullable. -/
def IsNullableResult (t : TypeExpr) : Prop :=
  t.family? = some .result ∧ t.nullable = true

/-- The types of which a result without a body is declared. -/
def bodylessResults : List TypeExpr :=
  [unit, .mk resultName false [unit], .mk resultName false [star]]

theorem Grammatical.eq_star {t : TypeExpr} (h : t.Grammatical) (hstar : t.isStar = true) :
    t = TypeExpr.star := by
  cases h with
  | star => rfl
  | mk hname =>
    have hsame := beq_iff_eq.mp hstar
    change _ = starName at hsame
    subst hsame
    exact absurd hname.1 (by decide)

theorem unmarked_of_isUnit {t : TypeExpr} (h : t.isUnit = true) : t.unmarked = unit := by
  obtain ⟨n, b, as⟩ := t
  obtain ⟨hname, hnone⟩ := Bool.and_eq_true_iff.mp h
  obtain rfl : n = unitName := beq_iff_eq.mp hname
  obtain rfl : as = [] := List.isEmpty_iff.mp hnone
  rfl

variable {serializable : List String} {method : Method} {t : TypeExpr} {shape : ReturnShape}

/-! ## Shapes -/

/-- **Which shape a type gets when nothing is wrong with it.** -/
theorem returnShape_cases (h : t.returnShape serializable = (shape, [])) :
    (t.family? ≠ some .result ∧ shape = .plain t) ∨
      ∃ nullable argument, t = .mk resultName nullable [argument] ∧
        (argument.isStar = true ∧ shape = .discarded ∨
          argument.isStar = false ∧ shape = .wrapped argument) := by
  obtain ⟨name, nullable, arguments⟩ := t
  unfold returnShape at h
  split at h
  · next hresult =>
    obtain rfl : name = resultName := List.mem_singleton.mp (family?_eq_some_iff.mp hresult)
    right
    split at h
    · next argument harguments =>
      obtain rfl : arguments = [argument] := harguments
      refine ⟨nullable, argument, rfl, ?_⟩
      split at h
      · next hstar => exact .inl ⟨hstar, (Prod.mk.inj h).1.symm⟩
      · next hstar => exact .inr ⟨by simpa using hstar, (Prod.mk.inj h).1.symm⟩
    · cases (Prod.mk.inj h).2
  · next hresult => exact .inl ⟨hresult, (Prod.mk.inj h).1.symm⟩

theorem checkReturn_eq_nil_iff :
    t.checkReturn serializable method = (shape, []) ↔
      t.returnShape serializable = (shape, []) ∧ (method = .head → shape.isBodyless = true) := by
  unfold checkReturn
  generalize t.returnShape serializable = lowered
  obtain ⟨shape', vs⟩ := lowered
  simp only [Prod.mk.injEq, List.append_eq_nil_iff, ite_eq_right_iff, List.cons_ne_nil, imp_false]
  constructor
  · rintro ⟨rfl, rfl, hhead⟩
    exact ⟨⟨rfl, rfl⟩, by simpa using hhead⟩
  · rintro ⟨⟨rfl, rfl⟩, hhead⟩
    exact ⟨rfl, rfl, by simpa using hhead⟩

/-- Failures are values for a caller exactly when a `Result` is declared. -/
theorem isWrapped_iff (h : t.checkReturn serializable method = (shape, [])) :
    shape.isWrapped = true ↔ t.family? = some .result := by
  rcases returnShape_cases (checkReturn_eq_nil_iff.mp h).1 with
    ⟨hplain, rfl⟩ | ⟨nullable, argument, rfl, ⟨-, rfl⟩ | ⟨-, rfl⟩⟩
  · exact iff_of_false Bool.false_ne_true hplain
  · exact iff_of_true rfl rfl
  · exact iff_of_true rfl rfl

/-! ## Texts -/

theorem display_result (nullable : Bool) (argument : TypeExpr) :
    (mk resultName nullable [argument]).display
      = "Result<" ++ argument.display ++ ">" ++ String.ofList (markChars nullable) := by
  apply String.toList_inj.mp
  simp [display, chars, argumentChars, markChars, resultName]

/-- The text of a type is that of its shape, and the mark of a nullable `Result`. -/
theorem display_of_returnShape (ht : t.Grammatical)
    (h : t.returnShape serializable = (shape, [])) :
    (¬ t.IsNullableResult → t.display = shape.display) ∧
      (t.IsNullableResult → t.display = shape.display ++ "?") := by
  rcases returnShape_cases h with ⟨hplain, rfl⟩ | ⟨nullable, argument, rfl, hshape⟩
  · exact ⟨fun _ => rfl, fun hresult => absurd hresult.1 hplain⟩
  · have hresult : (mk resultName nullable [argument]).IsNullableResult ↔ nullable = true :=
      and_iff_right rfl
    have hdisplay : shape.display = "Result<" ++ argument.display ++ ">" := by
      rcases hshape with ⟨hstar, rfl⟩ | ⟨-, rfl⟩
      · obtain rfl := (ht.argument (List.mem_singleton_self argument)).eq_star hstar
        decide +kernel
      · rfl
    rw [hresult, display_result, hdisplay]
    cases nullable with
    | false => exact ⟨fun _ => String.append_empty, nofun⟩
    | true => exact ⟨fun hfalse => absurd rfl hfalse, fun _ => rfl⟩

/-! ## Results without a body -/

/-- A type whose shape has no body is, but for its marks, one of the three that `HEAD` takes. -/
theorem unmarked_mem_of_isBodyless (ht : t.Grammatical)
    (h : t.returnShape serializable = (shape, [])) (hbody : shape.isBodyless = true) :
    t.unmarked ∈ bodylessResults := by
  rcases returnShape_cases h with ⟨-, rfl⟩ | ⟨nullable, argument, rfl, ⟨hstar, rfl⟩ | ⟨-, rfl⟩⟩
  · rw [unmarked_of_isUnit hbody]
    exact List.mem_cons_self
  · obtain rfl := (ht.argument (List.mem_singleton_self argument)).eq_star hstar
    exact List.mem_cons_of_mem _ (List.mem_cons_of_mem _ List.mem_cons_self)
  · have hunit : (mk resultName nullable [argument]).unmarked = mk resultName false [unit] := by
      rw [unmarked, unmarkedAll, unmarked_of_isUnit hbody]
      rfl
    rw [hunit]
    exact List.mem_cons_of_mem _ List.mem_cons_self

theorem unmarked_of_mem_bodylessResults (h : t ∈ bodylessResults) : t.unmarked = t := by
  have hall : ∀ r ∈ bodylessResults, r.unmarked = r := by decide
  exact hall t h

/-- **What the shape of a result keeps of its type.**  If nothing is wrong with a declared result,
the shape has the text of the type exactly when the type is no nullable `Result`, and of such a one
the mark is lost.  For `HEAD` the type is `Unit`, `Result<Unit>` or `Result<*>` when all marks are
taken off, and so it is one of these exactly when it has no mark. -/
theorem checkReturn_faithful_iff {s : String} (ht : parse s = .ok t)
    (h : t.checkReturn serializable method = (shape, [])) :
    (shape.display = t.display ↔ ¬ t.IsNullableResult) ∧
      (t.IsNullableResult → t.display = shape.display ++ "?") ∧
      (method = .head →
        t.unmarked ∈ bodylessResults ∧ (t ∈ bodylessResults ↔ t.unmarked = t)) := by
  have hgrammatical := Grammatical.of_parse ht
  obtain ⟨hshape, hhead⟩ := checkReturn_eq_nil_iff.mp h
  obtain ⟨hkept, hlost⟩ := display_of_returnShape hgrammatical hshape
  refine ⟨?_, hlost, ?_⟩
  · constructor
    · intro hsame hnullable
      have hlength := congrArg String.length (hlost hnullable)
      rw [hsame, String.length_append] at hlength
      have hmark : "?".length = 1 := rfl
      omega
    · intro hnullable
      exact (hkept hnullable).symm
  · intro hmethod
    have hmem := unmarked_mem_of_isBodyless hgrammatical hshape (hhead hmethod)
    refine ⟨hmem, unmarked_of_mem_bodylessResults, ?_⟩
    intro hsame
    rwa [hsame] at hmem

theorem checkReturn_faithful_iff_captured :
    let t : TypeExpr := .mk resultName false [.mk "List" true [.named "Int"]]
    parse "Result<List<Int>?>" = .ok t ∧
      t.checkReturn [] .get = (.wrapped (.mk "List" true [.named "Int"]), []) ∧
      ReturnShape.display (.wrapped (.mk "List" true [.named "Int"])) = t.display ∧
      parse "Result< * >" = .ok (.mk resultName false [star]) ∧
      (mk resultName false [star]).checkReturn [] .head = (.discarded, []) ∧
      mk resultName false [star] ∈ bodylessResults := by
  intro t
  have ht : parse "Result<List<Int>?>" = .ok t := by decide +kernel
  have hreturn : t.checkReturn [] .get = (.wrapped (.mk "List" true [.named "Int"]), []) := by
    decide +kernel
  have hstar : parse "Result< * >" = .ok (.mk resultName false [star]) := by decide +kernel
  have hhead : (mk resultName false [star]).checkReturn [] .head = (.discarded, []) := by
    decide +kernel
  refine ⟨ht, hreturn, (checkReturn_faithful_iff ht hreturn).1.mpr ?_, hstar, hhead, ?_⟩
  · rintro ⟨-, hnullable⟩
    cases hnullable
  · exact ((checkReturn_faithful_iff hstar hhead).2.2 rfl).2.mpr rfl

/-- Nothing is reported of `Unit?` as the result of a `HEAD` function, nor of `Result<Int>?`, whose
mark is lost. -/
theorem checkReturn_ignores_marks :
    let unitOrNull : TypeExpr := .mk unitName true []
    let resultOrNull : TypeExpr := .mk resultName true [.named "Int"]
    parse "Unit?" = .ok unitOrNull ∧
      unitOrNull.checkReturn [] .head = (.plain unitOrNull, []) ∧
      unitOrNull ∉ bodylessResults ∧
      parse "Result<Int>?" = .ok resultOrNull ∧
      resultOrNull.checkReturn [] .get = (.wrapped (.named "Int"), []) ∧
      (ReturnShape.wrapped (.named "Int")).display ≠ resultOrNull.display := by
  decide +kernel

end TypeExpr

end HttpService
