import Mathlib.Logic.Basic
import HttpService.Validation.TypeUse

/-!
# Which types a position admits

A type is checked node by node, and the check does not look below a node at which it reports a
wildcard, a captured outcome or a byte stream.  Nothing is lost by that: a type is accepted exactly
when each of its nodes, wherever it stands, is admitted by itself (`violations_eq_nil_iff`).

* `family?_eq_some_iff`: the families of built-in types by their names.
* `node?`: the node of a type at an address, the list of the argument places that lead to it.
* `Admitted`: what a position asks of one node; only a byte stream depends on where it stands.
* `walk_eq_nil_iff`: what is accepted at a node is accepted in its arguments, and conversely.
-/

namespace HttpService.TypeExpr

/-! ## Families -/

def Family.names : Family → List String
  | .unit => [unitName]
  | .scalar => scalarNames
  | .primitiveArray => primitiveArrayNames
  | .collection => collectionNames
  | .map => ["Map"]
  | .pair => ["Pair"]
  | .triple => ["Triple"]
  | .byteStream => [byteStreamName]
  | .multiValueMap => ["MultiValueMap"]
  | .result => [resultName]

theorem family?_of_mem_names {family : Family} {t : TypeExpr} (h : t.name ∈ family.names) :
    t.family? = some family := by
  have hall : ∀ name ∈ family.names, (named name).family? = some family := by
    cases family <;> decide +kernel
  exact hall t.name h

/-- **A type is of a family exactly when it has one of its names**, which no other family has. -/
theorem family?_eq_some_iff {family : Family} {t : TypeExpr} :
    t.family? = some family ↔ t.name ∈ family.names := by
  constructor
  · intro h
    simp only [family?, ite_eq_iff, Option.some.injEq, reduceCtorEq, and_false, or_false] at h
    rcases h with ⟨h, rfl⟩ | ⟨-, ⟨h, rfl⟩ | ⟨-, ⟨h, rfl⟩ | ⟨-, ⟨h, rfl⟩ | ⟨-, ⟨h, rfl⟩ |
      ⟨-, ⟨h, rfl⟩ | ⟨-, ⟨h, rfl⟩ | ⟨-, ⟨h, rfl⟩ | ⟨-, ⟨h, rfl⟩ | ⟨-, h, rfl⟩⟩⟩⟩⟩⟩⟩⟩⟩
    all_goals simpa [Family.names] using h
  · exact family?_of_mem_names

/-! ## Nodes -/

def node? (t : TypeExpr) : List Nat → Option TypeExpr
  | [] => some t
  | i :: address => (t.arguments[i]?).bind (·.node? address)

/-- What a position asks of a node of a type, which is its root or not. -/
structure Admitted (serializable : List String) (position : Position) (isRoot : Prop)
    (t : TypeExpr) : Prop where
  star : t.name ≠ starName
  result : t.family? ≠ some .result
  byteStream : t.family? = some .byteStream →
    isRoot ∧ (position = .body ∨ position = .part ∨ position = .return)
  arity : ∀ family, t.family? = some family → t.arguments.length = family.arity
  named : t.family? = none → position ≠ .argument → t.name ∈ serializable

theorem induction {P : TypeExpr → Prop} (h : ∀ t, (∀ s ∈ t.arguments, P s) → P t) (t : TypeExpr) :
    P t :=
  @TypeExpr.rec P (fun ts => ∀ s ∈ ts, P s) (fun _ _ _ harguments => h _ harguments)
    (fun _ hs => absurd hs List.not_mem_nil)
    (fun _ _ ht hts => List.forall_mem_cons.mpr ⟨ht, hts⟩) t

/-- The nodes of a type are its root and the nodes of its arguments. -/
theorem forall_node_iff {t : TypeExpr} {P : List Nat → TypeExpr → Prop} :
    (∀ address n, t.node? address = some n → P address n) ↔
      P [] t ∧ ∀ i s, t.arguments[i]? = some s →
        ∀ address n, s.node? address = some n → P (i :: address) n := by
  constructor
  · intro h
    refine ⟨h [] t rfl, ?_⟩
    intro i s hs address n hn
    apply h (i :: address) n
    rw [node?, hs]
    exact hn
  · rintro ⟨hroot, harguments⟩ address n hn
    cases address with
    | nil =>
      obtain rfl := Option.some.inj hn
      exact hroot
    | cons i address =>
      obtain ⟨s, hs, hn⟩ := Option.bind_eq_some_iff.mp hn
      exact harguments i s hs address n hn

variable {serializable : List String} {root : TypeExpr} {position : Position} {top : Bool}

theorem allowsByteStream_iff :
    position.allowsByteStream = true ↔
      position = .body ∨ position = .part ∨ position = .return := by
  cases position <;> decide

/-! ## One node -/

/-- A type of the service's own is admitted by its name, where that counts. -/
theorem admitted_iff_of_named {t : TypeExpr} {isRoot : Prop} (hstar : t.name ≠ starName)
    (hfamily : t.family? = none) :
    t.Admitted serializable position isRoot ↔ (position ≠ .argument → t.name ∈ serializable) := by
  constructor
  · intro h
    exact h.named hfamily
  · intro h
    exact ⟨hstar, by simp [hfamily], by simp [hfamily], by simp [hfamily], fun _ => h⟩

/-- A built-in type is admitted by its family, its place and the number of its arguments. -/
theorem admitted_iff_of_family {t : TypeExpr} {isRoot : Prop} {family : Family}
    (hstar : t.name ≠ starName) (hfamily : t.family? = some family) :
    t.Admitted serializable position isRoot ↔ family ≠ .result ∧
      (family = .byteStream →
        isRoot ∧ (position = .body ∨ position = .part ∨ position = .return)) ∧
      t.arguments.length = family.arity := by
  constructor
  · intro h
    refine ⟨?_, ?_, h.arity family hfamily⟩
    · rintro rfl
      exact h.result hfamily
    · rintro rfl
      exact h.byteStream hfamily
  · rintro ⟨hresult, hplace, harity⟩
    refine ⟨hstar, ?_, ?_, ?_, ?_⟩
    · simpa [hfamily] using hresult
    · simpa [hfamily] using hplace
    · simpa [hfamily] using harity
    · simp [hfamily]

/-- **Nothing is wrong at a node exactly when the position admits it.** -/
theorem nodeViolations_eq_nil_iff {t : TypeExpr} :
    (nodeViolations serializable root position top t).1 = [] ↔
      t.Admitted serializable position (top = true) := by
  by_cases hstar : t.name = starName
  · rw [nodeViolations, if_pos (by simp [isStar, hstar])]
    exact iff_of_false (List.cons_ne_nil _ _) fun h => h.star hstar
  · rw [nodeViolations, if_neg (by simp [isStar, hstar])]
    cases hfamily : t.family? with
    | none =>
      rw [admitted_iff_of_named hstar hfamily]
      by_cases hname : t.name ∈ serializable <;> cases position <;>
        simp [Position.context?, hname]
    | some family =>
      -- The checks come in this order: captured outcome, place of a byte stream, arguments.
      rw [admitted_iff_of_family hstar hfamily, ← allowsByteStream_iff]
      by_cases hresult : family = .result
      · subst hresult
        simp
      · have hplace : (family = .byteStream ∧ (top = false ∨ position.allowsByteStream = false)) ↔
            ¬ (family = .byteStream → top = true ∧ position.allowsByteStream = true) := by
          cases top <;> simp
        simp only [decide_eq_true_eq, Bool.and_eq_true, Bool.not_eq_true', Bool.and_eq_false_iff,
          hplace]
        split
        · next hmisplaced => exact iff_of_false (List.cons_ne_nil _ _) fun h => hmisplaced h.2.1
        · next hplaced =>
          split
          · next harity => exact iff_of_false (List.cons_ne_nil _ _) fun h => harity h.2.2.symm
          · next harity =>
            exact iff_of_true rfl
              ⟨hresult, Classical.not_not.mp hplaced, (Classical.not_not.mp harity).symm⟩

/-! ## Whole types -/

theorem walkAll_eq_nil_iff {ts : List TypeExpr} :
    walkAll serializable root position ts = [] ↔
      ∀ t ∈ ts, walk serializable root position false t = [] := by
  induction ts with
  | nil => simp [walkAll]
  | cons t ts ih => rw [walkAll, List.append_eq_nil_iff, ih, List.forall_mem_cons]

/-- A type is looked into unless something is wrong at its root. -/
theorem snd_nodeViolations {t : TypeExpr}
    (h : (nodeViolations serializable root position top t).1 = []) :
    (nodeViolations serializable root position top t).2 = true := by
  revert h
  unfold nodeViolations
  repeat' split
  all_goals simp

/-- **A type is accepted exactly when it is accepted at its root and in its arguments.** -/
theorem walk_eq_nil_iff {t : TypeExpr} :
    walk serializable root position top t = [] ↔
      (nodeViolations serializable root position top t).1 = [] ∧
        ∀ s ∈ t.arguments, walk serializable root position false s = [] := by
  obtain ⟨n, b, as⟩ := t
  have hdeeper : (nodeViolations serializable root position top (mk n b as)).1 = [] →
      (nodeViolations serializable root position top (mk n b as)).2 = true := snd_nodeViolations
  rw [walk, ← walkAll_eq_nil_iff, List.append_eq_nil_iff]
  apply and_congr_right
  intro hhere
  rw [hdeeper hhere, if_pos rfl]
  rfl

/-- A byte stream is accepted at the root only, in some positions. -/
theorem family?_ne_byteStream {t : TypeExpr} (hplace : (top && position.allowsByteStream) = false)
    (h : walk serializable root position top t = []) : t.family? ≠ some .byteStream := by
  intro hfamily
  have hnode := nodeViolations_eq_nil_iff.mp (walk_eq_nil_iff.mp h).1
  obtain ⟨htop, hposition⟩ := hnode.byteStream hfamily
  rw [htop, allowsByteStream_iff.mpr hposition] at hplace
  cases hplace

/-- An argument of a type that is accepted is accepted too, and it is no byte stream. -/
theorem inner_of_walk {t : TypeExpr} (h : walk serializable root position top t = []) :
    ∀ s ∈ t.arguments, walk serializable root position false s = [] ∧
      s.family? ≠ some .byteStream := by
  intro s hs
  have hinner := (walk_eq_nil_iff.mp h).2 s hs
  exact ⟨hinner, family?_ne_byteStream rfl hinner⟩

/-- A walk finds nothing exactly when every node is admitted; only the node where it begins may be
the root. -/
theorem walk_eq_nil_iff_admitted {t : TypeExpr} :
    walk serializable root position top t = [] ↔ ∀ address n, t.node? address = some n →
      n.Admitted serializable position (top = true ∧ address = []) := by
  induction t using TypeExpr.induction generalizing top with
  | h t ih =>
    rw [walk_eq_nil_iff, nodeViolations_eq_nil_iff, forall_node_iff]
    refine and_congr (by simp) ?_
    constructor
    · intro h i s hs address n hn
      have hmem := List.mem_of_getElem? hs
      have hadmitted := (ih s hmem).mp (h s hmem) address n hn
      simpa using hadmitted
    · intro h s hs
      obtain ⟨i, hi⟩ := List.getElem?_of_mem hs
      apply (ih s hs).mpr
      intro address n hn
      simpa using h i s hi address n hn

/-- **Which types a position admits.**  Nothing is reported of a type exactly when every node of
it, wherever it stands, is admitted: no wildcard, no captured outcome, a byte stream only as the
root of a body, a part or a result, the right number of arguments for each built-in type, and, where
values are serialized, a serializable name for every other type. -/
theorem violations_eq_nil_iff (serializable : List String) (position : Position) (t : TypeExpr) :
    t.violations serializable position = [] ↔ ∀ address n, t.node? address = some n →
      n.Admitted serializable position (address = []) := by
  rw [violations, walk_eq_nil_iff_admitted]
  simp

end HttpService.TypeExpr
