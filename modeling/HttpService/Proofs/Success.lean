import Mathlib.Data.List.Forall2

/-!
# Steps that succeed

A computation made of steps succeeds exactly when each step does.  The lemmas here take such a
success apart into the results of its steps; as simplification rules they turn `x = .ok r`, for a
composed `x`, into what every step gave.
-/

namespace HttpService

variable {ε ε' α β : Type}

@[simp] theorem bind_ok_iff (x : Except ε α) (step : α → Except ε β) (r : β) :
    (x >>= step) = .ok r ↔ ∃ a, x = .ok a ∧ step a = .ok r := by
  cases x with
  | error e => exact ⟨nofun, nofun⟩
  | ok a => exact ⟨fun h => ⟨a, rfl, h⟩, by rintro ⟨_, ⟨⟩, h⟩; exact h⟩

@[simp] theorem exceptBind_ok_iff (x : Except ε α) (step : α → Except ε β) (r : β) :
    x.bind step = .ok r ↔ ∃ a, x = .ok a ∧ step a = .ok r :=
  bind_ok_iff x step r

theorem ok_bind (a : α) (step : α → Except ε β) : (Except.ok a >>= step) = step a := rfl

@[simp] theorem pure_ok_iff (a r : α) : (pure a : Except ε α) = .ok r ↔ a = r :=
  ⟨Except.ok.inj, congrArg Except.ok⟩

@[simp] theorem throw_ok_iff (e : ε) (r : α) : (throw e : Except ε α) = .ok r ↔ False :=
  ⟨nofun, False.elim⟩

@[simp] theorem map_ok_iff (x : Except ε α) (f : α → β) (r : β) :
    x.map f = .ok r ↔ ∃ a, x = .ok a ∧ f a = r := by
  cases x with
  | error e => exact ⟨nofun, nofun⟩
  | ok a => exact ⟨fun h => ⟨a, rfl, Except.ok.inj h⟩, by rintro ⟨_, ⟨⟩, rfl⟩; rfl⟩

/-- What a fault is called has no part in a success. -/
@[simp] theorem mapError_ok_iff (x : Except ε α) (name : ε → ε') (r : α) :
    x.mapError name = .ok r ↔ x = .ok r := by
  cases x with
  | error e => exact ⟨nofun, nofun⟩
  | ok a => exact ⟨fun h => congrArg Except.ok (Except.ok.inj h), by rintro ⟨⟩; rfl⟩

theorem bind_error_iff (x : Except ε α) (step : α → Except ε β) (e : ε) :
    (x >>= step) = .error e ↔ x = .error e ∨ ∃ a, x = .ok a ∧ step a = .error e := by
  cases x with
  | error e' => exact ⟨fun h => .inl (congrArg Except.error (Except.error.inj h)),
      by rintro (⟨⟨⟩⟩ | ⟨_, ⟨⟩, _⟩); rfl⟩
  | ok a => exact ⟨fun h => .inr ⟨a, rfl, h⟩, by rintro (⟨⟨⟩⟩ | ⟨_, ⟨⟩, h⟩); exact h⟩

theorem map_error_iff (x : Except ε α) (f : α → β) (e : ε) : x.map f = .error e ↔ x = .error e := by
  cases x with
  | error e' => exact ⟨fun h => congrArg Except.error (Except.error.inj h), by rintro ⟨⟩; rfl⟩
  | ok a => exact ⟨nofun, nofun⟩

theorem mapError_error_iff (x : Except ε α) (name : ε → ε') (e : ε') :
    x.mapError name = .error e ↔ ∃ e', x = .error e' ∧ name e' = e := by
  cases x with
  | error e' => exact ⟨fun h => ⟨e', rfl, Except.error.inj h⟩, by rintro ⟨_, ⟨⟩, rfl⟩; rfl⟩
  | ok a => exact ⟨nofun, nofun⟩

/-- A step on every element of a list succeeds when it does on each of them. -/
theorem mapM_ok_iff {step : α → Except ε β} {l : List α} {r : List β} :
    l.mapM step = .ok r ↔ List.Forall₂ (fun a b => step a = .ok b) l r := by
  induction l generalizing r with
  | nil =>
    rw [List.mapM_nil, pure_ok_iff, List.forall₂_nil_left_iff]
    exact eq_comm
  | cons a l ih =>
    simp only [List.mapM_cons, bind_ok_iff, pure_ok_iff, List.forall₂_cons_left_iff, ih]
    constructor
    · rintro ⟨b, hb, bs, hbs, rfl⟩
      exact ⟨b, bs, hb, hbs, rfl⟩
    · rintro ⟨b, bs, hb, hbs, rfl⟩
      exact ⟨b, hb, bs, hbs, rfl⟩

theorem exists_mapM_iff {step : α → Except ε β} {l : List α} :
    (∃ r, l.mapM step = .ok r) ↔ ∀ a ∈ l, ∃ b, step a = .ok b := by
  induction l with
  | nil => exact ⟨fun _ => nofun, fun _ => ⟨[], rfl⟩⟩
  | cons a l ih =>
    rw [List.forall_mem_cons, ← ih]
    simp only [List.mapM_cons, bind_ok_iff, pure_ok_iff]
    constructor
    · rintro ⟨_, b, hb, bs, hbs, -⟩
      exact ⟨⟨b, hb⟩, bs, hbs⟩
    · rintro ⟨⟨b, hb⟩, bs, hbs⟩
      exact ⟨_, b, hb, bs, hbs, rfl⟩

/-- It fails with the fault of one of them. -/
theorem exists_of_mapM_error {step : α → Except ε β} {l : List α} {e : ε}
    (h : l.mapM step = .error e) : ∃ a ∈ l, step a = .error e := by
  induction l with
  | nil => cases h
  | cons a l ih =>
    rw [List.mapM_cons, bind_error_iff] at h
    rcases h with h | ⟨b, -, h⟩
    · exact ⟨a, List.mem_cons_self, h⟩
    · rcases (bind_error_iff _ _ _).mp h with h | ⟨bs, -, ⟨⟩⟩
      obtain ⟨a', ha', hstep⟩ := ih h
      exact ⟨a', List.mem_cons_of_mem a ha', hstep⟩

theorem exists_of_mem_mapM {step : α → Except ε β} {l : List α} {r : List β}
    (h : l.mapM step = .ok r) {b : β} (hb : b ∈ r) : ∃ a ∈ l, step a = .ok b := by
  induction mapM_ok_iff.mp h with
  | nil => cases hb
  | @cons a b' l r ha hl ih =>
    rcases List.mem_cons.mp hb with rfl | hb
    · exact ⟨a, List.mem_cons_self, ha⟩
    · obtain ⟨a', ha', hstep⟩ := ih (mapM_ok_iff.mpr hl) hb
      exact ⟨a', List.mem_cons_of_mem a ha', hstep⟩

theorem exists_mem_of_mapM {step : α → Except ε β} {l : List α} {r : List β}
    (h : l.mapM step = .ok r) {a : α} (ha : a ∈ l) : ∃ b ∈ r, step a = .ok b := by
  induction mapM_ok_iff.mp h with
  | nil => cases ha
  | @cons a' b l r hstep hl ih =>
    rcases List.mem_cons.mp ha with rfl | ha
    · exact ⟨b, List.mem_cons_self, hstep⟩
    · obtain ⟨b', hb', hstep'⟩ := ih (mapM_ok_iff.mpr hl) ha
      exact ⟨b', List.mem_cons_of_mem b hb', hstep'⟩

/-- What is known of the result of each step is known of all. -/
theorem map_of_mapM {γ : Type} {step : α → Except ε β} {f : β → γ} {g : α → γ}
    (hstep : ∀ a b, step a = .ok b → f b = g a) {l : List α} {r : List β}
    (h : l.mapM step = .ok r) : r.map f = l.map g := by
  induction mapM_ok_iff.mp h with
  | nil => rfl
  | cons ha hl ih => rw [List.map_cons, List.map_cons, hstep _ _ ha, ih (mapM_ok_iff.mpr hl)]

/-- The same of steps that give lists, laid end to end. -/
theorem map_flatten_of_mapM {γ : Type} {step : α → Except ε (List β)} {f : β → γ} {g : α → List γ}
    (hstep : ∀ a bs, step a = .ok bs → bs.map f = g a) {l : List α} {r : List (List β)}
    (h : l.mapM step = .ok r) : r.flatten.map f = l.flatMap g := by
  rw [List.map_flatten, map_of_mapM hstep h, List.flatMap_def]

/-- The same of steps that give a value or none. -/
theorem mapM_eq_some_iff {step : α → Option β} {l : List α} {r : List β} :
    l.mapM step = some r ↔ List.Forall₂ (fun a b => step a = some b) l r := by
  induction l generalizing r with
  | nil =>
    rw [List.mapM_nil, Option.pure_def, Option.some.injEq, List.forall₂_nil_left_iff]
    exact eq_comm
  | cons a l ih =>
    simp only [List.mapM_cons, Option.bind_eq_bind, Option.bind_eq_some_iff, Option.pure_def,
      Option.some.injEq, List.forall₂_cons_left_iff, ih]
    constructor
    · rintro ⟨b, hb, bs, hbs, rfl⟩
      exact ⟨b, bs, hb, hbs, rfl⟩
    · rintro ⟨b, bs, hb, hbs, rfl⟩
      exact ⟨b, hb, bs, hbs, rfl⟩

end HttpService
