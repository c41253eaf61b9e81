import HttpService.Call.Chain
import Mathlib.Data.List.Induction

/-!
# Nesting of a chain

A run of a chain moves one cursor about.  `Course` says what an interceptor goes through, and
knows no cursor that is moved: the place is an index of the relation, proceeding has the course of
the next place inside, and what comes after has the place of before.

* `visit_iff_run`: the moved cursor goes the courses, and there is one for every start.
* `Course.index_lt`: every step of a course is taken inside the chain.
* `Course.depth`: the steps open and close the places of the chain one inside the other.
-/

namespace HttpService

namespace Chain

variable {σ : Type} {interceptors : List (Interceptor σ)}

/-! ## Courses -/

/-- What comes of a plan that is followed at place `i`, where the current request is `r`.

Ending leaves the place.  Proceeding with `q` from the last place is refused.  From any other, the
interceptor of the next place is entered, once and with `q`; its whole course, up to where it is
left, lies before the return; and the plan goes on at place `i`, with the outcome of that course
and the request on which it came to its end. -/
inductive Course (interceptors : List (Interceptor σ)) : Nat → Request → Plan σ → Run σ → Prop
  | finish {i : Nat} {r : Request} {state : σ} {result : Except CallFault Outcome} :
    Course interceptors i r (.finish state result)
      ⟨state, ⟨i, r⟩, conclude r result, [.left i (conclude r result)]⟩
  | refused {i : Nat} {r q : Request} {state : σ} {resume : Cursor → σ → Outcome → Plan σ}
    {rest : Run σ} (hlast : interceptors[i + 1]? = none)
    (hrest : Course interceptors i q
      (resume ⟨i, q⟩ state (fail q (.chain .proceedPastTerminal))) rest) :
    Course interceptors i r (.proceed state q resume)
      (rest.after i q [] ⟨i, q⟩ (fail q (.chain .proceedPastTerminal)))
  | nested {i : Nat} {r q : Request} {state : σ} {resume : Cursor → σ → Outcome → Plan σ}
    {next : Interceptor σ} {inner rest : Run σ} (hnext : interceptors[i + 1]? = some next)
    (hinner : Course interceptors (i + 1) q (next ⟨i + 1, q⟩ state) inner)
    (hrest : Course interceptors i inner.cursor.request
      (resume ⟨i, inner.cursor.request⟩ inner.state inner.outcome) rest) :
    Course interceptors i r (.proceed state q resume)
      (rest.after i q (inner.enter ⟨i + 1, q⟩).trace ⟨i, inner.cursor.request⟩ inner.outcome)

/-- The interceptor of place `i` is entered with a request and goes its course. -/
def Visit (interceptors : List (Interceptor σ)) (i : Nat) (r : Request) (state : σ)
    (run : Run σ) : Prop :=
  ∃ interceptor inner, interceptors[i]? = some interceptor ∧
    Course interceptors i r (interceptor ⟨i, r⟩ state) inner ∧ run = inner.enter ⟨i, r⟩

theorem Course.unique {i : Nat} {r : Request} {plan : Plan σ} {run run' : Run σ}
    (h : Course interceptors i r plan run) (h' : Course interceptors i r plan run') :
    run = run' := by
  induction h generalizing run' with
  | finish =>
    cases h' with
    | finish => rfl
  | refused hlast _ ih =>
    cases h' with
    | refused _ hrest' => rw [ih hrest']
    | nested hnext' _ _ => rw [hlast] at hnext'; cases hnext'
  | nested hnext _ _ ihinner ihrest =>
    cases h' with
    | refused hlast' _ => rw [hnext] at hlast'; cases hlast'
    | nested hnext' hinner' hrest' =>
      obtain rfl := Option.some.inj (hnext.symm.trans hnext')
      obtain rfl := ihinner hinner'
      rw [ihrest hrest']

theorem Visit.unique {i : Nat} {r : Request} {state : σ} {run run' : Run σ}
    (h : Visit interceptors i r state run) (h' : Visit interceptors i r state run') :
    run = run' := by
  obtain ⟨x, inner, hx, hcourse, rfl⟩ := h
  obtain ⟨x', inner', hx', hcourse', rfl⟩ := h'
  obtain rfl := Option.some.inj (hx.symm.trans hx')
  rw [hcourse.unique hcourse']

/-! ## The moved cursor goes the courses -/

theorem course_follow {start : Nat} {enter : (c : Cursor) → start < c.index → σ → Run σ}
    (henter : ∀ c (h : start < c.index) state, c.index < interceptors.length →
      Visit interceptors c.index c.request state (enter c h state))
    (plan : Plan σ) (c : Cursor) (h : start ≤ c.index) :
    Course interceptors c.index c.request plan
      (follow interceptors.length start enter c h plan) := by
  induction plan generalizing c with
  | finish state result => exact .finish
  | proceed state q resume ih =>
    unfold follow
    split
    next hlast => exact .refused (List.getElem?_eq_none hlast) (ih _ _ _ ⟨c.index, q⟩ h)
    next hnext =>
      obtain ⟨next, inner, hget, hinner, hrun⟩ :=
        henter ⟨c.index + 1, q⟩ (Nat.lt_succ_of_le h) state (Nat.lt_of_not_le hnext)
      simp only [hrun]
      exact .nested hget hinner (ih _ _ _ ⟨c.index, inner.cursor.request⟩ h)

theorem visit_invoke (c : Cursor) (state : σ) (h : c.index < interceptors.length) :
    Visit interceptors c.index c.request state (invoke interceptors c state) := by
  induction hn : interceptors.length - c.index using Nat.strongRecOn
    generalizing c state with
  | ind n ih =>
    unfold invoke
    rw [dif_pos h]
    refine ⟨_, _, List.getElem?_eq_getElem h, course_follow ?_ _ c (Nat.le_refl _), rfl⟩
    intro next hnext state hlt
    exact ih _ (by omega) next state hlt rfl

/-- **The moved cursor goes the courses**: a visit of the first place is what a run of the chain
comes to. -/
theorem visit_iff_run (hne : interceptors ≠ []) (request : Request) (state : σ) (run : Run σ) :
    Visit interceptors 0 request state run ↔ run = Chain.run interceptors request state := by
  have hrun : Chain.run interceptors request state = invoke interceptors ⟨0, request⟩ state := by
    rw [Chain.run, if_neg (by simpa using hne)]
  have hvisit : Visit interceptors 0 request state (Chain.run interceptors request state) := by
    rw [hrun]
    exact visit_invoke ⟨0, request⟩ state (List.length_pos_iff.mpr hne)
  exact ⟨fun h => h.unique hvisit, fun h => h ▸ hvisit⟩

end Chain

/-! ## Steps of a course -/

namespace Event

/-- The place at which a step is taken. -/
def index : Event → Nat
  | entered cursor => cursor.index
  | proceeded index _ => index
  | resumed cursor _ => cursor.index
  | left index _ => index

/-- The number of places that are open after a step, when so many were before.  The next place may
be entered, and the place that was entered last may proceed, be resumed, and be left; no other step
is possible. -/
def depth? (depth : Nat) : Event → Option Nat
  | entered cursor => if cursor.index = depth then some (depth + 1) else none
  | proceeded index _ => if index + 1 = depth then some depth else none
  | resumed cursor _ => if cursor.index + 1 = depth then some depth else none
  | left index _ => if index + 1 = depth then some index else none

theorem depth_le {depth d : Nat} {event : Event} (h : event.depth? depth = some d) :
    d ≤ event.index + 1 := by
  cases event <;> simp only [depth?, Option.ite_none_right_eq_some, Option.some.injEq] at h <;>
    simp only [index] <;> omega

/-- Before the end of a sequence of steps, no more places are open than there are. -/
theorem depth_le_of_prefix {n depth : Nat} {steps trace : List Event}
    (hindex : ∀ event ∈ trace, event.index < n) (htrace : (trace.foldlM depth? 0) = some depth)
    (hsteps : steps <+: trace) : ∃ d ≤ n, steps.foldlM depth? 0 = some d := by
  obtain ⟨later, rfl⟩ := hsteps
  rw [List.foldlM_append] at htrace
  obtain ⟨d, hd, -⟩ := Option.bind_eq_some_iff.mp htrace
  refine ⟨d, ?_, hd⟩
  cases steps using List.reverseRecOn with
  | nil =>
    obtain rfl : 0 = d := Option.some.inj hd
    exact Nat.zero_le n
  | append_singleton steps event =>
    rw [List.foldlM_append] at hd
    obtain ⟨before, -, hlast⟩ := Option.bind_eq_some_iff.mp hd
    have hevent := hindex event (by simp)
    have hle := depth_le (show event.depth? before = some d by simpa using hlast)
    omega

end Event

namespace Chain

variable {σ : Type} {interceptors : List (Interceptor σ)} {i : Nat} {r : Request} {plan : Plan σ}
  {state : σ} {run : Run σ}

theorem Course.cursor_index (h : Course interceptors i r plan run) : run.cursor.index = i := by
  induction h with
  | finish => rfl
  | refused _ _ ih => exact ih
  | nested _ _ _ _ ih => exact ih

/-- **Every step is taken inside the chain.** -/
theorem Course.index_lt (h : Course interceptors i r plan run) (hi : i < interceptors.length) :
    ∀ event ∈ run.trace, event.index < interceptors.length := by
  induction h with
  | finish => simpa [Event.index] using hi
  | refused _ _ ih => simpa [Run.after, Event.index, hi] using ih hi
  | nested hnext _ _ ihinner ihrest =>
    have hi' := (List.getElem?_eq_some_iff.mp hnext).1
    simp only [Run.after, Run.enter, List.cons_append, List.mem_cons, List.mem_append]
    rintro event (rfl | rfl | hevent | rfl | hevent)
    · exact hi
    · exact hi'
    · exact ihinner hi' event hevent
    · exact hi
    · exact ihrest hi event hevent

/-- **The steps of a course close what they open**, down to the place that is left at last. -/
theorem Course.depth (h : Course interceptors i r plan run) :
    run.trace.foldlM Event.depth? (i + 1) = some i := by
  induction h with
  | finish => simp [Event.depth?]
  | refused _ _ ih => simpa [Run.after, Event.depth?] using ih
  | nested _ _ _ ihinner ihrest =>
    simp [Run.after, Run.enter, Event.depth?, ihinner, ihrest]

theorem Visit.index_lt (h : Visit interceptors i r state run) :
    ∀ event ∈ run.trace, event.index < interceptors.length := by
  obtain ⟨x, inner, hx, hcourse, rfl⟩ := h
  have hi := (List.getElem?_eq_some_iff.mp hx).1
  intro event hevent
  rcases List.mem_cons.mp hevent with rfl | hevent
  · exact hi
  · exact hcourse.index_lt hi event hevent

theorem Visit.cursor_index (h : Visit interceptors i r state run) : run.cursor.index = i := by
  obtain ⟨x, inner, -, hcourse, rfl⟩ := h
  exact hcourse.cursor_index

theorem Visit.depth (h : Visit interceptors i r state run) :
    run.trace.foldlM Event.depth? i = some i := by
  obtain ⟨x, inner, hx, hcourse, rfl⟩ := h
  simpa [Run.enter, Event.depth?] using hcourse.depth

/-- What makes a run well bracketed: it is a visit of the first place, the cursor is inside the
chain at every step and is put back at last, the steps open and close places in order until none is
open, and never are more places open than the chain has. -/
structure WellBracketed (interceptors : List (Interceptor σ)) (request : Request) (state : σ)
    (run : Run σ) : Prop where
  visit : Visit interceptors 0 request state run
  index_lt : ∀ event ∈ run.trace, event.index < interceptors.length
  cursor_index : run.cursor.index = 0
  closed : run.trace.foldlM Event.depth? 0 = some 0
  depth_le : ∀ steps, steps <+: run.trace →
    ∃ d ≤ interceptors.length, steps.foldlM Event.depth? 0 = some d

/-- **Every run of a chain is well bracketed**, whatever its interceptors do. -/
theorem wellBracketed_run (hne : interceptors ≠ []) (request : Request) (state : σ) :
    WellBracketed interceptors request state (Chain.run interceptors request state) := by
  have hvisit := (visit_iff_run hne request state _).mpr rfl
  exact ⟨hvisit, hvisit.index_lt, hvisit.cursor_index, hvisit.depth,
    fun _ hsteps => Event.depth_le_of_prefix hvisit.index_lt hvisit.depth hsteps⟩

end Chain

end HttpService
