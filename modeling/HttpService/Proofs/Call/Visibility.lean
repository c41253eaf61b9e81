import HttpService.Proofs.Call.Nesting
import HttpService.Proofs.Call.Shapes

/-!
# The request that an interceptor sees

The cursor of a chain holds one current request for all places.  Proceeding puts a request there,
and nothing puts the earlier one back; so an interceptor that is resumed, or that ends with a fault,
sees the request that was passed on last, by itself or by anyone behind it.

* `Stage` says how far an interceptor has come since it was entered: the steps that were taken, the
  request that it sees, and what it is about to do.  `exists_stage_of_visit`: every visit of a place
  comes to the stage at which the interceptor ends.
* `Stage.request_eq`: what is seen is what was passed on last.
* `request_seen_iff`: so the request that an interceptor passed on is there when it is resumed, and
  a fault carries it, exactly when nobody behind it has passed on another one since.
-/

namespace HttpService

def Event.passed? : Event → Option Request
  | proceeded _ request => some request
  | _ => none

/-- The request that a step of place `i` passes on. -/
def Event.passedFrom? (i : Nat) : Event → Option Request
  | proceeded index request => if index = i then some request else none
  | _ => none

namespace Chain

variable {σ : Type} {interceptors : List (Interceptor σ)} {i : Nat} {r : Request}

/-- The request that was passed on last, from whatever place; `r` when there was none. -/
def lastPassed (r : Request) (steps : List Event) : Request :=
  steps.foldl (fun last step => step.passed?.getD last) r

/-- The request that place `i` itself passed on last; `r` when there was none. -/
def lastPassedFrom (i : Nat) (r : Request) (steps : List Event) : Request :=
  steps.foldl (fun last step => (step.passedFrom? i).getD last) r

/-! ## Stages of an interceptor -/

/-- One call of the rest of the chain from place `i`, with the request `q`: what the plan was, the
steps that were taken behind it, the outcome with which it is resumed, the request that it sees
then, and how it goes on. -/
inductive Proceeds (interceptors : List (Interceptor σ)) (i : Nat) (q : Request) :
    Plan σ → List Event → Outcome → Request → Plan σ → Prop
  | refused {state : σ} {resume : Cursor → σ → Outcome → Plan σ}
    (hlast : interceptors[i + 1]? = none) :
    Proceeds interceptors i q (.proceed state q resume) []
      (fail q (.chain .proceedPastTerminal)) q
      (resume ⟨i, q⟩ state (fail q (.chain .proceedPastTerminal)))
  | nested {state : σ} {resume : Cursor → σ → Outcome → Plan σ} {inner : Run σ}
    (hinner : Visit interceptors (i + 1) q state inner) :
    Proceeds interceptors i q (.proceed state q resume) inner.trace inner.outcome
      inner.cursor.request
      (resume ⟨i, inner.cursor.request⟩ inner.state inner.outcome)

/-- How far an interceptor of place `i` has come that was entered with the request `r` and a plan:
the steps that were taken since, the request that it sees, and what is left of its plan. -/
inductive Stage (interceptors : List (Interceptor σ)) (i : Nat) (r : Request) (plan : Plan σ) :
    List Event → Request → Plan σ → Prop
  | start : Stage interceptors i r plan [] r plan
  | next {steps inner : List Event} {seen q seen' : Request} {now now' : Plan σ}
    {outcome : Outcome} (h : Stage interceptors i r plan steps seen now)
    (hnext : Proceeds interceptors i q now inner outcome seen' now') :
    Stage interceptors i r plan
      (steps ++ .proceeded i q :: inner ++ [.resumed ⟨i, seen'⟩ outcome]) seen' now'

section

variable {plan now now' : Plan σ} {steps inner : List Event} {q seen seen' : Request}
  {outcome : Outcome} {run : Run σ}

theorem Proceeds.course (h : Proceeds interceptors i q now inner outcome seen' now')
    (hrest : Course interceptors i seen' now' run) (seen : Request) :
    Course interceptors i seen now (run.after i q inner ⟨i, seen'⟩ outcome) := by
  cases h with
  | refused hlast => exact .refused hlast hrest
  | nested hinner =>
    obtain ⟨next, course, hnext, hcourse, rfl⟩ := hinner
    exact .nested hnext hcourse hrest

theorem Stage.course (h : Stage interceptors i r plan steps seen now)
    (hrest : Course interceptors i seen now run) :
    Course interceptors i r plan { run with trace := steps ++ run.trace } := by
  induction h generalizing run with
  | start => exact hrest
  | next _ hnext ih =>
    have hcourse := ih (hnext.course hrest _)
    simpa [Run.after] using hcourse

theorem Stage.after (hfirst : Proceeds interceptors i q plan inner outcome seen' now')
    (h : Stage interceptors i seen' now' steps seen now) :
    Stage interceptors i r plan
      (.proceeded i q :: inner ++ .resumed ⟨i, seen'⟩ outcome :: steps) seen now := by
  induction h with
  | start => exact .next .start hfirst
  | next _ hnext ih => simpa using ih.next hnext

end

/-- Every course comes to a stage at which the interceptor ends. -/
theorem exists_stage_of_course {plan : Plan σ} {run : Run σ}
    (h : Course interceptors i r plan run) :
    ∃ steps seen state result, Stage interceptors i r plan steps seen (.finish state result) ∧
      run = ⟨state, ⟨i, seen⟩, conclude seen result, steps ++ [.left i (conclude seen result)]⟩ := by
  induction h with
  | @finish i r state result => exact ⟨[], r, state, result, .start, rfl⟩
  | refused hlast _ ih =>
    obtain ⟨steps, seen, state, result, hstage, rfl⟩ := ih
    exact ⟨_, seen, state, result, hstage.after (.refused hlast), by simp [Run.after]⟩
  | nested hnext hinner _ _ ih =>
    obtain ⟨steps, seen, state, result, hstage, rfl⟩ := ih
    exact ⟨_, seen, state, result, hstage.after (.nested ⟨_, _, hnext, hinner, rfl⟩),
      by simp [Run.after, Run.enter]⟩

/-- **Every visit of a place comes to the stage at which its interceptor ends**, and leaves what is
there then. -/
theorem exists_stage_of_visit {state : σ} {run : Run σ} (h : Visit interceptors i r state run) :
    ∃ interceptor steps seen last result, interceptors[i]? = some interceptor ∧
      Stage interceptors i r (interceptor ⟨i, r⟩ state) steps seen (.finish last result) ∧
      run = ⟨last, ⟨i, seen⟩, conclude seen result,
        .entered ⟨i, r⟩ :: steps ++ [.left i (conclude seen result)]⟩ := by
  obtain ⟨interceptor, inner, hget, hcourse, rfl⟩ := h
  obtain ⟨steps, seen, last, result, hstage, rfl⟩ := exists_stage_of_course hcourse
  exact ⟨interceptor, steps, seen, last, result, hget, hstage, rfl⟩

theorem Stage.visit {interceptor : Interceptor σ} {state last : σ} {steps : List Event}
    {seen : Request} {result : Except CallFault Outcome}
    (hget : interceptors[i]? = some interceptor)
    (h : Stage interceptors i r (interceptor ⟨i, r⟩ state) steps seen (.finish last result)) :
    Visit interceptors i r state
      ⟨last, ⟨i, seen⟩, conclude seen result,
        .entered ⟨i, r⟩ :: steps ++ [.left i (conclude seen result)]⟩ :=
  ⟨interceptor, _, hget, h.course .finish, rfl⟩

/-! ## What is seen -/

theorem lastPassed_append (r : Request) (steps later : List Event) :
    lastPassed r (steps ++ later) = lastPassed (lastPassed r steps) later :=
  List.foldl_append

/-- The request on which a course comes to its end is the one that was passed on last. -/
theorem Course.request_eq {plan : Plan σ} {run : Run σ} (h : Course interceptors i r plan run) :
    run.cursor.request = lastPassed r run.trace := by
  induction h with
  | finish => rfl
  | @refused i r q state resume rest _ _ ih =>
    show rest.cursor.request = lastPassed q rest.trace
    exact ih
  | @nested i r q state resume next inner rest _ _ _ ihinner ihrest =>
    show rest.cursor.request
      = lastPassed q (inner.trace ++ .resumed ⟨i, inner.cursor.request⟩ inner.outcome :: rest.trace)
    rw [lastPassed_append, ← ihinner]
    exact ihrest

theorem Visit.request_eq {state : σ} {run : Run σ} (h : Visit interceptors i r state run) :
    run.cursor.request = lastPassed r run.trace := by
  obtain ⟨interceptor, inner, -, hcourse, rfl⟩ := h
  exact hcourse.request_eq

theorem Proceeds.request_eq {q seen' : Request} {now now' : Plan σ} {inner : List Event}
    {outcome : Outcome} (h : Proceeds interceptors i q now inner outcome seen' now') :
    seen' = lastPassed q inner := by
  cases h with
  | refused => rfl
  | nested hinner => exact hinner.request_eq

/-- **What an interceptor sees is what was passed on last**, by itself or by anyone behind it. -/
theorem Stage.request_eq {plan now : Plan σ} {steps : List Event} {seen : Request}
    (h : Stage interceptors i r plan steps seen now) : seen = lastPassed r steps := by
  induction h with
  | start => rfl
  | next _ hnext ih =>
    rw [lastPassed_append, lastPassed_append]
    exact hnext.request_eq

/-- The request that was passed on last is `r` exactly when nothing was passed on, or `r` last. -/
theorem lastPassed_eq_self_iff {r : Request} {steps : List Event} :
    lastPassed r steps = r ↔ ∀ q ∈ (steps.filterMap Event.passed?).getLast?, q = r := by
  induction steps using List.reverseRecOn with
  | nil => simp [lastPassed]
  | append_singleton steps step ih =>
    rw [lastPassed_append, List.filterMap_append]
    cases hstep : step.passed? with
    | none => simpa [lastPassed, hstep] using ih
    | some q => simp [lastPassed, hstep]

/-! ## Inside a run -/

/-- Whoever is entered in a course is visited, and the steps of the visit are among its steps. -/
theorem Course.exists_visit {plan : Plan σ} {run : Run σ} {c : Cursor}
    (h : Course interceptors i r plan run) (hc : .entered c ∈ run.trace) :
    ∃ state visit, Visit interceptors c.index c.request state visit ∧
      visit.trace <:+: run.trace := by
  induction h with
  | finish => simp at hc
  | @refused i r q state resume rest _ _ ih =>
    obtain ⟨s, visit, hvisit, hsteps⟩ := ih (by simpa [Run.after] using hc)
    exact ⟨s, visit, hvisit, hsteps.trans (List.suffix_append [_, _] rest.trace).isInfix⟩
  | @nested i r q state resume next inner rest hnext hinner _ ihinner ihrest =>
    -- The steps of the nested visit, and those after the return, are parts of the whole.
    have hwhole : (inner.enter ⟨i + 1, q⟩).trace <:+:
        (rest.after i q (inner.enter ⟨i + 1, q⟩).trace ⟨i, inner.cursor.request⟩
          inner.outcome).trace :=
      ⟨[.proceeded i q], .resumed ⟨i, inner.cursor.request⟩ inner.outcome :: rest.trace, by
        simp [Run.after]⟩
    have hafter : rest.trace <:+
        (rest.after i q (inner.enter ⟨i + 1, q⟩).trace ⟨i, inner.cursor.request⟩
          inner.outcome).trace :=
      ⟨.proceeded i q :: (inner.enter ⟨i + 1, q⟩).trace ++
        [.resumed ⟨i, inner.cursor.request⟩ inner.outcome], by simp [Run.after]⟩
    simp only [Run.after, Run.enter, List.cons_append, List.mem_cons, List.mem_append, reduceCtorEq,
      false_or, Event.entered.injEq] at hc
    rcases hc with rfl | hc | hc
    · exact ⟨state, _, ⟨next, inner, hnext, hinner, rfl⟩, hwhole⟩
    · obtain ⟨s, visit, hvisit, hsteps⟩ := ihinner hc
      have henter : inner.trace <:+: (inner.enter ⟨i + 1, q⟩).trace :=
        (List.suffix_cons _ inner.trace).isInfix
      exact ⟨s, visit, hvisit, (hsteps.trans henter).trans hwhole⟩
    · obtain ⟨s, visit, hvisit, hsteps⟩ := ihrest hc
      exact ⟨s, visit, hvisit, hsteps.trans hafter.isInfix⟩

theorem Visit.exists_visit {state : σ} {run : Run σ} {c : Cursor}
    (h : Visit interceptors i r state run) (hc : .entered c ∈ run.trace) :
    ∃ s visit, Visit interceptors c.index c.request s visit ∧ visit.trace <:+: run.trace := by
  have hself := h
  obtain ⟨interceptor, inner, -, hcourse, rfl⟩ := h
  rcases List.mem_cons.mp hc with hfirst | hc
  · obtain rfl := Event.entered.inj hfirst
    exact ⟨state, _, hself, List.infix_rfl⟩
  · obtain ⟨s, visit, hvisit, hsteps⟩ := hcourse.exists_visit hc
    exact ⟨s, visit, hvisit, hsteps.trans (List.suffix_cons _ inner.trace).isInfix⟩

/-- **Whoever is entered in a run comes to its end**, and its steps are among those of the run. -/
theorem exists_stage_of_entered {request : Request} {state : σ} {c : Cursor}
    (hc : .entered c ∈ (Chain.run interceptors request state).trace) :
    ∃ interceptor s steps seen last result, interceptors[c.index]? = some interceptor ∧
      Stage interceptors c.index c.request (interceptor c s) steps seen (.finish last result) ∧
      .entered c :: steps ++ [.left c.index (conclude seen result)] <:+:
        (Chain.run interceptors request state).trace := by
  by_cases hne : interceptors = []
  · simp [Chain.run, hne] at hc
  · have hvisit := (visit_iff_run hne request state _).mpr rfl
    obtain ⟨s, visit, hinner, hsteps⟩ := hvisit.exists_visit hc
    obtain ⟨x, steps, seen, last, result, hget, hstage, rfl⟩ := exists_stage_of_visit hinner
    exact ⟨x, s, steps, seen, last, result, hget, hstage, hsteps⟩

end Chain

/-- **The request that an interceptor passed on is there when it is resumed exactly when nobody
behind it passed on another one last**; and a fault with which it ends carries the request that it
passed on last itself, or the one with which it was entered, exactly when that is also the request
that was passed on last by anyone since.  This is so at every stage of whoever is entered, and
whoever is entered in a run comes to its end. -/
theorem request_seen_iff {σ : Type} (interceptors : List (Interceptor σ)) :
    (∀ (request : Request) (state : σ) (c : Cursor),
      .entered c ∈ (Chain.run interceptors request state).trace →
        ∃ interceptor s steps seen last result, interceptors[c.index]? = some interceptor ∧
          Chain.Stage interceptors c.index c.request (interceptor c s) steps seen
            (.finish last result) ∧
          .entered c :: steps ++ [.left c.index (Chain.conclude seen result)] <:+:
            (Chain.run interceptors request state).trace) ∧
    ∀ (i : Nat) (r : Request) (interceptor : Interceptor σ) (s : σ) (steps : List Event)
      (seen : Request) (now : Plan σ), interceptors[i]? = some interceptor →
      Chain.Stage interceptors i r (interceptor ⟨i, r⟩ s) steps seen now →
        (∀ q inner outcome seen' now', Chain.Proceeds interceptors i q now inner outcome seen' now' →
          (seen' = q ↔ ∀ q' ∈ (inner.filterMap Event.passed?).getLast?, q' = q)) ∧
        ∀ last fault, now = .finish last (.error fault) →
          ∃ run, Chain.Visit interceptors i r s run ∧
            run.outcome = .failed ⟨Chain.lastPassed r steps, fault⟩ ∧
            (run.outcome = .failed ⟨Chain.lastPassedFrom i r steps, fault⟩ ↔
              Chain.lastPassed r steps = Chain.lastPassedFrom i r steps) := by
  refine ⟨fun request state c hc => Chain.exists_stage_of_entered hc, ?_⟩
  intro i r interceptor s steps seen now hget hstage
  constructor
  · intro q inner outcome seen' now' hnext
    rw [hnext.request_eq, Chain.lastPassed_eq_self_iff]
  · rintro last fault rfl
    obtain rfl := hstage.request_eq
    refine ⟨_, hstage.visit hget, rfl, ?_⟩
    simp [Chain.conclude, Chain.fail]

/-- An interceptor that passes its request on and then fails. -/
def failingLate : Interceptor Unit := fun cursor _ =>
  .proceed () cursor.request fun _ _ _ => .finish () (.error (.interceptor "late"))

/-- An interceptor that adds a header to what it passes on. -/
def tagging : Interceptor Unit := fun cursor _ =>
  .proceed () (cursor.request.addHeader "X-B" "1") fun _ _ outcome => .finish () (.ok outcome)

/-- An interceptor that answers with an empty response. -/
def answering : Interceptor Unit := fun cursor _ =>
  .finish () (.ok (.answered ⟨cursor.request, 200, [], [], Response.defaultVersion⟩))

/-- The first of three interceptors is entered and fails with the request of the second one. -/
theorem request_seen_iff_failingLate :
    let q := Request.ofUrl .get (.web refusedClient.base.url)
    let q' := q.addHeader "X-B" "1"
    (∃ s steps seen last result,
      Chain.Stage [failingLate, tagging, answering] 0 q (failingLate ⟨0, q⟩ s) steps seen
        (.finish last result)) ∧
      (q' = q ↔ ∀ p ∈ some q', p = q) ∧
      ∃ run, Chain.Visit [failingLate, tagging, answering] 0 q () run ∧
        run.outcome = .failed ⟨q', .interceptor "late"⟩ ∧
        (run.outcome = .failed ⟨q, .interceptor "late"⟩ ↔ q' = q) := by
  intro q q'
  have hiff := request_seen_iff [failingLate, tagging, answering]
  have hfirst : Chain.Visit [failingLate, tagging, answering] 0 q () _ :=
    ⟨failingLate, _, rfl, .nested rfl (.nested rfl .finish .finish) .finish, rfl⟩
  have hsecond : Chain.Visit [failingLate, tagging, answering] 1 q () _ :=
    ⟨tagging, _, rfl, .nested rfl .finish .finish, rfl⟩
  have hentered : .entered ⟨0, q⟩ ∈ (Chain.run [failingLate, tagging, answering] q ()).trace := by
    rw [← (Chain.visit_iff_run (List.cons_ne_nil _ _) q () _).mp hfirst]
    exact List.mem_cons_self
  obtain ⟨interceptor, s, steps, seen, last, result, hget, hstage, -⟩ := hiff.1 q () ⟨0, q⟩ hentered
  obtain rfl := Option.some.inj hget
  have hstart := hiff.2 0 q failingLate () [] q _ rfl .start
  have hend := hiff.2 0 q failingLate () _ q' _ rfl (.next .start (.nested hsecond))
  exact ⟨⟨s, steps, seen, last, result, hstage⟩, hstart.1 q _ _ _ _ (.nested hsecond),
    hend.2 () (.interceptor "late") rfl⟩

/-- The first interceptor passes on a request, and the second one passes on another.  The first
one is resumed with that of the second one, and so does its fault carry it. -/
theorem resumed_with_another_request :
    let q := Request.ofUrl .get (.web refusedClient.base.url)
    let q' := q.addHeader "X-B" "1"
    let answer := Outcome.answered ⟨q', 200, [], [], Response.defaultVersion⟩
    let failure := Outcome.failed ⟨q', .interceptor "late"⟩
    q' ≠ q ∧
      (Chain.run [failingLate, tagging, answering] q ()).trace =
        [.entered ⟨0, q⟩, .proceeded 0 q,
          .entered ⟨1, q⟩, .proceeded 1 q',
            .entered ⟨2, q'⟩, .left 2 answer,
          .resumed ⟨1, q'⟩ answer, .left 1 answer,
        .resumed ⟨0, q'⟩ answer, .left 0 failure] ∧
      (Chain.run [failingLate, tagging, answering] q ()).outcome = failure := by
  intro q q' answer failure
  have hfirst : Chain.Visit [failingLate, tagging, answering] 0 q () _ :=
    ⟨failingLate, _, rfl, .nested rfl (.nested rfl .finish .finish) .finish, rfl⟩
  have hne : q' ≠ q := fun h => absurd (congrArg Request.headers h) (List.cons_ne_nil _ _)
  rw [← (Chain.visit_iff_run (List.cons_ne_nil _ _) q () _).mp hfirst]
  exact ⟨hne, rfl, rfl⟩

end HttpService
