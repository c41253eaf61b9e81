import HttpService.Proofs.Call.Nesting
import HttpService.Proofs.Call.Shapes
import HttpService.Proofs.Success

/-!
# What a client sends

The chain of a client ends with its transport.  So its own interceptors always have somewhere to
proceed to, and the faults of the chain itself stay away, unless an interceptor makes one up
(`Client.chainFree_execute`).  The transport does not proceed; each time its place is entered, one
request is sent (`Client.execute_logged`).  To say so, the transport is made to keep a list of what
it was given, of which the interceptors know nothing.
-/

namespace HttpService

variable {σ : Type}

/-! ## Faults of the chain -/

/-- An outcome that is not a fault of the chain itself. -/
def Outcome.ChainFree (o : Outcome) : Prop :=
  ∀ request fault, o ≠ .failed ⟨request, .chain fault⟩

/-- A result that is not a fault of the chain itself, in either way. -/
def ChainFreeResult (result : Except CallFault Outcome) : Prop :=
  (∀ fault, result ≠ .error (.chain fault)) ∧ ∀ o, result = .ok o → o.ChainFree

/-- A plan that makes up no fault of the chain: as long as it is told of none, it ends with
none. -/
def Plan.Honest : Plan σ → Prop
  | .finish _ result => ChainFreeResult result
  | .proceed _ _ resume => ∀ cursor state outcome, outcome.ChainFree →
    (resume cursor state outcome).Honest

/-- An interceptor that makes up no fault of the chain, wherever it stands. -/
def Interceptor.Honest (interceptor : Interceptor σ) : Prop :=
  ∀ cursor state, (interceptor cursor state).Honest

theorem ChainFreeResult.of_ok {o : Outcome} (h : o.ChainFree) : ChainFreeResult (.ok o) :=
  ⟨(fun _ he => nomatch he), by rintro _ ⟨⟩; exact h⟩

theorem ChainFreeResult.of_error {fault : CallFault} (h : ∀ f, fault ≠ .chain f) :
    ChainFreeResult (.error fault) :=
  ⟨by rintro f ⟨⟩; exact h f rfl, (fun _ he => nomatch he)⟩

theorem ChainFreeResult.conclude {result : Except CallFault Outcome} (h : ChainFreeResult result)
    (request : Request) : (Chain.conclude request result).ChainFree := by
  cases result with
  | ok o => exact h.2 o rfl
  | error fault =>
    rintro request fault ⟨⟩
    exact h.1 fault rfl

theorem Transport.chainFree_outcome (request : Request)
    (result : Except TransportFault Response) : (Transport.outcome request result).ChainFree := by
  cases result <;> rintro _ _ ⟨⟩

/-! ## The end of a chain -/

/-- The course of a transport: it sends the current request, and that is all. -/
theorem Chain.Course.of_transport {interceptors : List (Interceptor σ)} {send : Transport σ}
    {i : Nat} {r : Request} {state : σ} {run : Run σ}
    (h : Course interceptors i r (send.interceptor ⟨i, r⟩ state) run) :
    run = ⟨(send r state).2, ⟨i, r⟩, Transport.outcome r (send r state).1,
      [.left i (Transport.outcome r (send r state).1)]⟩ := by
  cases h with
  | finish => rfl

namespace Client

theorem getElem?_chain {c : Client σ} {i : Nat} {next : Interceptor σ}
    (h : c.chain[i]? = some next) :
    c.interceptors[i]? = some next ∨
      (i = c.interceptors.length ∧ next = c.transport.interceptor) := by
  rw [chain, List.getElem?_append] at h
  split at h
  · exact .inl h
  · obtain ⟨hi, hnext⟩ := List.getElem?_eq_some_iff.mp h
    simp only [List.length_singleton, Nat.lt_one_iff] at hi
    refine .inr ⟨by omega, ?_⟩
    simpa [hi] using hnext.symm

theorem succ_lt_length_chain {c : Client σ} {i : Nat} (hi : i < c.interceptors.length) :
    i + 1 < c.chain.length := by
  simp only [chain, List.length_append, List.length_singleton]
  omega

theorem visit_run (c : Client σ) (request : Request) (state : σ) :
    Chain.Visit c.chain 0 request state (Chain.run c.chain request state) :=
  (Chain.visit_iff_run (by simp [chain]) request state _).mpr rfl

/-! ## No fault of the chain -/

/-- What the interceptor of a place of a client's chain goes through ends with no fault of the
chain, when this is so for the client's own interceptors: the transport never gives one. -/
theorem chainFree_of_next {c : Client σ} {i : Nat} {r : Request} {state : σ}
    {next : Interceptor σ} {inner : Run σ} (hnext : c.chain[i]? = some next)
    (hinner : Chain.Course c.chain i r (next ⟨i, r⟩ state) inner)
    (hown : c.interceptors[i]? = some next → inner.outcome.ChainFree) :
    inner.outcome.ChainFree := by
  rcases getElem?_chain hnext with huser | ⟨-, rfl⟩
  · exact hown huser
  · rw [hinner.of_transport]
    exact Transport.chainFree_outcome _ _

/-- In the chain of a client whose interceptors are honest, every plan of theirs that is honest
ends with no fault of the chain. -/
theorem chainFree_of_course {c : Client σ} (hc : ∀ x ∈ c.interceptors, Interceptor.Honest x)
    {i : Nat} {r : Request} {plan : Plan σ} {run : Run σ}
    (h : Chain.Course c.chain i r plan run) (hi : i < c.interceptors.length)
    (hplan : plan.Honest) : run.outcome.ChainFree := by
  induction h with
  | finish => exact hplan.conclude _
  | refused hlast _ _ =>
    exact absurd (succ_lt_length_chain hi) (Nat.not_lt.mpr (List.getElem?_eq_none_iff.mp hlast))
  | nested hnext hinner _ ihinner ihrest =>
    refine ihrest hi (hplan _ _ _ (chainFree_of_next hnext hinner fun huser => ?_))
    exact ihinner (List.getElem?_eq_some_iff.mp huser).1 (hc _ (List.mem_of_getElem? huser) _ _)

theorem chainFree_run {c : Client σ} (hc : ∀ x ∈ c.interceptors, Interceptor.Honest x)
    (request : Request) (state : σ) : (Chain.run c.chain request state).outcome.ChainFree := by
  obtain ⟨next, inner, hnext, hinner, hrun⟩ := c.visit_run request state
  rw [hrun]
  change inner.outcome.ChainFree
  refine chainFree_of_next hnext hinner fun huser => ?_
  exact chainFree_of_course hc hinner (List.getElem?_eq_some_iff.mp huser).1
    (hc _ (List.mem_of_getElem? huser) _ _)

theorem prepare_ne_chain [DomainNames] (c : Client σ) (e : Endpoint) (args : Arguments)
    (fault : ChainFault) : c.prepare e args ≠ .error (.chain fault) := by
  intro h
  have hresolution (f : ResolutionFault) : CallFault.ofResolution f ≠ .chain fault := by
    cases f <;> nofun
  have hpure (request : Request) :
      (pure request : Except CallFault Request) ≠ .error (.chain fault) := nofun
  simp only [prepare, bind_error_iff, mapError_error_iff, hpure] at h
  simp [hresolution] at h

/-- **A client whose interceptors are honest never meets a fault of the chain.** -/
theorem chainFree_execute [DomainNames] {c : Client σ}
    (hc : ∀ x ∈ c.interceptors, Interceptor.Honest x)
    (e : Endpoint) (args : Arguments) (state : σ) :
    ChainFreeResult (c.execute e args state).1 := by
  unfold execute
  cases hp : c.prepare e args with
  | error fault => exact .of_error fun f hf => c.prepare_ne_chain e args f (hf ▸ hp)
  | ok request => exact .of_ok (chainFree_run hc request state)

end Client

/-! ## A transport that keeps a list -/

/-- A plan beside something it does not know of and leaves as it is. -/
def Plan.beside {β : Type} : Plan σ → β → Plan (σ × β)
  | .finish state result, extra => .finish (state, extra) result
  | .proceed state request resume, extra =>
    .proceed (state, extra) request fun cursor after outcome =>
      (resume cursor after.1 outcome).beside after.2

def Interceptor.beside {β : Type} (interceptor : Interceptor σ) : Interceptor (σ × β) :=
  fun cursor state => (interceptor cursor state.1).beside state.2

/-- A transport that also keeps a list of the requests it was given. -/
def Transport.logged (send : Transport σ) : Transport (σ × List Request) :=
  fun request state =>
    ((send request state.1).1, (send request state.1).2, state.2 ++ [request])

def Client.logged (c : Client σ) : Client (σ × List Request) where
  base := c.base
  converters := c.converters
  interceptors := c.interceptors.map fun interceptor => interceptor.beside
  transport := c.transport.logged
  boundary := c.boundary

/-- The request with which a step enters a place. -/
def Event.entry? (index : Nat) : Event → Option Request
  | entered cursor => if cursor.index = index then some cursor.request else none
  | _ => none

/-- A run that also leaves a list, to which it adds the requests with which a place was entered. -/
def Run.logged (index : Nat) (log : List Request) (run : Run σ) : Run (σ × List Request) where
  state := (run.state, log ++ run.trace.filterMap (Event.entry? index))
  cursor := run.cursor
  outcome := run.outcome
  trace := run.trace

/-- What is added before an interceptor is resumed stays in front of what is added after. -/
theorem Run.logged_after (n index : Nat) (log : List Request) (request : Request)
    (steps : List Event) (cursor : Cursor) (outcome : Outcome) (rest : Run σ) :
    (rest.after index request steps cursor outcome).logged n log
      = (rest.logged n (log ++ steps.filterMap (Event.entry? n))).after index request steps cursor
          outcome := by
  simp [Run.logged, Run.after, List.filterMap_cons, Event.entry?]

namespace Client

theorem getElem?_chain_logged {c : Client σ} {i : Nat} {next : Interceptor σ}
    (h : c.interceptors[i]? = some next) : c.logged.chain[i]? = some next.beside := by
  have hi := (List.getElem?_eq_some_iff.mp h).1
  rw [chain, List.getElem?_append_left (by simpa [logged] using hi)]
  simp [logged, h]

theorem getElem?_chain_logged_length (c : Client σ) :
    c.logged.chain[c.interceptors.length]? = some c.transport.logged.interceptor := by
  simp [chain, logged]

/-- What the interceptor of a place of a client's chain goes through, when the transport keeps a
list.  The transport adds to it the request with which it was entered. -/
theorem visit_logged_of_next {c : Client σ} {i : Nat} {r : Request} {state : σ}
    {next : Interceptor σ} {inner : Run σ} (hnext : c.chain[i]? = some next)
    (hinner : Chain.Course c.chain i r (next ⟨i, r⟩ state) inner) (log : List Request)
    (hown : c.interceptors[i]? = some next →
      Chain.Course c.logged.chain i r ((next ⟨i, r⟩ state).beside log)
        (inner.logged c.interceptors.length log)) :
    Chain.Visit c.logged.chain i r (state, log)
      ((inner.enter ⟨i, r⟩).logged c.interceptors.length log) := by
  rcases getElem?_chain hnext with huser | ⟨rfl, rfl⟩
  · have hne : i ≠ c.interceptors.length :=
      Nat.ne_of_lt (List.getElem?_eq_some_iff.mp huser).1
    refine ⟨_, _, getElem?_chain_logged huser, hown huser, ?_⟩
    simp [Run.logged, Run.enter, Event.entry?, hne]
  · refine ⟨_, _, c.getElem?_chain_logged_length, .finish, ?_⟩
    rw [hinner.of_transport]
    simp [Run.logged, Run.enter, Event.entry?, Chain.conclude]

theorem course_logged {c : Client σ} {i : Nat} {r : Request} {plan : Plan σ} {run : Run σ}
    (h : Chain.Course c.chain i r plan run) (hi : i < c.interceptors.length)
    (log : List Request) :
    Chain.Course c.logged.chain i r (plan.beside log)
      (run.logged c.interceptors.length log) := by
  induction h generalizing log with
  | @finish i r state result =>
    have hlog : Run.logged c.interceptors.length log
        ⟨state, ⟨i, r⟩, Chain.conclude r result, [.left i (Chain.conclude r result)]⟩
          = ⟨(state, log), ⟨i, r⟩, Chain.conclude r result,
            [.left i (Chain.conclude r result)]⟩ := by
      simp [Run.logged, Event.entry?]
    rw [hlog]
    exact .finish
  | refused hlast _ _ =>
    exact absurd (succ_lt_length_chain hi) (Nat.not_lt.mpr (List.getElem?_eq_none_iff.mp hlast))
  | @nested i r q state resume next inner rest hnext hinner _ ihinner ihrest =>
    obtain ⟨next', inner', hnext', hinner', hlog⟩ :=
      visit_logged_of_next hnext hinner log fun huser =>
        ihinner (List.getElem?_eq_some_iff.mp huser).1 log
    -- The list is the one thing that the nested course adds to.
    have hstate : inner'.state = (inner.state, log ++ (inner.enter ⟨i + 1, q⟩).trace.filterMap
        (Event.entry? c.interceptors.length)) := (congrArg Run.state hlog).symm
    have hcursor : inner'.cursor = inner.cursor := (congrArg Run.cursor hlog).symm
    have houtcome : inner'.outcome = inner.outcome := (congrArg Run.outcome hlog).symm
    have htrace : (inner'.enter ⟨i + 1, q⟩).trace = (inner.enter ⟨i + 1, q⟩).trace :=
      (congrArg Run.trace hlog).symm
    have hrest := ihrest hi (log ++ (inner.enter ⟨i + 1, q⟩).trace.filterMap
      (Event.entry? c.interceptors.length))
    have hcourse : Chain.Course c.logged.chain i r
        (.proceed (state, log) q fun cursor after outcome =>
          (resume cursor after.1 outcome).beside after.2)
        ((rest.logged c.interceptors.length (log ++ (inner.enter ⟨i + 1, q⟩).trace.filterMap
            (Event.entry? c.interceptors.length))).after i q (inner'.enter ⟨i + 1, q⟩).trace
          ⟨i, inner'.cursor.request⟩ inner'.outcome) :=
      .nested hnext' hinner' (by rw [hstate, hcursor, houtcome]; exact hrest)
    rw [htrace, hcursor, houtcome] at hcourse
    rw [Run.logged_after]
    exact hcourse

/-- A list kept by the transport has the requests with which its place was entered. -/
theorem run_logged (c : Client σ) (request : Request) (state : σ) (log : List Request) :
    Chain.run c.logged.chain request (state, log)
      = (Chain.run c.chain request state).logged c.interceptors.length log := by
  obtain ⟨next, inner, hnext, hinner, hrun⟩ := c.visit_run request state
  have hvisit := visit_logged_of_next hnext hinner log fun huser =>
    course_logged hinner (List.getElem?_eq_some_iff.mp huser).1 log
  rw [hrun]
  exact (c.logged.visit_run request (state, log)).unique hvisit

/-- The steps of a call.  There are none when its request cannot be built. -/
def trace [DomainNames] (c : Client σ) (e : Endpoint) (args : Arguments) (state : σ) : List Event :=
  match c.prepare e args with
  | .error _ => []
  | .ok request => (Chain.run c.chain request state).trace

/-- **The transport is given what its place is entered with**, once for every time, and all else is
as without the list. -/
theorem execute_logged [DomainNames] (c : Client σ) (e : Endpoint) (args : Arguments) (state : σ)
    (log : List Request) :
    c.logged.execute e args (state, log) =
      ((c.execute e args state).1, (c.execute e args state).2,
        log ++ (c.trace e args state).filterMap (Event.entry? c.interceptors.length)) := by
  have hprepare : c.logged.prepare e args = c.prepare e args := rfl
  unfold execute trace
  rw [hprepare]
  cases c.prepare e args with
  | error fault => simp
  | ok request => simp only [run_logged, Run.logged]

end Client

/-- **Runs of a chain are well bracketed**, whatever the interceptors do.  For a client, the
transport sends one request each time its place is entered; and when the client's own interceptors
make up no fault of the chain, no call ends with one. -/
theorem wellBracketed_run_and_execute [DomainNames] :
    (∀ (interceptors : List (Interceptor σ)) (request : Request) (state : σ), interceptors ≠ [] →
      Chain.WellBracketed interceptors request state
        (Chain.run interceptors request state)) ∧
    ∀ (c : Client σ) (e : Endpoint) (args : Arguments) (state : σ),
      c.logged.execute e args (state, []) =
        ((c.execute e args state).1, (c.execute e args state).2,
          (c.trace e args state).filterMap (Event.entry? c.interceptors.length)) ∧
      ((∀ x ∈ c.interceptors, Interceptor.Honest x) →
        ChainFreeResult (c.execute e args state).1) :=
  ⟨fun _ request state hne => Chain.wellBracketed_run hne request state,
    fun c e args state => ⟨c.execute_logged e args state [],
      fun hc => Client.chainFree_execute hc e args state⟩⟩

/-- An interceptor that tries a request that failed once more. -/
def retrying : Interceptor σ := fun cursor state =>
  .proceed state cursor.request fun _ after outcome =>
    match outcome with
    | .answered _ => .finish after (.ok outcome)
    | .failed failure => .proceed after failure.request fun _ last again => .finish last (.ok again)

theorem honest_retrying : Interceptor.Honest (retrying (σ := σ)) := by
  rintro cursor state _ _ (exchange | failure) h
  · exact .of_ok h
  · intro _ _ _ hagain
    exact .of_ok hagain

theorem wellBracketed_run_and_execute_retrying :
    Chain.WellBracketed [retrying, refusedClient.transport.interceptor]
        (.ofUrl .get (.web refusedClient.base.url)) 0
        (Chain.run [retrying, refusedClient.transport.interceptor]
          (.ofUrl .get (.web refusedClient.base.url)) 0) ∧
      ChainFreeResult ({ refusedClient with interceptors := [retrying] : Client Nat }.execute
        (greeting .discarded) (.ofList [("name", .string "you")]) 0).1 := by
  have hhonest : ∀ x ∈ [(retrying : Interceptor Nat)], Interceptor.Honest x := by
    intro x hx
    rw [List.mem_singleton.mp hx]
    exact honest_retrying
  exact ⟨wellBracketed_run_and_execute.1 _ _ _ (by simp),
    (wellBracketed_run_and_execute.2 { refusedClient with interceptors := [retrying] }
      (greeting .discarded) (.ofList [("name", .string "you")]) 0).2 hhonest⟩

end HttpService
