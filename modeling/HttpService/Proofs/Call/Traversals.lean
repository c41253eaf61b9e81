import HttpService.Proofs.Call.Nesting
import HttpService.Proofs.Call.Shapes
import HttpService.Proofs.Success

/-!
# A traversal always ends the call

A fault that a caller may not receive as a value takes the same way through every kind of call:
it comes out as the fault of the call, whether no request could be built or the chain failed with
it.  And a call whose request cannot be built does not touch its interceptors, its transport and
their state.

* `CallMode.run` is what a caller learns of the end of a call, in whatever way the endpoint is
  called; `CallMode.Escapes` says that a traversal is never kept.
* `CallMode.exists_escapes`: all ways of calling read the outcome of a call with the same rules.
* `traversal_escapes`: what follows for clients.
-/

namespace HttpService

variable {σ τ α β : Type}

/-- The fault that was kept in an answer. -/
def Answer.fault? : Answer α → Option CallFault
  | failure fault _ => some fault
  | _ => none

theorem Answer.map_fault?_map (f : α → β) (result : Except CallFault (Answer α)) :
    (result.map (·.map f)).map fault? = result.map fault? := by
  cases result with
  | error fault => rfl
  | ok a => cases a <;> rfl

/-- The ways of calling an endpoint: for the value itself, for an answer with the value, for an
answer without one, and for an answer with a JSON value. -/
inductive CallMode
  | plain
  | wrapped
  | discarding
  | json
  deriving DecidableEq, Repr

namespace CallMode

/-- Whether an endpoint of a shape can be called in this way. -/
def Fits : CallMode → ReturnShape → Prop
  | plain, .plain _ => True
  | wrapped, .wrapped _ => True
  | discarding, .discarded => True
  | json, _ => True
  | _, _ => False

/-- Calls an endpoint and tells how that ends: with a fault, or with the fault that was kept in the
answer, if there is one. -/
def run [DomainNames] (mode : CallMode) (c : Client σ) (read : Json → Option α) (e : Endpoint)
    (args : Arguments) (state : σ) : Except CallFault (Option CallFault) × σ :=
  match mode with
  | plain => ((c.call read e args state).1.map fun _ => none, (c.call read e args state).2)
  | wrapped =>
    ((c.callWrapped read e args state).1.map Answer.fault?, (c.callWrapped read e args state).2)
  | discarding =>
    ((c.callDiscarding e args state).1.map Answer.fault?, (c.callDiscarding e args state).2)
  | json => ((c.callJson e args state).1.map Answer.fault?, (c.callJson e args state).2)

/-- A reading of how a call ended by which a traversal always comes out as the fault of the call,
and never as a fault that was kept. -/
structure Escapes (ending : Except CallFault Outcome → Except CallFault (Option CallFault)) :
    Prop where
  unsent : ∀ t, ending (.error (.traversal t)) = .error (.traversal t)
  failed : ∀ request t, ending (.ok (.failed ⟨request, .traversal t⟩)) = .error (.traversal t)
  kept : ∀ result fault, ending result = .ok (some fault) → fault.isSecurity = false

end CallMode

/-! ## Answers -/

theorem CallFault.isSecurity_of_capture {fault kept : CallFault} {request : Option Request}
    (h : (fault.capture request : Except CallFault (Answer α)).map Answer.fault? = .ok (some kept)) :
    kept.isSecurity = false := by
  unfold capture at h
  split at h
  · cases h
  · next hfault =>
    obtain rfl := Option.some.inj (Except.ok.inj h)
    exact (Bool.not_eq_true _).mp hfault

/-- Every answer is read so that a traversal comes out, however its value is decoded. -/
theorem CallMode.escapes_answer (decode : Response → Except DecodingFault α) :
    Escapes fun result => (Client.answer result (Outcome.answer decode)).map Answer.fault? where
  unsent _ := rfl
  failed _ _ := rfl
  kept result fault h := by
    cases result with
    | error fault => exact CallFault.isSecurity_of_capture h
    | ok outcome =>
      cases outcome with
      | failed f => exact CallFault.isSecurity_of_capture h
      | answered e =>
        simp only [Client.answer, Outcome.answer] at h
        split at h
        · cases hdecode : decode e.response with
          | ok v =>
            rw [hdecode] at h
            cases h
          | error fault =>
            rw [hdecode] at h
            cases h
            rfl
        · cases h

theorem CallMode.escapes_plain (read : Json → Option α) (converters : List Converter)
    (declared : TypeExpr) :
    Escapes fun result =>
      (result.bind (Outcome.plain read converters declared)).map fun _ => none where
  unsent _ := rfl
  failed _ _ := rfl
  kept result fault h := by
    obtain ⟨_, -, hnone⟩ := (map_ok_iff _ _ _).mp h
    cases hnone

namespace Client

/-! ## Requests that cannot be built -/

/-- Two clients that build the same requests.  What they do with a request has nothing to do with
each other. -/
structure SharesRequests (c : Client σ) (d : Client τ) : Prop where
  base : c.base = d.base
  converters : c.converters = d.converters
  boundary : c.boundary = d.boundary

theorem SharesRequests.prepare_eq [DomainNames] {c : Client σ} {d : Client τ}
    (h : c.SharesRequests d)
    (e : Endpoint) (args : Arguments) : c.prepare e args = d.prepare e args := by
  unfold prepare encodeContent
  rw [h.base, h.converters, h.boundary]

theorem execute_of_prepare [DomainNames] {c : Client σ} {e : Endpoint} {args : Arguments}
    {fault : CallFault} (h : c.prepare e args = .error fault) (state : σ) :
    c.execute e args state = (.error fault, state) := by
  rw [execute, h]

/-- A traversal that is met on the way to the URL is the fault of the whole request. -/
theorem prepare_of_resolve [DomainNames] {c : Client σ} {e : Endpoint} {args : Arguments}
    {t : Traversal} (hargs : requireArguments args e.parameters = .ok ())
    (hresolve : e.url.resolve c.base args = .error (.traversal t)) :
    c.prepare e args = .error (.traversal t) := by
  rw [prepare, hargs, hresolve]
  rfl

end Client

/-! ## Ways of calling -/

/-- **All ways of calling end by the same rules**: each reads how the request fared, and by that
reading a traversal comes out. -/
theorem CallMode.exists_escapes [DomainNames] {mode : CallMode} {returns : ReturnShape}
    (h : mode.Fits returns) (converters : List Converter) (read : Json → Option α) :
    ∃ ending, Escapes ending ∧ ∀ (σ : Type) (c : Client σ) (e : Endpoint) (args : Arguments)
      (state : σ), c.converters = converters → e.returns = returns →
        mode.run c read e args state
          = (ending (c.execute e args state).1, (c.execute e args state).2) := by
  cases mode with
  | plain =>
    cases returns with
    | plain t =>
      refine ⟨_, escapes_plain read converters t, ?_⟩
      rintro σ c e args state rfl he
      simp only [run, c.call_of_plain read he]
    | wrapped | discarded => cases h
  | wrapped =>
    cases returns with
    | wrapped t =>
      refine ⟨_, escapes_answer fun response => Decoding.value read response converters t, ?_⟩
      rintro σ c e args state rfl he
      simp only [run, c.callWrapped_of_wrapped read he]
      rfl
    | plain | discarded => cases h
  | discarding =>
    cases returns with
    | discarded =>
      refine ⟨_, escapes_answer fun _ => .ok (), ?_⟩
      rintro σ c e args state - he
      simp only [run, Client.callDiscarding, he]
      rfl
    | plain | wrapped => cases h
  | json =>
    cases returns with
    | plain t =>
      refine ⟨_, escapes_answer fun response => Decoding.value some response converters t, ?_⟩
      rintro σ c e args state rfl he
      simp only [run, c.callJson_of_plain he]
      rfl
    | wrapped t =>
      refine ⟨_, escapes_answer fun response => Decoding.value some response converters t, ?_⟩
      rintro σ c e args state rfl he
      simp only [run, c.callJson_of_wrapped he, c.callWrapped_of_wrapped some he]
      rfl
    | discarded =>
      refine ⟨_, escapes_answer fun _ => .ok (), ?_⟩
      rintro σ c e args state - he
      simp only [run, Client.callJson, Client.callDiscarding, he, Answer.map_fault?_map]
      rfl

theorem CallMode.run_of_not_fits [DomainNames] {mode : CallMode} {e : Endpoint}
    (h : ¬ mode.Fits e.returns)
    (c : Client σ) (read : Json → Option α) (args : Arguments) (state : σ) :
    ∃ requested, mode.run c read e args state = (.error (Client.mismatch e requested), state) := by
  cases mode with
  | plain =>
    simp only [run, Client.call]
    split
    · next t he => exact absurd (by rw [he]; exact trivial) h
    · exact ⟨_, rfl⟩
  | wrapped =>
    simp only [run, Client.callWrapped]
    split
    · next t he => exact absurd (by rw [he]; exact trivial) h
    · exact ⟨_, rfl⟩
  | discarding =>
    simp only [run, Client.callDiscarding]
    split
    · next he => exact absurd (by rw [he]; exact trivial) h
    · exact ⟨_, rfl⟩
  | json => cases he : e.returns <;> exact absurd (by rw [he]; exact trivial) h

/-- Whatever the way of calling, no traversal is kept. -/
theorem CallMode.isSecurity_of_run [DomainNames] {mode : CallMode} {c : Client σ}
    {read : Json → Option α} {e : Endpoint} {args : Arguments} {state : σ} {fault : CallFault}
    (h : (mode.run c read e args state).1 = .ok (some fault)) : fault.isSecurity = false := by
  by_cases hfits : mode.Fits e.returns
  · obtain ⟨ending, hending, hrun⟩ := exists_escapes hfits c.converters read
    rw [hrun σ c e args state rfl rfl] at h
    exact hending.kept _ _ h
  · obtain ⟨requested, hrun⟩ := run_of_not_fits hfits c read args state
    rw [hrun] at h
    cases h

/-! ## Services -/

/-- An answer of a service in which no traversal was kept. -/
def Answer.IsOpen (result : Except CallFault (Answer α)) : Prop :=
  ∀ fault request, result = .ok (.failure fault request) → fault.isSecurity = false

namespace ServiceClient

/-- What is so of every endpoint's answer is so of a service's: an endpoint that is not there gives
no answer. -/
theorem isOpen_withEndpoint (c : ServiceClient σ) (name : String) (state : σ)
    {use : Endpoint → Except CallFault (Answer α) × σ} (h : ∀ e, Answer.IsOpen (use e).1) :
    Answer.IsOpen (c.withEndpoint name state use).1 := by
  unfold withEndpoint
  split
  · exact h _
  · rintro fault request ⟨⟩

end ServiceClient

theorem CallMode.isOpen [DomainNames] (mode : CallMode) (read : Json → Option α) {c : Client σ}
    {e : Endpoint} {args : Arguments} {state : σ} {result : Except CallFault (Answer β)}
    (h : (mode.run c read e args state).1 = result.map Answer.fault?) : Answer.IsOpen result := by
  rintro fault request rfl
  exact isSecurity_of_run h

/-- **A traversal always ends the call, and a call that fails before sending sends nothing.**

A traversal that is met on the way to the URL is the fault of the request.  If the request cannot be
built, then a client with any other interceptors, transport and state would have ended in the same
way, and the state is left as it was.  If it cannot be built because of a traversal, or if the chain
fails with one, then the call ends with that very fault, in whichever way the endpoint is called
that fits it.  And no call of a client or of a service ever keeps a traversal in its answer. -/
theorem traversal_escapes [DomainNames] (c : Client σ) (read : Json → Option α) (e : Endpoint)
    (args : Arguments) (state : σ) :
    (∀ t, Client.requireArguments args e.parameters = .ok () →
      e.url.resolve c.base args = .error (.traversal t) →
        c.prepare e args = .error (.traversal t)) ∧
    (∀ mode : CallMode, mode.Fits e.returns →
      (∀ fault, c.prepare e args = .error fault →
        ∀ (τ : Type) (d : Client τ) (s : τ), c.SharesRequests d →
          mode.run d read e args s = ((mode.run c read e args state).1, s)) ∧
      (∀ t, c.prepare e args = .error (.traversal t) →
        (mode.run c read e args state).1 = .error (.traversal t)) ∧
      ∀ t request, (c.execute e args state).1 = .ok (.failed ⟨request, .traversal t⟩) →
        (mode.run c read e args state).1 = .error (.traversal t)) ∧
    (∀ mode : CallMode, ∀ fault, (mode.run c read e args state).1 = .ok (some fault) →
      fault.isSecurity = false) ∧
    ∀ (service : Service) (name : String),
      Answer.IsOpen (ServiceClient.invokeWrapped ⟨c, service⟩ read name args state).1 ∧
      Answer.IsOpen (ServiceClient.invokeDiscarding ⟨c, service⟩ name args state).1 ∧
      Answer.IsOpen (ServiceClient.invokeJson ⟨c, service⟩ name args state).1 ∧
      (service.endpoint? name = some e →
        ServiceClient.invokeJson ⟨c, service⟩ name args state = c.callJson e args state) := by
  refine ⟨fun t => Client.prepare_of_resolve, fun mode hfits => ?_,
    fun mode fault => CallMode.isSecurity_of_run, fun service name => ?_⟩
  · obtain ⟨ending, hending, hrun⟩ := CallMode.exists_escapes hfits c.converters read
    have hself := hrun σ c e args state rfl rfl
    refine ⟨fun fault hprepare τ d s hd => ?_, fun t hprepare => ?_, fun t request hfailed => ?_⟩
    · have hother : d.prepare e args = .error fault := hd.prepare_eq e args ▸ hprepare
      rw [hself, hrun τ d e args s hd.converters.symm rfl, Client.execute_of_prepare hprepare,
        Client.execute_of_prepare hother]
    · rw [hself, Client.execute_of_prepare hprepare]
      exact hending.unsent t
    · rw [hself, hfailed]
      exact hending.failed request t
  · refine ⟨?_, ?_, ?_, fun he => ServiceClient.invokeJson_of_endpoint? _ he args state⟩
    · exact ServiceClient.isOpen_withEndpoint _ name state fun e =>
        CallMode.wrapped.isOpen read rfl
    · exact ServiceClient.isOpen_withEndpoint _ name state fun e =>
        CallMode.discarding.isOpen read rfl
    · exact ServiceClient.isOpen_withEndpoint _ name state fun e =>
        CallMode.json.isOpen read rfl

/-- An interceptor that refuses every request as a traversal. -/
def refusingTraversal : Interceptor σ := fun _ state =>
  .finish state (.error (.traversal ⟨"..", "an interceptor"⟩))

/-- A traversal in an argument ends a wrapped call before anything is sent, and a service for which
an interceptor refuses the request of another one ends its call for JSON. -/
theorem traversal_escapes_greeting :
    let e := greeting (.wrapped (.named "String"))
    let up := Arguments.ofList [("name", .string "..")]
    let you := Arguments.ofList [("name", .string "you")]
    let guarded : Client Nat := { refusedClient with interceptors := [refusingTraversal] }
    let found : CallFault := .traversal ⟨"..", "parameter name"⟩
    let refused : CallFault := .traversal ⟨"..", "an interceptor"⟩
    guarded.prepare e up = .error found ∧
      CallMode.wrapped.run refusedClient some e up 7 = (.error found, 7) ∧
      (∃ request, (guarded.execute e you 0).1 = .ok (.failed ⟨request, refused⟩)) ∧
      (CallMode.json.run guarded some e you 0).1 = .error refused ∧
      (∀ fault, (CallMode.json.run guarded some e you 0).1 = .ok (some fault) →
        fault.isSecurity = false) ∧
      ServiceClient.invokeJson ⟨guarded, "SClient", "S", [e]⟩ "greet" you 0
        = guarded.callJson e you 0 := by
  intro e up you guarded found refused
  have hargs : Client.requireArguments up e.parameters = .ok () := by decide +kernel
  have hresolve : e.url.resolve guarded.base up
      = .error (.traversal ⟨"..", "parameter name"⟩) := by decide +kernel
  obtain ⟨hprepare, hunsent, -, -⟩ := traversal_escapes guarded some e up 0
  obtain ⟨-, hfailed, hkept, hservice⟩ := traversal_escapes guarded some e you 0
  have hup := hprepare _ hargs hresolve
  obtain ⟨hsame, hwrapped, -⟩ := hunsent .wrapped trivial
  refine ⟨hup, ?_, ?_⟩
  · rw [hsame found hup Nat refusedClient 7 ⟨rfl, rfl, rfl⟩, hwrapped _ hup]
  · let asked : Request := ⟨.get, .web ⟨⟨⟨[], none⟩, .domain ['x'], none⟩, .https,
      ["hello".toList, "you".toList], none, none⟩, [], none⟩
    have hyou : guarded.prepare e you = .ok asked := by decide +kernel
    have hrun : (guarded.execute e you 0).1 = .ok (.failed ⟨asked, refused⟩) := by
      rw [Client.execute, hyou]
      exact congrArg (fun run : Run Nat => Except.ok run.outcome)
        ((Chain.visit_iff_run (List.cons_ne_nil _ _) asked 0 _).mp
          ⟨refusingTraversal, _, rfl, .finish, rfl⟩).symm
    exact ⟨⟨_, hrun⟩, (hfailed .json trivial).2.2 _ _ hrun, hkept .json,
      (hservice ⟨"SClient", "S", [e]⟩ "greet").2.2.2 rfl⟩

end HttpService
