import HttpService.Client
import HttpService.Json.Record
import HttpService.Url.PlainNames

/-!
# Shapes of a call

An endpoint gives the value itself, or an answer with the value in it.  The two are decoded by
different functions, and a fault takes different ways: a plain call passes it on, a wrapped one
keeps it in the answer, unless it is a traversal.  Collapsing the answer undoes the difference,
stage by stage: for a fault that is kept (`CallFault.collapse_capture`), for an outcome of the
chain (`Outcome.collapse_wrapped`), and for a request that could not be built
(`Client.collapse_answer`).  What goes over the wire does not depend on the shape at all
(`Client.execute_returns`).
-/

namespace HttpService

variable {σ α : Type}

/-- Two endpoints that differ only in that the first gives a value itself and the second gives an
answer with that value. -/
def Endpoint.IsWrappedBy (f g : Endpoint) : Prop :=
  ∃ t, f.returns = .plain t ∧ g = { f with returns := .wrapped t }

/-! ## What is kept comes back -/

/-- A fault comes back out of an answer, also when it was not let in. -/
@[simp] theorem CallFault.collapse_capture (fault : CallFault) (request : Option Request) :
    ((fault.capture request).bind Answer.collapse : Except CallFault α) = .error fault := by
  unfold capture
  split <;> rfl

theorem Outcome.collapse_answer (decode : Response → Except DecodingFault α) (o : Outcome) :
    (o.answer decode).bind Answer.collapse =
      match o with
      | .failed f => .error f.fault
      | .answered e =>
        if e.response.isSuccess then (decode e.response).mapError .decoding
        else .error (.status e.response.status e.response.body) := by
  cases o with
  | failed f => exact f.fault.collapse_capture _
  | answered e =>
    simp only [answer]
    split
    · cases decode e.response <;> rfl
    · rfl

/-- Both decoders agree on every outcome of a chain. -/
theorem Outcome.collapse_wrapped (read : Json → Option α) (converters : List Converter)
    (declared : TypeExpr) (o : Outcome) :
    (o.wrapped read converters declared).bind Answer.collapse
      = o.plain read converters declared := by
  rw [wrapped, collapse_answer]
  cases o <;> rfl

namespace Client

theorem collapse_answer (read : Json → Option α) (converters : List Converter)
    (declared : TypeExpr) (result : Except CallFault Outcome) :
    (answer result (Outcome.wrapped read converters declared)).bind Answer.collapse
      = result.bind (Outcome.plain read converters declared) := by
  cases result with
  | error fault => exact fault.collapse_capture none
  | ok o => exact o.collapse_wrapped read converters declared

/-! ## What is sent -/

/-- The shape of an endpoint has no part in its request, in the run through the chain, or in the
state that is left. -/
theorem execute_returns [DomainNames] (c : Client σ) (e : Endpoint) (returns : ReturnShape)
    (args : Arguments)
    (state : σ) : c.execute { e with returns := returns } args state = c.execute e args state :=
  rfl

theorem call_of_plain [DomainNames] (c : Client σ) (read : Json → Option α) {e : Endpoint}
    {t : TypeExpr} (he : e.returns = .plain t) (args : Arguments) (state : σ) :
    c.call read e args state =
      (((c.execute e args state).1.bind (Outcome.plain read c.converters t)),
        (c.execute e args state).2) := by
  simp only [call, he]

theorem callWrapped_of_wrapped [DomainNames] (c : Client σ) (read : Json → Option α) {e : Endpoint}
    {t : TypeExpr} (he : e.returns = .wrapped t) (args : Arguments) (state : σ) :
    c.callWrapped read e args state =
      (answer (c.execute e args state).1 (Outcome.wrapped read c.converters t),
        (c.execute e args state).2) := by
  simp only [callWrapped, he]

theorem callJson_of_plain [DomainNames] (c : Client σ) {e : Endpoint} {t : TypeExpr}
    (he : e.returns = .plain t) (args : Arguments) (state : σ) :
    c.callJson e args state =
      (answer (c.execute e args state).1 (Outcome.wrapped some c.converters t),
        (c.execute e args state).2) := by
  simp only [callJson, he]

theorem callJson_of_wrapped [DomainNames] (c : Client σ) {e : Endpoint} {t : TypeExpr}
    (he : e.returns = .wrapped t) (args : Arguments) (state : σ) :
    c.callJson e args state = c.callWrapped some e args state := by
  simp only [callJson, he]

/-! ## Agreement -/

/-- A call for JSON does not see whether a value comes by itself or in an answer. -/
theorem callJson_of_isWrappedBy [DomainNames] {f g : Endpoint} (h : f.IsWrappedBy g) (c : Client σ)
    (args : Arguments) (state : σ) : c.callJson f args state = c.callJson g args state := by
  obtain ⟨t, hf, rfl⟩ := h
  have hg : { f with returns := .wrapped t : Endpoint }.returns = .wrapped t := rfl
  rw [c.callJson_of_plain hf, c.callJson_of_wrapped hg, c.callWrapped_of_wrapped some hg,
    c.execute_returns f (.wrapped t)]

/-- A plain call passes on what a wrapped call keeps in its answer. -/
theorem call_of_isWrappedBy [DomainNames] {f g : Endpoint} (h : f.IsWrappedBy g) (c : Client σ)
    (read : Json → Option α) (args : Arguments) (state : σ) :
    c.call read f args state =
      ((c.callWrapped read g args state).1.bind Answer.collapse,
        (c.callWrapped read g args state).2) := by
  obtain ⟨t, hf, rfl⟩ := h
  have hg : { f with returns := .wrapped t : Endpoint }.returns = .wrapped t := rfl
  simp only [c.call_of_plain read hf, c.callWrapped_of_wrapped read hg, collapse_answer,
    c.execute_returns f (.wrapped t)]

end Client

theorem ServiceClient.invokeJson_of_endpoint? [DomainNames] (c : ServiceClient σ) {name : String}
    {e : Endpoint} (he : c.service.endpoint? name = some e) (args : Arguments) (state : σ) :
    c.invokeJson name args state = c.client.callJson e args state := by
  simp only [invokeJson, withEndpoint, endpoint, he]

/-- **A plain call is a wrapped call whose answer is collapsed**, with the same state left behind;
and a call for JSON, of either endpoint in its service, gives the same answer. -/
theorem call_eq_collapse_callWrapped [DomainNames] {f g : Endpoint} (h : f.IsWrappedBy g)
    (c : Client σ) (args : Arguments) (state : σ) :
    (∀ read : Json → Option α,
      c.call read f args state =
        ((c.callWrapped read g args state).1.bind Answer.collapse,
          (c.callWrapped read g args state).2)) ∧
    ∀ (s s' : Service) (name : String),
      s.endpoint? name = some f → s'.endpoint? name = some g →
        ServiceClient.invokeJson ⟨c, s⟩ name args state
          = ServiceClient.invokeJson ⟨c, s'⟩ name args state := by
  refine ⟨fun read => c.call_of_isWrappedBy h read args state, fun s s' name hs hs' => ?_⟩
  rw [ServiceClient.invokeJson_of_endpoint? _ hs, ServiceClient.invokeJson_of_endpoint? _ hs']
  exact c.callJson_of_isWrappedBy h args state

/-- An endpoint that gives a text, in a shape of its own. -/
def greeting (returns : ReturnShape) : Endpoint :=
  ⟨"greet", [⟨"name", .named "String"⟩], .get, .template "hello/\x7bname\x7d" .relative
    [⟨"name", "name"⟩] [], [], none, returns⟩

/-- A client for `https://x/` that counts what it sends, and is refused. -/
def refusedClient : Client Nat where
  base := ⟨⟨⟨⟨[], none⟩, .domain ['x'], none⟩, .https, [[]], none, none⟩, rfl, rfl, rfl⟩
  converters := Converter.defaults
  interceptors := []
  transport := fun _ sent => (.ok ⟨403, [], [], Response.defaultVersion⟩, sent + 1)
  boundary := Multipart.defaultBoundary

/-- The same client, when everything that it sends is answered. -/
def answeredClient : Client Nat :=
  { refusedClient with
    transport := fun _ sent =>
      (.ok ⟨200, [⟨"Content-Type", "application/json"⟩], Utf8.encode ['"', 'h', 'i', '"'],
        Response.defaultVersion⟩, sent + 1) }

/-- One call ends before anything is sent; the other one is answered, with a text that both ways
of calling decode. -/
theorem call_eq_collapse_callWrapped_greeting :
    let plain := greeting (.plain (.named "String"))
    let wrapped := greeting (.wrapped (.named "String"))
    let up : Arguments := .ofList [("name", .string "..")]
    let you : Arguments := .ofList [("name", .string "you")]
    let answer := answeredClient.callWrapped Json.asString? wrapped you 0
    ((∀ read : Json → Option String,
        refusedClient.call read plain up 0 =
          ((refusedClient.callWrapped read wrapped up 0).1.bind Answer.collapse,
            (refusedClient.callWrapped read wrapped up 0).2)) ∧
      ServiceClient.invokeJson ⟨refusedClient, "SClient", "S", [plain]⟩ "greet" up 0
        = ServiceClient.invokeJson ⟨refusedClient, "SClient", "S", [wrapped]⟩ "greet" up 0) ∧
    answeredClient.call Json.asString? plain you 0 = (answer.1.bind Answer.collapse, answer.2) ∧
      (answer.1.bind Answer.collapse).toOption = some "hi" ∧ answer.2 = 1 := by
  intro plain wrapped up you answer
  have h : plain.IsWrappedBy wrapped := ⟨.named "String", rfl, rfl⟩
  obtain ⟨hcall, hjson⟩ := call_eq_collapse_callWrapped (α := String) h refusedClient up 0
  obtain ⟨hanswered, -⟩ := call_eq_collapse_callWrapped (α := String) h answeredClient you 0
  have hservices := hjson ⟨"SClient", "S", [plain]⟩ ⟨"SClient", "S", [wrapped]⟩ "greet"
    (by decide) (by decide)
  exact ⟨⟨hcall, hservices⟩, hanswered Json.asString?, by decide +kernel, by decide +kernel⟩

end HttpService
