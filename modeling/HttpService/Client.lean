import HttpService.Call.Chain
import HttpService.Call.Decoding

/-!
# Clients

A client calls endpoints: it builds the request, runs it through its interceptors to the
transport, and decodes the response for the shape that the endpoint declares.  The state of
interceptors and transport is passed along.
-/

namespace HttpService

/-- A client.  The boundary of its multipart bodies is the one that its draws come to. -/
structure Client (σ : Type) where
  base : BaseUrl
  converters : List Converter
  interceptors : List (Interceptor σ)
  transport : Transport σ
  boundary : String

namespace Client

variable {σ α : Type} [DomainNames]

def ofText (base : String) (converters : List Converter) (interceptors : List (Interceptor σ))
    (transport : Transport σ) : Except ConfigurationFault (Client σ) :=
  (BaseUrl.parse base).map fun b =>
    ⟨b, converters, interceptors, transport, Multipart.defaultBoundary⟩

/-- Refuses arguments of which one is null though its type is not nullable. -/
def requireArguments (args : Arguments) : List Parameter → Except ArgumentFault Unit
  | [] => .ok ()
  | p :: rest =>
    if !p.type.nullable && (args.value p.name).isNull then .error (.missing p.name)
    else requireArguments args rest

/-- The body of a call, if the endpoint has content. -/
def encodeContent (c : Client σ) (content : Option ContentBinding) (args : Arguments) :
    Except EncodingFault (Option RequestBody) :=
  match content with
  | none => .ok none
  | some binding => (binding.encode c.boundary args c.converters).map some

/-- A request with its content, whose media type it takes on. -/
def attach (request : Request) (body : Option RequestBody) : Request :=
  let typed := match body.bind RequestBody.contentType with
    | none => request
    | some contentType => request.setHeader "Content-Type" contentType
  { typed with body := body }

/-- The request of a call. -/
def prepare (c : Client σ) (e : Endpoint) (args : Arguments) : Except CallFault Request := do
  (requireArguments args e.parameters).mapError .argument
  let url ← (e.url.resolve c.base args).mapError .ofResolution
  let headers ← (headerLines e.headers args).mapError .encoding
  let body ← (c.encodeContent e.content args).mapError .encoding
  return attach ⟨e.method, .web url, headers, none⟩ body

/-- The chain of a client: its interceptors, then the transport. -/
def chain (c : Client σ) : List (Interceptor σ) :=
  c.interceptors ++ [c.transport.interceptor]

/-- Sends the request of a call through the chain.  There is no outcome only when there is no
request. -/
def execute (c : Client σ) (e : Endpoint) (args : Arguments) (state : σ) :
    Except CallFault Outcome × σ :=
  match c.prepare e args with
  | .error fault => (.error fault, state)
  | .ok request =>
    let run := Chain.run c.chain request state
    (.ok run.outcome, run.state)

/-- The fault of an endpoint that is called in a shape it does not declare. -/
def mismatch (e : Endpoint) (requested : String) : CallFault :=
  .shapeMismatch e.name e.returns.display requested

/-- The outcome of a call as an answer; a fault before sending has no request. -/
def answer (result : Except CallFault Outcome) (read : Outcome → Except CallFault (Answer α)) :
    Except CallFault (Answer α) :=
  match result with
  | .ok outcome => read outcome
  | .error fault => fault.capture none

/-- Calls an endpoint for the value itself. -/
def call (c : Client σ) (read : Json → Option α) (e : Endpoint) (args : Arguments) (state : σ) :
    Except CallFault α × σ :=
  match e.returns with
  | .plain declared =>
    let (result, after) := c.execute e args state
    (result.bind (Outcome.plain read c.converters declared), after)
  | _ => (.error (mismatch e "a plain value"), state)

/-- Calls an endpoint for an answer with a value. -/
def callWrapped (c : Client σ) (read : Json → Option α) (e : Endpoint) (args : Arguments)
    (state : σ) : Except CallFault (Answer α) × σ :=
  match e.returns with
  | .wrapped declared =>
    let (result, after) := c.execute e args state
    (answer result (Outcome.wrapped read c.converters declared), after)
  | _ => (.error (mismatch e "Result<T>"), state)

/-- Calls an endpoint for an answer without a value. -/
def callDiscarding (c : Client σ) (e : Endpoint) (args : Arguments) (state : σ) :
    Except CallFault (Answer Unit) × σ :=
  match e.returns with
  | .discarded =>
    let (result, after) := c.execute e args state
    (answer result Outcome.discarded, after)
  | _ => (.error (mismatch e "Result<*>"), state)

/-- Calls an endpoint of any shape for an answer with a JSON value. -/
def callJson (c : Client σ) (e : Endpoint) (args : Arguments) (state : σ) :
    Except CallFault (Answer Json) × σ :=
  match e.returns with
  | .plain declared =>
    let (result, after) := c.execute e args state
    (answer result (Outcome.wrapped some c.converters declared), after)
  | .wrapped _ => c.callWrapped some e args state
  | .discarded =>
    let (result, after) := c.callDiscarding e args state
    (result.map (·.map fun _ => Json.null), after)

end Client

/-- A client bound to a service, whose endpoints it finds by their names. -/
structure ServiceClient (σ : Type) where
  client : Client σ
  service : Service

namespace ServiceClient

variable {σ α : Type} [DomainNames]

def endpoint (c : ServiceClient σ) (name : String) : Except CallFault Endpoint :=
  match c.service.endpoint? name with
  | some e => .ok e
  | none => .error (.unknownFunction name)

def withEndpoint (c : ServiceClient σ) (name : String) (state : σ)
    (use : Endpoint → Except CallFault α × σ) : Except CallFault α × σ :=
  match c.endpoint name with
  | .ok e => use e
  | .error fault => (.error fault, state)

def invoke (c : ServiceClient σ) (read : Json → Option α) (name : String) (args : Arguments)
    (state : σ) : Except CallFault α × σ :=
  c.withEndpoint name state fun e => c.client.call read e args state

def invokeWrapped (c : ServiceClient σ) (read : Json → Option α) (name : String)
    (args : Arguments) (state : σ) : Except CallFault (Answer α) × σ :=
  c.withEndpoint name state fun e => c.client.callWrapped read e args state

def invokeDiscarding (c : ServiceClient σ) (name : String) (args : Arguments) (state : σ) :
    Except CallFault (Answer Unit) × σ :=
  c.withEndpoint name state fun e => c.client.callDiscarding e args state

def invokeJson (c : ServiceClient σ) (name : String) (args : Arguments) (state : σ) :
    Except CallFault (Answer Json) × σ :=
  c.withEndpoint name state fun e => c.client.callJson e args state

end ServiceClient

end HttpService
