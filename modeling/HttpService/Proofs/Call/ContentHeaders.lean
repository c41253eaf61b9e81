import HttpService.Proofs.Call.HeadSafety
import HttpService.Proofs.Validation.WellFormed

/-!
# The content headers of a request

The headers that describe the content of a request belong to the content alone.  No binding of an
endpoint gives a line with such a name (`HeaderBinding.Yields.isContentHeader`), a content is sent
with the media type that it declares (`ContentBinding.contentType_of_encode`), and attaching it
leaves one line with that type behind (`Client.filter_attach`).
-/

namespace HttpService

/-! ## Names of headers -/

theorem isContentHeader_eq_false_iff {l : HeaderLine} :
    Lexical.isContentHeader l.name = false ↔
      l.hasName "Content-Type" = false ∧ l.hasName "Content-Length" = false := by
  have htype : Lexical.lower "Content-Type" = Lexical.lower "content-type" := by decide +kernel
  have hlength : Lexical.lower "Content-Length" = Lexical.lower "content-length" := by
    decide +kernel
  rw [Lexical.isContentHeader, Bool.or_eq_false_iff, HeaderLine.hasName, HeaderLine.hasName,
    Lexical.sameIgnoringCase, Lexical.sameIgnoringCase, Lexical.sameIgnoringCase,
    Lexical.sameIgnoringCase, htype, hlength]

theorem hasName_self (name value : String) : HeaderLine.hasName ⟨name, value⟩ name = true :=
  beq_self_eq_true (Lexical.lower name)

theorem Request.filter_setHeader (r : Request) (name value : String) :
    (r.setHeader name value).headers.filter (·.hasName name) = [⟨name, value⟩] := by
  have hrest : (r.headers.filter fun l => !l.hasName name).filter (·.hasName name) = [] := by
    rw [List.filter_eq_nil_iff]
    intro l hl hname
    have hother := (List.mem_filter.mp hl).2
    rw [hname] at hother
    cases hother
  rw [setHeader, List.filter_append, hrest, List.nil_append, List.filter_singleton, hasName_self]
  rfl

theorem find?_other_lines (lines : List HeaderLine) (name sought : String) :
    (lines.filter fun l => !l.hasName name).find? (·.hasName sought) =
      if Lexical.sameIgnoringCase name sought then none else lines.find? (·.hasName sought) := by
  have hsame (l : HeaderLine) (hl : l.hasName sought = true) :
      l.hasName name = Lexical.sameIgnoringCase name sought := by
    have hlower : Lexical.lower l.name = Lexical.lower sought := beq_iff_eq.mp hl
    rw [HeaderLine.hasName, Lexical.sameIgnoringCase, Lexical.sameIgnoringCase, hlower,
      BEq.comm]
  rw [List.find?_filter]
  split
  · next h =>
    rw [List.find?_eq_none]
    intro l _ hl
    obtain ⟨hother, hsought⟩ := of_decide_eq_true hl
    rw [hsame l hsought, h] at hother
    cases hother
  · next h =>
    congr 1
    funext l
    by_cases hl : l.hasName sought = true
    · rw [hsame l hl, hl, Bool.eq_false_iff.mpr h]
      rfl
    · rw [Bool.eq_false_iff.mpr hl]
      exact decide_eq_false fun hboth => Bool.false_ne_true hboth.2

/-- A header that was set is found under its name, and whatever has another name is found as
before. -/
theorem Request.header?_setHeader (r : Request) (name value sought : String) :
    (r.setHeader name value).header? sought =
      if Lexical.sameIgnoringCase name sought then some value else r.header? sought := by
  have hset : [HeaderLine.mk name value].find? (·.hasName sought) =
      if Lexical.sameIgnoringCase name sought then some ⟨name, value⟩ else none :=
    List.find?_singleton
  unfold header? setHeader headerValue?
  rw [List.find?_append, find?_other_lines, hset]
  split
  · rfl
  · rw [Option.or_none]

/-- A line of a well formed binding is no content header: its name was checked in the declaration,
or it was checked in the call. -/
theorem HeaderBinding.Yields.isContentHeader {b : HeaderBinding} {l : HeaderLine}
    (h : b.Yields l) (hb : b.WellFormed) : Lexical.isContentHeader l.name = false := by
  cases h with
  | static name value => exact (hb name rfl).2
  | single hvalue => exact (hb _ rfl).2
  | map hcontent hname hvalue => exact hcontent

/-! ## Media types -/

/-- The media type that a content is sent with: its own, and what stands between its parts. -/
def ContentBinding.sentType (boundary : String) (c : ContentBinding) : String :=
  match c with
  | .multipart .. => c.mediaType ++ "; boundary=" ++ boundary
  | _ => c.mediaType

theorem ContentBinding.contentType_of_encode {c : ContentBinding} {boundary : String}
    {args : Arguments} {converters : List Converter} {body : RequestBody}
    (h : c.encode boundary args converters = .ok body) :
    body.contentType = some (c.sentType boundary) := by
  cases c with
  | body b =>
    obtain ⟨payload, rfl⟩ := BodyBinding.exists_eq_single h
    rfl
  | form fields =>
    obtain ⟨pairs, -, rfl⟩ := (map_ok_iff _ _ _).mp h
    rfl
  | multipart subtype bindings =>
    simp only [encode, bind_ok_iff, pure_ok_iff] at h
    obtain ⟨parts, -, rfl⟩ := h
    rfl

/-! ## Attaching a content -/

namespace Client

theorem hasName_attach {r : Request} {body : Option RequestBody} {name : String}
    (hname : Lexical.sameIgnoringCase "Content-Type" name = false)
    (h : ∀ l ∈ r.headers, l.hasName name = false) :
    ∀ l ∈ (attach r body).headers, l.hasName name = false := by
  intro l hl
  unfold attach at hl
  split at hl
  · exact h l hl
  · rcases List.mem_append.mp hl with hl | hl
    · exact h l (List.mem_filter.mp hl).1
    · obtain rfl := List.mem_singleton.mp hl
      exact hname

/-- A request with a content says the media type of the content, if that has one, in place of what
it said before. -/
theorem header?_attach (r : Request) (body : Option RequestBody) :
    (attach r body).header? "Content-Type"
      = (body.bind RequestBody.contentType).or (r.header? "Content-Type") := by
  unfold attach
  cases body.bind RequestBody.contentType with
  | none => rfl
  | some type =>
    exact (r.header?_setHeader "Content-Type" type "Content-Type").trans
      (if_pos (hasName_self "Content-Type" type))

/-- A content that is attached leaves one line with its media type. -/
theorem filter_attach (r : Request) {body : RequestBody} {type : String}
    (h : body.contentType = some type) :
    (attach r (some body)).headers.filter (·.hasName "Content-Type") = [⟨"Content-Type", type⟩] := by
  rw [attach, Option.bind_some, h]
  exact r.filter_setHeader "Content-Type" type

theorem exists_body_of_encodeContent {σ : Type} {client : Client σ} {content : ContentBinding}
    {args : Arguments} {body : Option RequestBody}
    (h : client.encodeContent (some content) args = .ok body) :
    ∃ b, body = some b ∧ b.contentType = some (content.sentType client.boundary) := by
  obtain ⟨b, hb, rfl⟩ := (map_ok_iff _ _ _).mp h
  exact ⟨b, rfl, content.contentType_of_encode hb⟩

end Client

/-- **The content headers of a prepared request.**  No line gives a length.  If the endpoint has a
content, its method permits a body, the request has one, and the media type of the body stands in
exactly one line; otherwise there is neither a body nor such a line. -/
theorem prepare_content_headers [DomainNames] {σ : Type} {client : Client σ} {s : ServiceDecl}
    {service : Service} (hs : s.analyze.service = some service) {e : Endpoint}
    (he : e ∈ service.endpoints) {args : Arguments} {request : Request}
    (h : client.prepare e args = .ok request) :
    (∀ l ∈ request.headers, l.hasName "Content-Length" = false) ∧
      (∀ content ∈ e.content, request.method.permitsBody = true ∧ ∃ body type,
        request.body = some body ∧ body.contentType = some type ∧
          type = content.sentType client.boundary ∧
          request.headers.filter (·.hasName "Content-Type") = [⟨"Content-Type", type⟩]) ∧
      (e.content = none → request.body = none ∧
        request.headers.filter (·.hasName "Content-Type") = []) := by
  obtain ⟨f, -, hf⟩ := ServiceDecl.exists_of_mem_service hs he
  have hwell := FunctionDecl.wellFormed_of_endpoint? hf
  simp only [Client.prepare, bind_ok_iff, mapError_ok_iff, pure_ok_iff] at h
  obtain ⟨⟨⟩, -, url, -, headers, hheaders, body, hbody, rfl⟩ := h
  have hforeign : ∀ l ∈ headers,
      l.hasName "Content-Type" = false ∧ l.hasName "Content-Length" = false := by
    intro l hl
    obtain ⟨b, hb, hyields⟩ := exists_yields hheaders l hl
    exact isContentHeader_eq_false_iff.mp (hyields.isContentHeader (hwell.headers b hb))
  refine ⟨?_, ?_, ?_⟩
  · apply Client.hasName_attach (by decide +kernel)
    intro l hl
    exact (hforeign l hl).2
  · intro content hcontent
    rw [Option.mem_def.mp hcontent] at hbody
    obtain ⟨b, rfl, htype⟩ := Client.exists_body_of_encodeContent hbody
    rw [Client.method_attach]
    exact ⟨(hwell.content content hcontent).2, b, _, rfl, htype, rfl, Client.filter_attach _ htype⟩
  · intro hnone
    rw [hnone] at hbody
    obtain rfl := Except.ok.inj hbody
    refine ⟨rfl, List.filter_eq_nil_iff.mpr ?_⟩
    intro l hl
    simpa using (hforeign l hl).1

/-- What a client for `https://x/` sends for `uploadService`. -/
def uploadRequest : Request where
  method := .post
  url := .web ⟨⟨⟨[], none⟩, .domain ['h'], none⟩, .https, [['l'], ['7']],
    some "v=1&k=a&k=b".toList, some "top".toList⟩
  headers := [⟨"X-A", "1"⟩, ⟨"X-B", "y"⟩,
    ⟨"Content-Type", "multipart/form-data; boundary=BBBBBBBBBBBBBBBBBBBBBBBBBBBBBBBB"⟩]
  body := some (.multipart ⟨"form-data", Multipart.defaultBoundary,
    [⟨some "p", some "text/plain", .bytes [0x7a]⟩]⟩)

theorem prepare_content_headers_upload :
    uploadService.analyze.service = some ⟨"SClient", "S", [uploadEndpoint]⟩ ∧
      postingClient.prepare uploadEndpoint (.ofList [("n", .int 7), ("book", .string "l"),
        ("q", .map [("k", .list [.string "a", .string "b"])]), ("h", .string "y"),
        ("p", .list [.string "z"])]) = .ok uploadRequest ∧
      uploadRequest.headers.filter (·.hasName "Content-Type") =
        [⟨"Content-Type", "multipart/form-data; boundary=BBBBBBBBBBBBBBBBBBBBBBBBBBBBBBBB"⟩] := by
  have hs : uploadService.analyze.service = some ⟨"SClient", "S", [uploadEndpoint]⟩ := by
    decide +kernel
  have hprepare : postingClient.prepare uploadEndpoint (.ofList [("n", .int 7),
      ("book", .string "l"), ("q", .map [("k", .list [.string "a", .string "b"])]),
      ("h", .string "y"), ("p", .list [.string "z"])]) = .ok uploadRequest := by
    decide +kernel
  obtain ⟨-, hcontent, -⟩ := prepare_content_headers hs List.mem_cons_self hprepare
  obtain ⟨-, body, type, hbody, htype, -, hheaders⟩ := hcontent _ rfl
  obtain rfl := Option.some.inj hbody
  obtain rfl := Option.some.inj htype
  exact ⟨hs, hprepare, hheaders⟩

end HttpService
