import HttpService.Client
import HttpService.Proofs.Body.Head
import HttpService.Proofs.Call.HeaderLines
import HttpService.Proofs.Validation.Heads
import HttpService.Url.PlainNames

/-!
# What stands in a request head

Every text of a request head was checked, in the declaration or in the call, except for one: a
media type is accepted with any white space behind its subtype.  So the head of a prepared request
is safe exactly when that white space is (`prepare_headSafe_iff`), and a line break there does
leave its line (`prepare_breaks_line`).
-/

namespace HttpService

/-- A request whose head is made of legal texts, and the heads of its parts as well. -/
structure Request.HeadSafe (r : Request) : Prop where
  method : Lexical.checkToken r.method.token = .ok ()
  names : ∀ h ∈ r.headers, Lexical.checkHeaderName h.name = .ok ()
  values : ∀ h ∈ r.headers, Lexical.checkHeaderValue h.value = .ok ()
  unbroken : ∀ h ∈ r.headers, ∀ c ∈ h.name.toList ++ h.value.toList, Lexical.breaksLine c = false
  parts : ∀ m, r.body = some (.multipart m) → ∀ p ∈ m.parts, p.HeadSafe m.boundary

/-- A content whose media types have harmless white space behind their subtypes: legal in a header
value where the type becomes one, and without line breaks in the head of a part that is sent. -/
def ContentBinding.StaysInLine (args : Arguments) (converters : List Converter) :
    ContentBinding → Prop
  | .body b => ∀ c ∈ Lexical.blanksAfterSubtype b.contentType, Lexical.isValueChar c = true
  | .form _ => True
  | .multipart _ bindings => ∀ b ∈ bindings, ∀ parts, b.parts args converters = .ok parts →
      parts ≠ [] → IsUnbroken (Lexical.blanksAfterSubtype b.contentType)

/-! ## Header lines -/

def HeaderLine.Legal (h : HeaderLine) : Prop :=
  Lexical.checkHeaderName h.name = .ok () ∧ Lexical.checkHeaderValue h.value = .ok ()

theorem HeaderBinding.Yields.legal {b : HeaderBinding} {l : HeaderLine} (h : b.Yields l)
    (hb : b.Checked) : l.Legal := by
  cases h with
  | static name value => exact hb
  | single hvalue => exact ⟨hb, hvalue⟩
  | map hcontent hname hvalue => exact ⟨hname, hvalue⟩

theorem legal_of_headerLines {bindings : List HeaderBinding} (hb : ∀ b ∈ bindings, b.Checked)
    {args : Arguments} {ls : List HeaderLine} (h : headerLines bindings args = .ok ls) :
    ∀ l ∈ ls, l.Legal := by
  intro l hl
  obtain ⟨b, hmem, hyields⟩ := exists_yields h l hl
  exact hyields.legal (hb b hmem)

/-! ## Contents -/

theorem BodyBinding.exists_eq_single {b : BodyBinding} {args : Arguments}
    {converters : List Converter} {body : RequestBody} (h : b.encode args converters = .ok body) :
    ∃ payload, body = .single (some b.contentType) payload := by
  unfold encode at h
  split at h
  · obtain rfl := Except.ok.inj h
    exact ⟨_, rfl⟩
  · obtain ⟨payload, -, rfl⟩ := (map_ok_iff _ _ _).mp h
    exact ⟨payload, rfl⟩

theorem PartBinding.contentType_of_mem_parts {b : PartBinding} {args : Arguments}
    {converters : List Converter} {ps : List Part} (h : b.parts args converters = .ok ps) :
    ∀ p ∈ ps, p.contentType = some b.contentType := by
  simp only [parts, bind_ok_iff] at h
  obtain ⟨values, -, h⟩ := h
  intro p hp
  obtain ⟨v, -, hv⟩ := exists_of_mem_mapM h hp
  obtain ⟨payload, -, rfl⟩ := (map_ok_iff _ _ _).mp hv
  rfl

/-! ## Requests -/

theorem Request.headSafe_iff {r : Request} :
    r.HeadSafe ↔ Lexical.checkToken r.method.token = .ok () ∧ (∀ h ∈ r.headers, h.Legal) ∧
      ∀ m, r.body = some (.multipart m) → ∀ p ∈ m.parts, p.HeadSafe m.boundary := by
  constructor
  · exact fun h => ⟨h.method, fun l hl => ⟨h.names l hl, h.values l hl⟩, h.parts⟩
  · rintro ⟨hmethod, hlegal, hparts⟩
    refine ⟨hmethod, fun l hl => (hlegal l hl).1, fun l hl => (hlegal l hl).2, ?_, hparts⟩
    intro l hl c hc
    obtain ⟨hname, hvalue⟩ := hlegal l hl
    rcases List.mem_append.mp hc with hc | hc
    · exact Lexical.not_breaksLine_of_isTokenChar
        ((Lexical.checkHeaderName_ok_iff.mp hname).2 c hc)
    · exact Lexical.not_breaksLine_of_isValueChar (Lexical.checkHeaderValue_ok_iff.mp hvalue c hc)

/-- The line that a content adds to legal ones is legal when its media type is a header value. -/
theorem Client.legal_attach_iff {r : Request} (hheaders : ∀ h ∈ r.headers, h.Legal)
    {body : Option RequestBody} :
    (∀ h ∈ (attach r body).headers, h.Legal) ↔
      ∀ t ∈ body.bind RequestBody.contentType, Lexical.checkHeaderValue t = .ok () := by
  unfold attach
  cases body.bind RequestBody.contentType with
  | none => simpa using hheaders
  | some t =>
    have hname : Lexical.checkHeaderName "Content-Type" = .ok () := by decide +kernel
    simp only [Request.setHeader, List.mem_append, List.mem_filter, List.mem_singleton, or_imp,
      forall_and, forall_eq, Option.mem_some, forall_eq']
    constructor
    · exact fun h => h.2.2
    · exact fun h => ⟨fun l hl => hheaders l hl.1, hname, h⟩

theorem Client.method_attach (r : Request) (body : Option RequestBody) :
    (attach r body).method = r.method := by
  unfold attach
  split <;> rfl

theorem isUnbroken_of_value {cs : List Char} (h : ∀ c ∈ cs, Lexical.isValueChar c = true) :
    IsUnbroken cs := by
  constructor
  · exact fun hc => absurd (h _ hc) (by decide)
  · exact fun hc => absurd (h _ hc) (by decide)

/-- A media type that was accepted can break its line only behind its subtype. -/
theorem isUnbroken_mediaType_iff {t : String} (h : Lexical.checkMediaType t = .ok ()) :
    IsUnbroken t.toList ↔ IsUnbroken (Lexical.blanksAfterSubtype t) := by
  have hsub (c : Char) (hc : Lexical.isValueChar c = false) :
      c ∈ t.toList ↔ c ∈ Lexical.blanksAfterSubtype t := by
    refine ⟨fun hmem => ?_, Lexical.mem_of_mem_blanksAfterSubtype⟩
    exact (Lexical.isValueChar_or_mem_of_mediaType h c hmem).resolve_left (by simp [hc])
  rw [IsUnbroken, IsUnbroken, hsub '\r' rfl, hsub '\n' rfl]

/-- The media type of a multipart body is a header value. -/
theorem Multipart.checkHeaderValue_contentType {m : Multipart}
    (hsubtype : Lexical.checkToken m.subtype = .ok ())
    (hboundary : ∀ c ∈ m.boundary.toList, c.isAlphanum = true) :
    Lexical.checkHeaderValue m.contentType = .ok () := by
  have front : ("multipart/".toList ++ "; boundary=".toList).all Lexical.isValueChar = true := by
    decide
  rw [List.all_eq_true] at front
  rw [Lexical.checkHeaderValue_ok_iff]
  intro c hc
  simp only [contentType, String.toList_append, List.mem_append] at hc
  rcases hc with ((hc | hc) | hc) | hc
  · exact front c (List.mem_append_left _ hc)
  · exact Lexical.isValueChar_of_isTokenChar ((Lexical.checkToken_ok_iff.mp hsubtype).2 c hc)
  · exact front c (List.mem_append_right _ hc)
  · exact Lexical.isValueChar_of_isTokenChar (by simp [Lexical.isTokenChar, hboundary c hc])

/-- The content of a request is safe exactly when the white space behind its subtypes is. -/
theorem ContentBinding.safe_iff {b : ContentBinding} (hb : b.Checked) {boundary : String}
    (hboundary : ∀ c ∈ boundary.toList, c.isAlphanum = true) {args : Arguments}
    {converters : List Converter} {body : RequestBody}
    (h : b.encode boundary args converters = .ok body) :
    ((∀ t ∈ body.contentType, Lexical.checkHeaderValue t = .ok ()) ∧
      ∀ m, body = .multipart m → ∀ p ∈ m.parts, p.HeadSafe m.boundary) ↔
        b.StaysInLine args converters := by
  cases b with
  | body binding =>
    obtain ⟨payload, rfl⟩ := BodyBinding.exists_eq_single h
    simp [RequestBody.contentType, StaysInLine, Lexical.checkHeaderValue_iff_of_mediaType hb]
  | form fields =>
    obtain ⟨pairs, -, rfl⟩ := (map_ok_iff _ _ _).mp h
    have htype : Lexical.checkHeaderValue formMediaType = .ok () := by decide +kernel
    simp [RequestBody.contentType, RequestBody.ofForm, RequestBody.ofBytes, StaysInLine, htype]
  | multipart subtype bindings =>
    simp only [encode, bind_ok_iff, pure_ok_iff] at h
    obtain ⟨pss, hpss, rfl⟩ := h
    have hboundary' : IsUnbroken boundary.toList := isUnbroken_of_value fun c hc =>
      Lexical.isValueChar_of_isTokenChar (by simp [Lexical.isTokenChar, hboundary c hc])
    constructor
    · rintro ⟨-, hparts⟩ b hmem ps hps hne
      obtain ⟨ps', hmem', hps'⟩ := exists_mem_of_mapM hpss hmem
      obtain rfl := Except.ok.inj (hps'.symm.trans hps)
      obtain ⟨p, hp⟩ := List.exists_mem_of_ne_nil ps' hne
      have hsafe := hparts _ rfl p (List.mem_flatten_of_mem hmem' hp)
      exact (isUnbroken_mediaType_iff (hb.2 b hmem)).mp ((Part.headSafe_iff hboundary' p).mp hsafe _
        (PartBinding.contentType_of_mem_parts hps p hp))
    · intro h
      refine ⟨?_, ?_⟩
      · rintro _ ⟨⟩
        exact Multipart.checkHeaderValue_contentType hb.1 hboundary
      · rintro _ ⟨⟩ p hp
        obtain ⟨ps, hmem', hp⟩ := List.mem_flatten.mp hp
        obtain ⟨b, hmem, hps⟩ := exists_of_mem_mapM hpss hmem'
        rw [Part.headSafe_iff hboundary', PartBinding.contentType_of_mem_parts hps p hp]
        rintro _ ⟨⟩
        exact (isUnbroken_mediaType_iff (hb.2 b hmem)).mpr (h b hmem ps hps (List.ne_nil_of_mem hp))

/-- **When a request head is safe.**  The head of a prepared request is made of legal texts, and so
are the heads of its parts, exactly when the media types of its content hold only harmless white
space behind their subtypes. -/
theorem prepare_headSafe_iff [DomainNames] {σ : Type} {client : Client σ}
    (hboundary : ∀ c ∈ client.boundary.toList, c.isAlphanum = true) {s : ServiceDecl}
    {service : Service} (hs : s.analyze.service = some service) {e : Endpoint}
    (he : e ∈ service.endpoints) {args : Arguments} {request : Request}
    (h : client.prepare e args = .ok request) :
    request.HeadSafe ↔ ∀ b ∈ e.content, b.StaysInLine args client.converters := by
  have hchecked := ServiceDecl.headChecked_of_mem_service hs he
  simp only [Client.prepare, bind_ok_iff, mapError_ok_iff, pure_ok_iff] at h
  obtain ⟨⟨⟩, -, url, -, headers, hheaders, body, hbody, rfl⟩ := h
  have hlegal := legal_of_headerLines hchecked.headers hheaders
  rw [Request.headSafe_iff, Client.method_attach, Client.legal_attach_iff hlegal,
    and_iff_right hchecked.method]
  unfold Client.encodeContent at hbody
  split at hbody
  · next hnone =>
    obtain rfl := Except.ok.inj hbody
    simp [hnone, Client.attach]
  · next binding hsome =>
    obtain ⟨content, hcontent, rfl⟩ := (map_ok_iff _ _ _).mp hbody
    have hsafe := ContentBinding.safe_iff (hchecked.content binding hsome) hboundary hcontent
    simpa [hsome, Client.attach] using hsafe

/-! ## A break behind a subtype -/

/-- A service whose one function posts a text with the given content type. -/
def postingService (contentType : String) : ServiceDecl where
  name := "S"
  kind := .interface
  topLevel := true
  supertypes := []
  typeParameters := []
  properties := []
  functions := [{
    name := "f"
    marks := [.http "POST" (some "a") none]
    isSuspending := true
    hasDefaultBody := false
    typeParameters := []
    parameters := [⟨"b", .named "String", [.body (some contentType)], .unknown⟩]
    returnType := .named "Unit"
    location := .unknown }]
  serializableTypes := []
  location := .unknown

def postingEndpoint (contentType : String) : Endpoint :=
  ⟨"f", [⟨"b", .named "String"⟩], .post, .template "a" .relative [] [], [],
    some (.body ⟨"b", contentType, false, false⟩), .plain (.named "Unit")⟩

def postingUrl : Url :=
  ⟨⟨⟨[], none⟩, .domain ['x'], none⟩, .https, [[]], none, none⟩

/-- A client for `https://x/`. -/
def postingClient : Client Unit where
  base := ⟨postingUrl, rfl, rfl, rfl⟩
  converters := Converter.defaults
  interceptors := []
  transport := fun _ _ => (.error (.other "offline"), ())
  boundary := Multipart.defaultBoundary

/-- What the client sends for the text `x`. -/
def postingRequest (contentType : String) : Request :=
  ⟨.post, .web ⟨⟨⟨[], none⟩, .domain ['x'], none⟩, .https, [['a']], none, none⟩,
    [⟨"Content-Type", contentType⟩], some (.single (some contentType) (.bytes [0x78]))⟩

theorem prepare_headSafe_iff_plain :
    (postingService "text/plain").analyze.service
        = some ⟨"SClient", "S", [postingEndpoint "text/plain"]⟩ ∧
      postingClient.prepare (postingEndpoint "text/plain") (.ofList [("b", .string "x")])
        = .ok (postingRequest "text/plain") ∧
      (postingRequest "text/plain").HeadSafe := by
  have hs : (postingService "text/plain").analyze.service
      = some ⟨"SClient", "S", [postingEndpoint "text/plain"]⟩ := by decide +kernel
  have hprepare : postingClient.prepare (postingEndpoint "text/plain")
      (.ofList [("b", .string "x")]) = .ok (postingRequest "text/plain") := by decide +kernel
  have hboundary : postingClient.boundary.toList.all Char.isAlphanum = true := by decide +kernel
  have hblanks : (Lexical.blanksAfterSubtype "text/plain").all Lexical.isValueChar = true := by
    decide +kernel
  refine ⟨hs, hprepare, (prepare_headSafe_iff (List.all_eq_true.mp hboundary) hs
    List.mem_cons_self hprepare).mpr ?_⟩
  rintro _ ⟨⟩
  exact List.all_eq_true.mp hblanks

/-- Line breaks behind a subtype get into the head of the request. -/
theorem prepare_breaks_line :
    (postingService "text/plain\r\n\r\n").analyze.service
        = some ⟨"SClient", "S", [postingEndpoint "text/plain\r\n\r\n"]⟩ ∧
      postingClient.prepare (postingEndpoint "text/plain\r\n\r\n")
        (.ofList [("b", .string "x")]) = .ok (postingRequest "text/plain\r\n\r\n") ∧
      ¬ (postingRequest "text/plain\r\n\r\n").HeadSafe := by
  refine ⟨by decide +kernel, by decide +kernel, fun h => ?_⟩
  have hvalue := h.values ⟨"Content-Type", "text/plain\r\n\r\n"⟩ List.mem_cons_self
  revert hvalue
  decide +kernel

end HttpService
