import HttpService.Proofs.Body.Copying
import HttpService.Proofs.Body.Receiver
import HttpService.Proofs.Lexical
import HttpService.Proofs.Text.Decoding

/-!
# Multipart bodies read back

What is written is read back part by part (`Multipart.read_write`).  Two facts carry this.  A body
ends at the first delimiter after its head, however it runs into that delimiter, because a carriage
return stands at the start of a delimiter and nowhere else in it (`mark_eq`).  And a head ends with
its first empty line, because neither an escaped name nor a media type holds a line break.
-/

namespace HttpService

/-! ## What is written -/

def Payload.content : Payload → Bytes
  | .bytes content => content
  | .stream source => source.content

/-- A payload that fits into memory, or that yields its bytes without a fault, as many as it
declares if it does. -/
def Payload.Faithful : Payload → Prop
  | .bytes content => content.length < UInt64.size
  | .stream source => source.fault = none ∧ ∀ n ∈ source.length, n.toNat = source.content.length

instance (p : Payload) : Decidable p.Faithful :=
  match p with
  | .bytes content => inferInstanceAs (Decidable (content.length < UInt64.size))
  | .stream source =>
    decidable_of_iff (source.fault = none ∧
      source.length.all (fun n => n.toNat == source.content.length) = true)
      (by simp [Payload.Faithful, Option.all_eq_true])

theorem Payload.write_eq {p : Payload} (h : p.Faithful) : p.write = .pure p.content := by
  cases p with
  | bytes content => rfl
  | stream source =>
    rw [write, ByteSource.copy_eq h.1 h.2]
    rfl

theorem Payload.toNat_length? {p : Payload} (h : p.Faithful) {n : UInt64} (hn : p.length? = some n) :
    n.toNat = p.content.length := by
  cases p with
  | bytes content =>
    obtain rfl := Option.some.inj hn
    exact UInt64.toNat_ofNat_of_lt' h
  | stream source => exact h.2 n hn

theorem Written.pure_append (a b : Bytes) : Written.pure a ++ Written.pure b = .pure (a ++ b) :=
  rfl

namespace Multipart

def afterDelimiter (boundary : String) : List Part → Bytes
  | [] => Utf8.encode (['-', '-'] ++ crlf)
  | p :: rest =>
    Utf8.encode crlf ++ (Utf8.encode ((p.headLines.map HeaderLine.chars).flatMap (· ++ crlf) ++ crlf)
      ++ (p.payload.content ++ (mark boundary ++ afterDelimiter boundary rest)))

/-- Faithful payloads are written without a fault, each after its head and before a delimiter. -/
theorem writeParts_eq {boundary : String} {parts : List Part}
    (h : ∀ p ∈ parts, p.payload.Faithful) :
    writeParts boundary parts
      = .pure (Utf8.encode (Part.delimiterLine boundary) ++ afterDelimiter boundary parts) := by
  induction parts with
  | nil =>
    rw [writeParts, afterDelimiter, ← Utf8.encode_append]
    simp [closing, Part.delimiterLine]
  | cons p rest ih =>
    rw [List.forall_mem_cons] at h
    rw [writeParts, writePart, ih h.2, Payload.write_eq h.1, Part.head_eq, afterDelimiter, mark]
    simp only [Written.pure_append, List.flatMap_cons, Utf8.encode_append, List.append_assoc]

end Multipart

/-! ## Lines read back -/

namespace Multipart

theorem dropInfix?_crlf {line : List Char} (h : '\r' ∉ line) (rest : Bytes) :
    (Utf8.encode line ++ (Utf8.encode crlf ++ rest)).dropInfix? (Utf8.encode crlf)
      = some (Utf8.encode line, rest) := by
  have hline : ¬ [(0x0D : UInt8), 0x0A] <:+: Utf8.encode line := by
    intro hcrlf
    exact h (Utf8.mem_of_mem_encode (by decide) (hcrlf.subset List.mem_cons_self))
  exact dropInfix?_append_mark (by decide) hline rest

/-- Lines that hold something and no line break are read one by one, up to the empty line. -/
theorem readLines_encode {ls : List (List Char)} (h : ∀ l ∈ ls, l ≠ [] ∧ '\r' ∉ l) (rest : Bytes) :
    readLines (Utf8.encode (ls.flatMap (· ++ crlf) ++ crlf) ++ rest)
      = some (ls.map Utf8.encode, rest) := by
  induction ls with
  | nil =>
    have hempty := dropInfix?_crlf List.not_mem_nil rest
    exact (readLines_of_eq_some hempty).trans (if_pos rfl)
  | cons l ls ih =>
    rw [List.forall_mem_cons] at h
    have hline := dropInfix?_crlf h.1.2 (Utf8.encode (ls.flatMap (· ++ crlf) ++ crlf) ++ rest)
    have hbytes : Utf8.encode ((l :: ls).flatMap (· ++ crlf) ++ crlf) ++ rest
        = Utf8.encode l ++ (Utf8.encode crlf ++
            (Utf8.encode (ls.flatMap (· ++ crlf) ++ crlf) ++ rest)) := by
      simp only [List.flatMap_cons, Utf8.encode_append, List.append_assoc]
    rw [hbytes, readLines_of_eq_some hline, if_neg (Utf8.encode_eq_nil.not.mpr h.1.1), ih h.2]
    rfl

theorem readField_encode {h : HeaderLine} (hname : ':' ∉ h.name.toList) :
    readField (Utf8.encode h.chars) = some h := by
  have hcut : Text.cut (· == ':') h.chars = some (h.name.toList, ' ' :: h.value.toList) := by
    refine Text.cut_append_cons (by decide) ?_ _
    intro c hc
    rw [beq_eq_false_iff_ne]
    rintro rfl
    exact hname hc
  have hblank : ([' '] ++ h.value.toList).dropPrefix? [' '] = some h.value.toList :=
    List.dropPrefix?_append_of_beq h.value.toList (by decide)
  rw [List.singleton_append] at hblank
  simp [readField, Utf8.decode?_encode, hcut, hblank]

theorem mapM_readField {hs : List HeaderLine} (h : ∀ line ∈ hs, ':' ∉ line.name.toList) :
    ((hs.map HeaderLine.chars).map Utf8.encode).mapM readField = some hs := by
  induction hs with
  | nil => rfl
  | cons line hs ih =>
    rw [List.forall_mem_cons] at h
    rw [List.map_cons, List.map_cons, List.mapM_cons, readField_encode h.1, ih h.2]
    rfl

end Multipart

/-! ## Parts read back -/

theorem Part.name_mem_of_mem_headLines {p : Part} {line : HeaderLine} (h : line ∈ p.headLines) :
    line.name ∈ ["Content-Disposition", "Content-Type", "Content-Length"] := by
  simp only [Part.headLines, List.mem_cons, List.mem_append, Option.mem_toList,
    Option.map_eq_some_iff] at h
  rcases h with rfl | ⟨t, -, rfl⟩ | ⟨n, -, rfl⟩ <;> simp

namespace Multipart

/-- The line break that begins a delimiter stands nowhere else in it. -/
theorem mark_eq {boundary : String} (h : IsUnbroken boundary.toList) :
    ∃ tail, mark boundary = 0x0D :: tail ∧ 0x0D ∉ tail := by
  refine ⟨Utf8.encode ('\n' :: Part.delimiterLine boundary), rfl, fun hmem => ?_⟩
  have hbreak : '\r' ∈ '\n' :: Part.delimiterLine boundary :=
    Utf8.mem_of_mem_encode (by decide) hmem
  simp [Part.delimiterLine, h.1] at hbreak

theorem not_mark_infix {boundary : String} {body : Bytes}
    (h : ¬ Utf8.encode boundary.toList <:+: body) : ¬ mark boundary <:+: body := by
  intro hmark
  refine h (List.IsInfix.trans ?_ hmark)
  exact ⟨Utf8.encode (crlf ++ ['-', '-']), [], by simp [mark, Part.delimiterLine, Utf8.encode]⟩

theorem readPart_append {boundary : String} (hboundary : IsUnbroken boundary.toList) {p : Part}
    (htype : ∀ t ∈ p.contentType, IsUnbroken t.toList)
    (happart : ¬ Utf8.encode boundary.toList <:+: p.payload.content) (rest : Bytes) :
    readPart boundary (Utf8.encode crlf ++
        (Utf8.encode ((p.headLines.map HeaderLine.chars).flatMap (· ++ crlf) ++ crlf)
          ++ (p.payload.content ++ (mark boundary ++ rest))))
      = some (⟨p.headLines, p.payload.content⟩, rest) := by
  have hlines : ∀ l ∈ p.headLines.map HeaderLine.chars, l ≠ [] ∧ '\r' ∉ l := by
    intro l hl
    obtain ⟨line, hline, rfl⟩ := List.mem_map.mp hl
    obtain ⟨hname, hvalue⟩ := Part.isUnbroken_headLines.mpr htype line hline
    exact ⟨by simp [HeaderLine.chars], by simp [HeaderLine.chars, hname.1, hvalue.1]⟩
  have hnames : ∀ line ∈ p.headLines, ':' ∉ line.name.toList := by
    have hcolon : ∀ name ∈ ["Content-Disposition", "Content-Type", "Content-Length"],
        ':' ∉ name.toList := by decide
    exact fun line hline => hcolon line.name (Part.name_mem_of_mem_headLines hline)
  have hbody : (p.payload.content ++ (mark boundary ++ rest)).dropInfix? (mark boundary)
      = some (p.payload.content, rest) := by
    obtain ⟨tail, hmark, htail⟩ := mark_eq hboundary
    have hnot := not_mark_infix happart
    rw [hmark] at hnot ⊢
    exact dropInfix?_append_mark htail hnot rest
  simp only [readPart, List.dropPrefix?_append_of_beq _ (beq_self_eq_true (Utf8.encode crlf)),
    readLines_encode hlines, mapM_readField hnames, hbody, Option.bind_eq_bind, Option.bind_some,
    Option.pure_def]

theorem readParts_afterDelimiter {boundary : String} (hboundary : IsUnbroken boundary.toList)
    {parts : List Part} (htype : ∀ p ∈ parts, ∀ t ∈ p.contentType, IsUnbroken t.toList)
    (happart : ∀ p ∈ parts, ¬ Utf8.encode boundary.toList <:+: p.payload.content) :
    readParts boundary (afterDelimiter boundary parts)
      = some (parts.map fun p => ⟨p.headLines, p.payload.content⟩) := by
  induction parts with
  | nil => rw [afterDelimiter, readParts, if_pos rfl, List.map_nil]
  | cons p rest ih =>
    rw [List.forall_mem_cons] at htype happart
    have hopen : afterDelimiter boundary (p :: rest) ≠ Utf8.encode (['-', '-'] ++ crlf) := by
      intro h
      have hfirst := congrArg List.head? h
      cases hfirst
    rw [readParts_of_eq_some hopen (readPart_append hboundary htype.1 happart.1 _),
      ih htype.2 happart.2, Option.map_some, List.map_cons]

end Multipart

/-! ## Names, media types and lengths -/

namespace ReceivedPart

variable {p : Part} {body : Bytes}

theorem field?_disposition : field? ⟨p.headLines, body⟩ "Content-Disposition"
    = some (String.ofList ("form-data".toList ++
        ((p.name.map fun n => "; name=\"".toList ++ escapeName n ++ ['"']).getD []))) := by
  have hfound : Lexical.sameIgnoringCase "Content-Disposition" "Content-Disposition" = true := by
    decide
  simp only [field?, Part.headLines, List.find?_cons_of_pos, hfound, Option.map_some]

theorem field?_contentType : field? ⟨p.headLines, body⟩ "Content-Type" = p.contentType := by
  have hskip : Lexical.sameIgnoringCase "Content-Disposition" "Content-Type" = false := by decide
  have hfound : Lexical.sameIgnoringCase "Content-Type" "Content-Type" = true := by decide
  have hlength : Lexical.sameIgnoringCase "Content-Length" "Content-Type" = false := by decide
  rw [field?, Part.headLines, List.find?_cons_of_neg (by simp [hskip])]
  cases p.contentType with
  | none => cases p.payload.length? <;> simp [hlength]
  | some t => simp [hfound]

theorem field?_contentLength : field? ⟨p.headLines, body⟩ "Content-Length"
    = p.payload.length?.map fun n => String.ofList (Text.digitsOf n.toNat) := by
  have hskip : Lexical.sameIgnoringCase "Content-Disposition" "Content-Length" = false := by decide
  have htype : Lexical.sameIgnoringCase "Content-Type" "Content-Length" = false := by decide
  have hfound : Lexical.sameIgnoringCase "Content-Length" "Content-Length" = true := by decide
  rw [field?, Part.headLines, List.find?_cons_of_neg (by simp [hskip])]
  cases p.contentType <;> cases p.payload.length? <;> simp [htype, hfound]

theorem quote_not_mem_escapeName (name : String) : '"' ∉ escapeName name := by
  intro h
  obtain ⟨c, -, hc⟩ := List.mem_flatMap.mp h
  unfold escapeNameChar at hc
  split at hc
  · simp at hc
  · next hquote =>
    split at hc
    · simp at hc
    · split at hc
      · simp at hc
      · exact hquote (List.mem_singleton.mp hc).symm

theorem name?_eq : name? ⟨p.headLines, body⟩
    = p.name.map fun n => String.ofList (escapeName n) := by
  rw [name?, field?_disposition, Option.bind_eq_bind, Option.bind_some, String.toList_ofList]
  cases p.name with
  | none => rfl
  | some n =>
    have hdrop : ("form-data".toList ++ ("; name=\"".toList ++ escapeName n ++ ['"'])).dropPrefix?
        "form-data; name=\"".toList = some (escapeName n ++ ['"']) := by
      have hliteral : ("form-data".toList ++ "; name=\"".toList == "form-data; name=\"".toList)
          = true := by decide
      rw [List.append_assoc, ← List.append_assoc]
      exact List.dropPrefix?_append_of_beq _ hliteral
    have hcut : Text.cut (· == '"') (escapeName n ++ ['"']) = some (escapeName n, []) := by
      refine Text.cut_append_cons (by decide) ?_ []
      intro c hc
      rw [beq_eq_false_iff_ne]
      rintro rfl
      exact quote_not_mem_escapeName n hc
    simp only [Option.map_some, Option.getD_some, hdrop, hcut, Option.bind_eq_bind,
      Option.bind_some]

theorem length?_eq : length? ⟨p.headLines, body⟩ = p.payload.length?.map UInt64.toNat := by
  rw [length?, field?_contentLength]
  cases p.payload.length? with
  | none => rfl
  | some n =>
    have hdigits : Text.digitsOf n.toNat ≠ [] ∧ (Text.digitsOf n.toNat).all Char.isDigit := by
      refine ⟨Nat.toDigits_ne_nil, List.all_eq_true.mpr fun c hc => ?_⟩
      exact Nat.isDigit_of_mem_toDigits (by omega) (Nat.le_refl 10) hc
    simp only [Option.map_some, Option.bind_eq_bind, Option.bind_some, String.toList_ofList,
      if_pos hdigits, Text.natOfDigits_digitsOf]

end ReceivedPart

/-! ## Bodies read back -/

/-- A multipart body as its parts are meant to be written: the boundary stands in no payload, every
media type may stand in a header, and every payload yields its bytes. -/
structure Multipart.Writable (m : Multipart) : Prop where
  nonempty : m.boundary ≠ ""
  alphanumeric : ∀ c ∈ m.boundary.toList, c.isAlphanum = true
  contentTypes : ∀ p ∈ m.parts, ∀ t ∈ p.contentType, Lexical.checkHeaderValue t = .ok ()
  faithful : ∀ p ∈ m.parts, p.payload.Faithful
  apart : ∀ p ∈ m.parts, ¬ Utf8.encode m.boundary.toList <:+: p.payload.content

/-- A part as it was written, with nothing lost and nothing added. -/
structure Part.Recovered (p : Part) (r : ReceivedPart) : Prop where
  fields : r.fields = p.headLines
  name : r.name? = p.name.map fun n => String.ofList (escapeName n)
  quoted : ∀ n ∈ r.name?, '"' ∉ n.toList ∧ '\r' ∉ n.toList ∧ '\n' ∉ n.toList
  contentType : r.contentType? = p.contentType
  length : r.length? = p.payload.length?.map fun _ => r.body.length
  body : r.body = p.payload.content

theorem Part.recovered {p : Part} (h : p.payload.Faithful) :
    p.Recovered ⟨p.headLines, p.payload.content⟩ where
  fields := rfl
  name := ReceivedPart.name?_eq
  quoted n hn := by
    rw [ReceivedPart.name?_eq, Option.mem_def, Option.map_eq_some_iff] at hn
    obtain ⟨name, -, rfl⟩ := hn
    rw [String.toList_ofList]
    exact ⟨ReceivedPart.quote_not_mem_escapeName name, Part.isUnbroken_escapeName name⟩
  contentType := ReceivedPart.field?_contentType
  length := by
    rw [ReceivedPart.length?_eq]
    refine Option.map_congr fun n hn => ?_
    exact Payload.toNat_length? h hn
  body := rfl

theorem isUnbroken_of_alphanumeric {cs : List Char} (h : ∀ c ∈ cs, c.isAlphanum = true) :
    IsUnbroken cs := by
  constructor
  · intro hc
    exact absurd (h _ hc) (by decide)
  · intro hc
    exact absurd (h _ hc) (by decide)

theorem isUnbroken_of_checkHeaderValue {t : String} (h : Lexical.checkHeaderValue t = .ok ()) :
    IsUnbroken t.toList := by
  have hvalue := Lexical.checkHeaderValue_ok_iff.mp h
  constructor
  · intro hc
    exact absurd (hvalue _ hc) (by decide)
  · intro hc
    exact absurd (hvalue _ hc) (by decide)

/-- **What is written is read back**: a receiver that knows the boundary finds the parts, in order
and with their bytes, and nothing else. -/
theorem Multipart.read_write {m : Multipart} (h : m.Writable) :
    m.write.fault = none ∧ ∃ received, read m.boundary m.write.bytes = some received ∧
      List.Forall₂ Part.Recovered m.parts received := by
  have hwrite : m.write = .pure _ := writeParts_eq h.faithful
  have hboundary := isUnbroken_of_alphanumeric h.alphanumeric
  have htypes : ∀ p ∈ m.parts, ∀ t ∈ p.contentType, IsUnbroken t.toList :=
    fun p hp t ht => isUnbroken_of_checkHeaderValue (h.contentTypes p hp t ht)
  rw [hwrite]
  refine ⟨rfl, m.parts.map fun p => ⟨p.headLines, p.payload.content⟩, ?_, ?_⟩
  · show read m.boundary (Utf8.encode (Part.delimiterLine m.boundary) ++ _) = _
    rw [read, List.dropPrefix?_append_of_beq _ (beq_self_eq_true _), Option.bind_eq_bind,
      Option.bind_some]
    exact readParts_afterDelimiter hboundary htypes h.apart
  · rw [List.forall₂_map_right_iff]
    exact List.forall₂_same.mpr fun p hp => Part.recovered (h.faithful p hp)

/-- Payloads that run into the delimiter, and a name that looks like one. -/
theorem Multipart.read_write_dashes :
    let m : Multipart := ⟨"form-data", "b1",
      [⟨some "a\"\r\n--b1", some "text/plain", .bytes [0x0D, 0x0A, 0x2D, 0x2D, 0x62]⟩,
        ⟨none, none, .stream ⟨⟨[[0x0D], [0x0A]], by decide⟩, none, some 2⟩⟩,
        ⟨some "", some "", .stream ⟨⟨[[0xFF, 0x0D]], by decide⟩, none, none⟩⟩]⟩
    m.Writable ∧ m.write.fault = none ∧
      ∃ received, read m.boundary m.write.bytes = some received ∧
        List.Forall₂ Part.Recovered m.parts received := by
  intro m
  have hm : m.Writable := {
    nonempty := by decide
    alphanumeric := List.all_eq_true.mp (by decide)
    contentTypes := by decide +kernel
    faithful := by decide +kernel
    apart := by decide +kernel }
  exact ⟨hm, read_write hm⟩

end HttpService
