import HttpService.Body.Multipart
import HttpService.Message.Request
import HttpService.Proofs.Text.Splitting

/-!
# Heads of parts

The head of a part, read by its lines.  `readHead` takes a text apart into lines up to the first
empty one, as a receiver does; what it finds in the head of a part are the delimiter and the header
lines of the part, whatever payload follows, as long as none of them holds a line break
(`readHead_head`).  Of all that goes into a head only the media type can hold one
(`Part.headSafe_iff`).
-/

namespace HttpService

def HeaderLine.chars (h : HeaderLine) : List Char :=
  h.name.toList ++ ':' :: ' ' :: h.value.toList

/-- The lines of a text up to its first empty line, and what follows that.  What was read of the
line at hand stands in `line`, the last character first. -/
def readHead (line : List Char) : List Char → Option (List (List Char) × List Char)
  | [] => none
  | '\r' :: '\n' :: rest =>
    if line.isEmpty then some ([], rest)
    else (readHead [] rest).map fun r => (line.reverse :: r.1, r.2)
  | c :: rest => readHead (c :: line) rest

def IsUnbroken (cs : List Char) : Prop :=
  '\r' ∉ cs ∧ '\n' ∉ cs

/-! ## Reading lines -/

theorem readHead_cons {c : Char} (hc : c ≠ '\r') (line rest : List Char) :
    readHead line (c :: rest) = readHead (c :: line) rest := by
  rw [readHead]
  rintro _ rfl
  exact absurd rfl hc

theorem readHead_append {l : List Char} (h : '\r' ∉ l) (line rest : List Char) :
    readHead line (l ++ rest) = readHead (l.reverse ++ line) rest := by
  induction l generalizing line with
  | nil => rfl
  | cons c l ih =>
    rw [List.mem_cons, not_or] at h
    rw [List.cons_append, readHead_cons (Ne.symm h.1), ih h.2, List.reverse_cons, List.append_assoc]
    rfl

theorem readHead_crlf {line : List Char} (h : line ≠ []) (rest : List Char) :
    readHead line (crlf ++ rest)
      = (readHead [] rest).map fun r => (line.reverse :: r.1, r.2) := by
  show readHead line ('\r' :: '\n' :: rest) = _
  rw [readHead, if_neg (by simpa using h)]

/-- Lines that hold something and no line break are read one by one, up to the empty line. -/
theorem readHead_lines {ls : List (List Char)} (h : ∀ l ∈ ls, l ≠ [] ∧ '\r' ∉ l)
    (rest : List Char) :
    readHead [] (ls.flatMap (· ++ crlf) ++ crlf ++ rest) = some (ls, rest) := by
  induction ls with
  | nil => rfl
  | cons l ls ih =>
    rw [List.forall_mem_cons] at h
    rw [List.flatMap_cons, List.append_assoc, List.append_assoc, List.append_assoc,
      readHead_append h.1.2, List.append_nil, readHead_crlf (by simpa using h.1.1),
      ← List.append_assoc (ls.flatMap _), ih h.2, List.reverse_reverse]
    rfl

/-! ## What a head holds -/

namespace Part

def headLines (p : Part) : List HeaderLine :=
  ⟨"Content-Disposition", String.ofList ("form-data".toList ++
    ((p.name.map fun n => "; name=\"".toList ++ escapeName n ++ ['"']).getD []))⟩ ::
  ((p.contentType.map fun t => ⟨"Content-Type", t⟩).toList ++
    (p.payload.length?.map fun n =>
      ⟨"Content-Length", String.ofList (Text.digitsOf n.toNat)⟩).toList)

def delimiterLine (boundary : String) : List Char :=
  '-' :: '-' :: boundary.toList

theorem dispositionLine_eq (p : Part) :
    p.dispositionLine = HeaderLine.chars ⟨"Content-Disposition", String.ofList ("form-data".toList ++
      ((p.name.map fun n => "; name=\"".toList ++ escapeName n ++ ['"']).getD []))⟩ ++ crlf := by
  -- the equation of `dispositionLine` is slow to make, since its literal is long
  delta dispositionLine
  rw [HeaderLine.chars, String.toList_ofList]
  simp

theorem typeLine_eq (p : Part) :
    p.typeLine = ((p.contentType.map fun t => (⟨"Content-Type", t⟩ : HeaderLine)).toList.map
      HeaderLine.chars).flatMap (· ++ crlf) := by
  unfold typeLine
  cases p.contentType with
  | none => rfl
  | some t => simp [HeaderLine.chars]

theorem lengthLine_eq (p : Part) :
    p.lengthLine = ((p.payload.length?.map fun n => (⟨"Content-Length",
      String.ofList (Text.digitsOf n.toNat)⟩ : HeaderLine)).toList.map
        HeaderLine.chars).flatMap (· ++ crlf) := by
  unfold lengthLine
  cases p.payload.length? with
  | none => rfl
  | some n => simp [HeaderLine.chars]

/-- A head is the delimiter and the header lines, each with its line break, and an empty line. -/
theorem head_eq (boundary : String) (p : Part) :
    p.head boundary
      = (delimiterLine boundary :: p.headLines.map HeaderLine.chars).flatMap (· ++ crlf)
      ++ crlf := by
  rw [head, dispositionLine_eq, typeLine_eq, lengthLine_eq, headLines, List.map_cons,
    List.map_append, List.flatMap_cons, List.flatMap_cons, List.flatMap_append, delimiterLine]
  simp only [List.append_assoc, List.cons_append]

/-- A head that a receiver takes apart into its delimiter and its header lines, none of which holds
a line break, and that ends with its first empty line. -/
structure HeadSafe (boundary : String) (p : Part) : Prop where
  framed : ∀ rest, readHead [] (p.head boundary ++ rest)
    = some (delimiterLine boundary :: p.headLines.map HeaderLine.chars, rest)
  unbroken : ∀ h ∈ p.headLines, IsUnbroken h.name.toList ∧ IsUnbroken h.value.toList

theorem isUnbroken_escapeName (name : String) : IsUnbroken (escapeName name) := by
  have keep (c : Char) : ∀ d ∈ escapeNameChar c, d ≠ '\r' ∧ d ≠ '\n' := by
    unfold escapeNameChar
    split
    · simp
    · split
      · simp
      · split
        · simp
        · next hcr hlf => simpa using ⟨hcr, hlf⟩
  constructor
  · intro h
    obtain ⟨c, -, hc⟩ := List.mem_flatMap.mp h
    exact (keep c _ hc).1 rfl
  · intro h
    obtain ⟨c, -, hc⟩ := List.mem_flatMap.mp h
    exact (keep c _ hc).2 rfl

theorem isUnbroken_digitsOf (n : Nat) : IsUnbroken (Text.digitsOf n) := by
  have digit (c : Char) (hc : c ∈ Text.digitsOf n) : c ≠ '\r' ∧ c ≠ '\n' := by
    have hdigit := Nat.isDigit_of_mem_toDigits (by omega) (Nat.le_refl 10) hc
    constructor
    · rintro rfl
      cases hdigit
    · rintro rfl
      cases hdigit
  exact ⟨fun h => (digit _ h).1 rfl, fun h => (digit _ h).2 rfl⟩

theorem isUnbroken_append {as bs : List Char} :
    IsUnbroken (as ++ bs) ↔ IsUnbroken as ∧ IsUnbroken bs := by
  simp only [IsUnbroken, List.mem_append, not_or]
  exact and_and_and_comm

theorem isUnbroken_headLines {p : Part} :
    (∀ h ∈ p.headLines, IsUnbroken h.name.toList ∧ IsUnbroken h.value.toList) ↔
      ∀ t ∈ p.contentType, IsUnbroken t.toList := by
  have literal : IsUnbroken "Content-Disposition".toList ∧ IsUnbroken "Content-Type".toList ∧
      IsUnbroken "Content-Length".toList := by
    refine ⟨?_, ?_, ?_⟩ <;> constructor <;> decide
  have disposition : IsUnbroken ("form-data".toList ++
      ((p.name.map fun n => "; name=\"".toList ++ escapeName n ++ ['"']).getD [])) := by
    rw [isUnbroken_append]
    refine ⟨⟨by decide, by decide⟩, ?_⟩
    cases p.name with
    | none => exact ⟨by simp, by simp⟩
    | some n =>
      simp only [Option.map_some, Option.getD_some, isUnbroken_append]
      exact ⟨⟨⟨by decide, by decide⟩, isUnbroken_escapeName n⟩, by decide, by decide⟩
  constructor
  · intro h t ht
    exact (h ⟨"Content-Type", t⟩ (by simpa [headLines] using ht)).2
  · intro h line hline
    simp only [headLines, List.mem_cons, List.mem_append, Option.mem_toList,
      Option.map_eq_some_iff] at hline
    rcases hline with rfl | ⟨t, ht, rfl⟩ | ⟨n, -, rfl⟩
    · exact ⟨literal.1, by rw [String.toList_ofList]; exact disposition⟩
    · exact ⟨literal.2.1, h t ht⟩
    · exact ⟨literal.2.2, by rw [String.toList_ofList]; exact isUnbroken_digitsOf _⟩

theorem readHead_head {boundary : String} (hboundary : IsUnbroken boundary.toList) {p : Part}
    (h : ∀ t ∈ p.contentType, IsUnbroken t.toList) (rest : List Char) :
    readHead [] (p.head boundary ++ rest)
      = some (delimiterLine boundary :: p.headLines.map HeaderLine.chars, rest) := by
  rw [head_eq]
  refine readHead_lines (List.forall_mem_cons.mpr ⟨⟨by simp [delimiterLine], ?_⟩, ?_⟩) rest
  · simp [delimiterLine, hboundary.1]
  · intro l hl
    obtain ⟨line, hline, rfl⟩ := List.mem_map.mp hl
    obtain ⟨hname, hvalue⟩ := isUnbroken_headLines.mpr h line hline
    exact ⟨by simp [HeaderLine.chars], by simp [HeaderLine.chars, hname.1, hvalue.1]⟩

/-- **The head of a part is safe exactly when its media type holds no line break.** -/
theorem headSafe_iff {boundary : String} (hboundary : IsUnbroken boundary.toList) (p : Part) :
    p.HeadSafe boundary ↔ ∀ t ∈ p.contentType, IsUnbroken t.toList := by
  constructor
  · exact fun h => isUnbroken_headLines.mp h.unbroken
  · exact fun h => ⟨readHead_head hboundary h, isUnbroken_headLines.mpr h⟩

end Part

end HttpService
