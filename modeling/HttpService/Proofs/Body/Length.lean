import HttpService.Body.RequestBody
import HttpService.Proofs.Body.Copying
import HttpService.Proofs.Text.Percent
import Mathlib.Data.List.Forall2

/-!
# Declared lengths

A body that declares its length writes exactly that many bytes, or fails before it wrote more.
The length is counted in 64 bits from the lengths that are declared inside; `declared` is the same
count in natural numbers, and `length?` is what is left of it in 64 bits (`length?_eq`).  On the
other side, what one output after another writes adds up (`Written.Exact.append`), so `declared`
is what a write keeps to (`exact_write`).  `length?_exact` puts both together.

A source may yield something else every time it is opened; only its declared length stays.
-/

namespace HttpService

/-- What was written keeps to a length: it is not longer, and not shorter unless a fault ended
it. -/
structure Written.Exact (w : Written) (n : Nat) : Prop where
  le : w.bytes.length ≤ n
  eq : w.fault = none → w.bytes.length = n

namespace Written

theorem exact_pure (bytes : Bytes) : (pure bytes).Exact bytes.length :=
  ⟨Nat.le_refl _, fun _ => rfl⟩

/-- Lengths of outputs one after another add up. -/
theorem Exact.append {a b : Written} {m n : Nat} (ha : a.Exact m) (hb : b.Exact n) :
    (a ++ b).Exact (m + n) := by
  show (Written.append a b).Exact (m + n)
  unfold Written.append
  have hle := ha.le
  split
  · next e he => exact ⟨by omega, fun hnone => by rw [he] at hnone; cases hnone⟩
  · next hnone =>
    have hlen := ha.eq hnone
    have hb' := hb.le
    refine ⟨?_, fun hfault => ?_⟩
    · simp only [List.length_append]
      omega
    · have := hb.eq hfault
      simp only [List.length_append]
      omega

end Written

theorem ByteSource.exact_copy {s : ByteSource} {declared : UInt64} (h : s.length = some declared) :
    s.copy.toWritten.Exact declared.toNat where
  le := by
    show s.copy.written.length ≤ _
    rw [written_copy h]
    exact List.length_take_le _ _
  eq hfault := by
    unfold Copy.toWritten at hfault
    split at hfault
    · next n hok => exact length_copy_of_ok h hok
    · cases hfault

/-! ## The declared length in natural numbers -/

def Payload.declared : Payload → Option Nat
  | .bytes content => some content.length
  | .stream source => source.length.map UInt64.toNat

/-- The length of some parts without the closing delimiter, if each is known. -/
def Multipart.partsDeclared (boundary : String) : List Part → Option Nat
  | [] => some 0
  | p :: rest => do
    let n ← p.payload.declared
    let more ← partsDeclared boundary rest
    return Utf8.size (p.head boundary) + n + 2 + more

def Multipart.declared (m : Multipart) : Option Nat :=
  (partsDeclared m.boundary m.parts).map (Utf8.size (closing m.boundary) + ·)

def RequestBody.declared : RequestBody → Option Nat
  | .single _ payload => payload.declared
  | .multipart content => content.declared

theorem Payload.length?_eq (p : Payload) : p.length? = p.declared.map UInt64.ofNat := by
  cases p with
  | bytes content => rfl
  | stream source => cases h : source.length <;> simp [length?, declared, h]

theorem Multipart.lengthFrom_eq (boundary : String) (parts : List Part) (sum : Nat) :
    lengthFrom boundary (UInt64.ofNat sum) parts
      = (partsDeclared boundary parts).map fun n => UInt64.ofNat (sum + n) := by
  induction parts generalizing sum with
  | nil => rfl
  | cons p rest ih =>
    rw [lengthFrom, partsDeclared, Payload.length?_eq]
    cases hp : p.payload.declared with
    | none => rfl
    | some n =>
      have hsum : UInt64.ofNat sum + UInt64.ofNat (Utf8.size (p.head boundary)) + UInt64.ofNat n + 2
          = UInt64.ofNat (sum + Utf8.size (p.head boundary) + n + 2) := by
        simp [UInt64.ofNat_add]
      simp only [Option.map_some]
      rw [hsum, ih]
      cases hrest : partsDeclared boundary rest with
      | none => rfl
      | some more => simp [Nat.add_assoc]

/-- **The length of a body is its length in natural numbers, counted in 64 bits.** -/
theorem RequestBody.length?_eq (body : RequestBody) :
    body.length? = body.declared.map UInt64.ofNat := by
  cases body with
  | single contentType payload => exact payload.length?_eq
  | multipart content =>
    show Multipart.lengthFrom _ _ _ = _
    rw [Multipart.lengthFrom_eq]
    simp [declared, Multipart.declared, Option.map_map, Function.comp_def]

/-! ## What is written -/

theorem Payload.exact_write {p : Payload} {n : Nat} (h : p.declared = some n) :
    p.write.Exact n := by
  cases p with
  | bytes content =>
    obtain rfl := Option.some.inj h
    exact Written.exact_pure content
  | stream source =>
    obtain ⟨declared, hlength, rfl⟩ := Option.map_eq_some_iff.mp h
    exact ByteSource.exact_copy hlength

namespace Multipart

theorem exact_encode (cs : List Char) : (Written.pure (Utf8.encode cs)).Exact (Utf8.size cs) := by
  rw [← Utf8.length_encode]
  exact Written.exact_pure _

theorem exact_writePart {boundary : String} {p : Part} {n : Nat} (h : p.payload.declared = some n) :
    (writePart boundary p).Exact (Utf8.size (p.head boundary) + n + 2) :=
  ((exact_encode _).append (Payload.exact_write h)).append (exact_encode crlf)

theorem exact_writeParts {boundary : String} {parts : List Part} {n : Nat}
    (h : partsDeclared boundary parts = some n) :
    (writeParts boundary parts).Exact (Utf8.size (closing boundary) + n) := by
  induction parts generalizing n with
  | nil =>
    obtain rfl := Option.some.inj h
    exact exact_encode _
  | cons p rest ih =>
    simp only [partsDeclared, Option.bind_eq_bind, Option.bind_eq_some_iff, Option.pure_def,
      Option.some.injEq] at h
    obtain ⟨m, hm, more, hmore, rfl⟩ := h
    have hpart : (writePart boundary p).Exact (Utf8.size (p.head boundary) + m + 2) :=
      exact_writePart hm
    have hall := hpart.append (ih hmore)
    rw [Nat.add_left_comm] at hall
    exact hall

end Multipart

/-- **A write keeps to the declared length.** -/
theorem RequestBody.exact_write {body : RequestBody} {n : Nat} (h : body.declared = some n) :
    body.write.Exact n := by
  cases body with
  | single contentType payload => exact Payload.exact_write h
  | multipart content =>
    obtain ⟨k, hk, rfl⟩ := Option.map_eq_some_iff.mp h
    exact Multipart.exact_writeParts hk

/-! ## Opening the sources again -/

def Payload.source? : Payload → Option ByteSource
  | .bytes _ => none
  | .stream source => some source

def RequestBody.sources : RequestBody → List ByteSource
  | .single _ payload => payload.source?.toList
  | .multipart content => content.parts.filterMap fun p => p.payload.source?

/-- A payload as a second write finds it: a source may yield other bytes, and end otherwise, but
its declared length stays. -/
def Payload.Reopens : Payload → Payload → Prop
  | .bytes content, opened => opened = .bytes content
  | .stream source, opened => ∃ other, opened = .stream other ∧ other.length = source.length

structure Part.Reopens (p opened : Part) : Prop where
  name : opened.name = p.name
  contentType : opened.contentType = p.contentType
  payload : p.payload.Reopens opened.payload

def RequestBody.Reopens : RequestBody → RequestBody → Prop
  | .single contentType payload, opened =>
    ∃ other, opened = .single contentType other ∧ payload.Reopens other
  | .multipart content, opened =>
    ∃ parts, opened = .multipart { content with parts } ∧
      List.Forall₂ Part.Reopens content.parts parts

theorem Payload.reopens_refl (p : Payload) : p.Reopens p := by
  cases p with
  | bytes content => rfl
  | stream source => exact ⟨source, rfl, rfl⟩

theorem RequestBody.reopens_refl (body : RequestBody) : body.Reopens body := by
  cases body with
  | single contentType payload => exact ⟨payload, rfl, payload.reopens_refl⟩
  | multipart content =>
    refine ⟨content.parts, rfl, ?_⟩
    exact List.forall₂_same.mpr fun p _ => ⟨rfl, rfl, p.payload.reopens_refl⟩

theorem Payload.Reopens.declared_eq {p opened : Payload} (h : p.Reopens opened) :
    opened.declared = p.declared := by
  cases p with
  | bytes content =>
    obtain rfl := h
    rfl
  | stream source =>
    obtain ⟨other, rfl, hlength⟩ := h
    simp only [declared, hlength]

theorem Part.Reopens.head_eq {p opened : Part} (h : p.Reopens opened) (boundary : String) :
    opened.head boundary = p.head boundary := by
  have hlength : opened.payload.length? = p.payload.length? := by
    rw [Payload.length?_eq, Payload.length?_eq, h.payload.declared_eq]
  unfold head lengthLine typeLine dispositionLine
  rw [h.name, h.contentType, hlength]

theorem Multipart.partsDeclared_eq {boundary : String} {parts opened : List Part}
    (h : List.Forall₂ Part.Reopens parts opened) :
    partsDeclared boundary opened = partsDeclared boundary parts := by
  induction h with
  | nil => rfl
  | cons hp _ ih => rw [partsDeclared, partsDeclared, ih, hp.payload.declared_eq, hp.head_eq]

theorem RequestBody.Reopens.declared_eq {body opened : RequestBody} (h : body.Reopens opened) :
    opened.declared = body.declared := by
  cases body with
  | single contentType payload =>
    obtain ⟨other, rfl, hpayload⟩ := h
    exact hpayload.declared_eq
  | multipart content =>
    obtain ⟨parts, rfl, hparts⟩ := h
    simp only [declared, Multipart.declared, Multipart.partsDeclared_eq hparts]

/-! ## Declared and written -/

theorem Payload.declared_eq_none_iff {p : Payload} :
    p.declared = none ↔ ∃ s ∈ p.source?, s.length = none := by
  cases p <;> simp [declared, source?]

theorem Multipart.partsDeclared_eq_none_iff {boundary : String} {parts : List Part} :
    partsDeclared boundary parts = none ↔ ∃ p ∈ parts, p.payload.declared = none := by
  induction parts with
  | nil => simp [partsDeclared]
  | cons p rest ih =>
    rw [List.exists_mem_cons_iff, ← ih, partsDeclared]
    cases p.payload.declared <;> cases partsDeclared boundary rest <;> simp

theorem RequestBody.declared_eq_none_iff {body : RequestBody} :
    body.declared = none ↔ ∃ s ∈ body.sources, s.length = none := by
  cases body with
  | single contentType payload => simp [declared, sources, Payload.declared_eq_none_iff]
  | multipart content =>
    simp only [declared, Multipart.declared, Option.map_eq_none_iff,
      Multipart.partsDeclared_eq_none_iff, Payload.declared_eq_none_iff, sources,
      List.mem_filterMap]
    constructor
    · rintro ⟨p, hp, s, hs, hnone⟩
      exact ⟨s, ⟨p, hp, hs⟩, hnone⟩
    · rintro ⟨s, ⟨p, hp, hs⟩, hnone⟩
      exact ⟨p, hp, s, hs, hnone⟩

/-- **Every write keeps to the length that a body declares**, as long as that fits into 64 bits:
it is the number of bytes of a write that succeeds, and a bound on those of one that fails.  No
length is declared only when some source has none. -/
theorem RequestBody.length?_exact {body : RequestBody}
    (hsmall : ∀ total ∈ body.declared, total < UInt64.size) :
    (body.length? = none ↔ ∃ s ∈ body.sources, s.length = none) ∧
      ∀ n, body.length? = some n → ∀ opened, body.Reopens opened →
        (opened.write.fault = none → opened.write.bytes.length = n.toNat) ∧
          (opened.write.fault ≠ none → opened.write.bytes.length ≤ n.toNat) := by
  constructor
  · rw [length?_eq, Option.map_eq_none_iff, declared_eq_none_iff]
  · intro n hn opened hopened
    rw [length?_eq] at hn
    obtain ⟨total, htotal, rfl⟩ := Option.map_eq_some_iff.mp hn
    have hexact := exact_write (hopened.declared_eq.trans htotal)
    rw [UInt64.toNat_ofNat_of_lt' (hsmall total htotal)]
    exact ⟨hexact.eq, fun _ => hexact.le⟩

/-- A part whose source ends two bytes before its declared length, and yields all of them when it
is opened again. -/
theorem RequestBody.length?_exact_endedEarly :
    let file (chunks : Chunks) : Part := ⟨none, none, .stream ⟨chunks, none, some 5⟩⟩
    let form (chunks : Chunks) := RequestBody.multipart ⟨"form-data", "b",
      [⟨some "a", none, .bytes [1, 2]⟩, file chunks]⟩
    let body := form ⟨[[1], [2, 3]], by decide⟩
    let opened := form ⟨[[1], [2, 3], [4, 5]], by decide⟩
    body.length? = some 144 ∧ body.Reopens opened ∧
      (body.write.fault ≠ none ∧ body.write.bytes.length ≤ 144) ∧
      (opened.write.fault = none ∧ opened.write.bytes.length = 144) := by
  intro file form body opened
  have hlength : body.length? = some 144 := by decide +kernel
  have hfault : body.write.fault ≠ none := by decide +kernel
  have hnone : opened.write.fault = none := by decide +kernel
  have hsmall : ∀ total ∈ body.declared, total < UInt64.size := by decide +kernel
  have hopened : body.Reopens opened :=
    ⟨_, rfl, .cons ⟨rfl, rfl, rfl⟩ (.cons ⟨rfl, rfl, _, rfl, rfl⟩ .nil)⟩
  have hwrites := (length?_exact hsmall).2 144 hlength
  exact ⟨hlength, hopened, ⟨hfault, (hwrites body body.reopens_refl).2 hfault⟩, hnone,
    (hwrites opened hopened).1 hnone⟩

end HttpService
