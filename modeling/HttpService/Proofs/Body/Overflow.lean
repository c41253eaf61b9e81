import HttpService.Proofs.Body.Length
import Mathlib.Algebra.GroupWithZero.Nat
import Mathlib.Data.List.TakeWhile

/-!
# Lengths beyond 64 bits

The length of a multipart body is summed up in 64 bits, while a source may declare any length of
64 bits.  `Multipart.total` is the same sum in natural numbers: every head, every declared length,
every line break and the closing delimiter.  The running sum is the exact one after every part
exactly when all parts up to the first without a length stay below 2^64 together
(`length?_exact_iff`); beyond that the length that is declared is the remainder, and a single
source can bring it there (`length?_wraps`).
-/

namespace HttpService

/-- The bytes of a part: its head, what it declares for its payload, and the line break. -/
def Part.extent (boundary : String) (p : Part) : Nat :=
  Utf8.size (p.head boundary) + p.payload.declared.getD 0 + Utf8.size crlf

namespace Multipart

/-- The bytes of a body, as far as they are declared: the closing delimiter and all parts. -/
def total (m : Multipart) : Nat :=
  Utf8.size (closing m.boundary) + (m.parts.map (Part.extent m.boundary)).sum

def withParts (m : Multipart) (parts : List Part) : Multipart :=
  { m with parts }

/-- The parts in front of the first one without a length. -/
def measured (m : Multipart) : List Part :=
  m.parts.takeWhile fun p => p.payload.declared.isSome

/-! ## Sums of parts -/

theorem partsDeclared_eq_some_iff {boundary : String} {parts : List Part} {n : Nat} :
    partsDeclared boundary parts = some n ↔
      (∀ p ∈ parts, p.payload.declared.isSome) ∧ n = (parts.map (Part.extent boundary)).sum := by
  induction parts generalizing n with
  | nil => simp only [partsDeclared, Option.some.injEq, List.not_mem_nil, false_implies,
      implies_true, true_and, List.map_nil, List.sum_nil, eq_comm]
  | cons p rest ih =>
    rw [partsDeclared, List.forall_mem_cons, List.map_cons, List.sum_cons, Part.extent]
    cases hp : p.payload.declared with
    | none => simp
    | some k =>
      simp only [Option.bind_eq_bind, Option.bind_some, Option.bind_eq_some_iff, ih,
        Option.isSome_some, Option.getD_some, true_and]
      constructor
      · rintro ⟨more, ⟨hrest, rfl⟩, hn⟩
        exact ⟨hrest, (Option.some.inj hn).symm⟩
      · rintro ⟨hrest, rfl⟩
        exact ⟨_, ⟨hrest, rfl⟩, rfl⟩

/-- The values of an option that has only one to give, under a function. -/
theorem map_eq_some_iff_of_unique {α β : Type} {x : Option α} {known : Prop} {a : α} {f : α → β}
    {b : β} (h : ∀ c, x = some c ↔ known ∧ c = a) : x.map f = some b ↔ known ∧ b = f a := by
  rw [Option.map_eq_some_iff]
  constructor
  · rintro ⟨c, hc, rfl⟩
    obtain ⟨hknown, rfl⟩ := (h c).mp hc
    exact ⟨hknown, rfl⟩
  · rintro ⟨hknown, rfl⟩
    exact ⟨a, (h a).mpr ⟨hknown, rfl⟩, rfl⟩

theorem declared_eq_some_iff {m : Multipart} {n : Nat} :
    m.declared = some n ↔ (∀ p ∈ m.parts, p.payload.declared.isSome) ∧ n = m.total :=
  map_eq_some_iff_of_unique fun _ => partsDeclared_eq_some_iff

theorem length?_eq_map_declared (m : Multipart) : m.length? = m.declared.map UInt64.ofNat :=
  RequestBody.length?_eq (.multipart m)

/-- **What is declared is the total without its part above 64 bits.** -/
theorem length?_eq_some_iff {m : Multipart} {n : UInt64} :
    m.length? = some n ↔
      (∀ p ∈ m.parts, p.payload.declared.isSome) ∧ n = UInt64.ofNat m.total := by
  rw [length?_eq_map_declared]
  exact map_eq_some_iff_of_unique fun _ => declared_eq_some_iff

theorem length?_eq_none_iff {m : Multipart} :
    m.length? = none ↔ ∃ p ∈ m.parts, p.payload.length? = none := by
  simp only [length?_eq_map_declared, declared, Option.map_eq_none_iff,
    partsDeclared_eq_none_iff, Payload.length?_eq]

theorem total_le_of_prefix {m : Multipart} {front parts : List Part} (h : front <+: parts) :
    (m.withParts front).total ≤ (m.withParts parts).total := by
  obtain ⟨back, rfl⟩ := h
  show (m.withParts front).total ≤
    Utf8.size (closing m.boundary) + ((front ++ back).map (Part.extent m.boundary)).sum
  rw [List.map_append, List.sum_append]
  exact Nat.add_le_add_left (Nat.le_add_right _ _) _

theorem toNat_ofNat_eq_iff {n : Nat} : (UInt64.ofNat n).toNat = n ↔ n < UInt64.size := by
  constructor
  · intro h
    rw [← h]
    exact UInt64.toNat_lt_size _
  · exact UInt64.toNat_ofNat_of_lt'

/-! ## The running sum -/

/-- A front of the parts has a length exactly when it ends before the first part without one. -/
theorem prefix_measured_iff {m : Multipart} {front : List Part} (h : front <+: m.parts) :
    (∀ p ∈ front, p.payload.declared.isSome) ↔ front <+: m.measured := by
  constructor
  · intro hfront
    obtain ⟨back, hback⟩ := h
    rw [measured, ← hback, List.takeWhile_append_of_pos hfront]
    exact List.prefix_append front _
  · intro hmeasured p hp
    have hmem : p ∈ m.parts.takeWhile fun p => p.payload.declared.isSome := hmeasured.subset hp
    exact (List.mem_takeWhile_imp hmem :)

/-- **The length of a multipart body is its total exactly when that is below 2^64.**  The same
decides whether the sum is exact after each of the parts: the last sum is the largest. -/
theorem length?_exact_iff (m : Multipart) :
    (m.length? = none ↔ ∃ p ∈ m.parts, p.payload.length? = none) ∧
      (∀ n, m.length? = some n →
        n.toNat = m.total % UInt64.size ∧ (n.toNat = m.total ↔ m.total < UInt64.size)) ∧
      ((∀ front, front <+: m.parts → ∀ sum, (m.withParts front).length? = some sum →
          sum.toNat = (m.withParts front).total) ↔
        (m.withParts m.measured).total < UInt64.size) := by
  refine ⟨length?_eq_none_iff, ?_, ?_, ?_⟩
  · intro n hn
    obtain rfl := (length?_eq_some_iff.mp hn).2
    exact ⟨UInt64.toNat_ofNat', toNat_ofNat_eq_iff⟩
  · intro hexact
    have hfront : m.measured <+: m.parts := List.takeWhile_prefix _
    have hknown := (prefix_measured_iff hfront).mpr List.prefix_rfl
    exact toNat_ofNat_eq_iff.mp (hexact _ hfront _ (length?_eq_some_iff.mpr ⟨hknown, rfl⟩))
  · intro hsmall front hfront sum hsum
    obtain ⟨hknown, rfl⟩ := length?_eq_some_iff.mp hsum
    have hle := total_le_of_prefix (m := m) ((prefix_measured_iff hfront).mp hknown)
    exact toNat_ofNat_eq_iff.mpr (by omega)

/-- A source with the largest length that leaves room for the rest of its body. -/
theorem length?_exact_iff_largest :
    let m : Multipart := ⟨"form-data", "b",
      [⟨some "file", none, .stream ⟨[Utf8.encode "abc".toList], none, some 18446744073709551516⟩⟩]⟩
    m.length? = some 18446744073709551615 ∧ m.total = 18446744073709551615 ∧
      ∀ front, front <+: m.parts → ∀ sum, (m.withParts front).length? = some sum →
        sum.toNat = (m.withParts front).total := by
  intro m
  have hlength : m.length? = some 18446744073709551615 := by decide +kernel
  have hsmall : m.total < UInt64.size := by decide +kernel
  have hmeasured : (m.withParts m.measured).total < UInt64.size := by decide +kernel
  obtain ⟨-, hsome, hsums⟩ := length?_exact_iff m
  exact ⟨hlength, ((hsome _ hlength).2.mpr hsmall).symm, hsums.mpr hmeasured⟩

/-- A source with the largest length there is: the body declares 98 bytes and not 2^64 + 98. -/
theorem length?_wraps :
    let m : Multipart := ⟨"form-data", "b",
      [⟨some "file", none, .stream ⟨[Utf8.encode "abc".toList], none, some 18446744073709551615⟩⟩]⟩
    m.length? = some 98 ∧ m.total = 18446744073709551616 + 98 ∧
      ¬ (m.length? = none ∨ ∃ n, m.length? = some n ∧ n.toNat = m.total) := by
  intro m
  have hlength : m.length? = some 98 := by decide +kernel
  have htotal : m.total = 18446744073709551616 + 98 := by decide +kernel
  refine ⟨hlength, htotal, ?_⟩
  rw [hlength, htotal]
  rintro (hnone | ⟨n, hn, hexact⟩)
  · cases hnone
  · obtain rfl := Option.some.inj hn
    exact absurd hexact (by decide)

end Multipart

end HttpService
