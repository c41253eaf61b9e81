import HttpService.Proofs.Body.Framing

/-!
# Drawn boundaries

Boundaries are drawn until one stands in no part that is in memory (`drawBoundary_eq_some_iff`).
That is all that a boundary of a body without streams has to be: such a body can be read back as
soon as its media types may stand in a header and its payloads are what they say.  The bytes of a
stream are not known when its boundary is drawn, so that they hold no boundary remains to be asked
(`Multipart.writable_iff_of_drawn`).
-/

namespace HttpService

theorem any_windows_iff {sought bytes : Bytes} :
    (windows sought.length bytes).any (· == sought) = true ↔ sought <:+: bytes := by
  simp only [windows, List.any_map, List.any_eq_true, List.mem_range, Function.comp_apply,
    beq_iff_eq]
  constructor
  · rintro ⟨i, -, hfound⟩
    rw [← hfound]
    exact (List.take_prefix _ _).isInfix.trans (List.drop_suffix i bytes).isInfix
  · rintro ⟨before, after, rfl⟩
    refine ⟨before.length, ?_, ?_⟩
    · simp only [List.length_append]
      omega
    · rw [List.append_assoc, List.drop_left, List.take_left]

theorem Payload.holds_eq_true_iff {sought : Bytes} {p : Payload} :
    p.holds sought = true ↔ ∃ content, p = .bytes content ∧ sought <:+: content := by
  cases p with
  | bytes content =>
    rw [holds, any_windows_iff]
    constructor
    · exact fun h => ⟨content, rfl, h⟩
    · rintro ⟨_, heq, h⟩
      cases heq
      exact h
  | stream source => simp [holds]

namespace Multipart

variable {parts : List Part} {draws : List Draw} {d : Draw}

/-- A part in memory holds the boundary that was drawn. -/
def Collides (parts : List Part) (d : Draw) : Prop :=
  ∃ p ∈ parts, ∃ content, p.payload = .bytes content ∧ d.bytes <:+: content

theorem any_holds_iff :
    (parts.any fun p => p.payload.holds d.bytes) = true ↔ Collides parts d := by
  simp only [List.any_eq_true, Payload.holds_eq_true_iff]
  rfl

theorem not_any_holds_iff :
    (!parts.any fun p => p.payload.holds d.bytes) = true ↔ ¬ Collides parts d := by
  rw [Bool.not_eq_true', Bool.eq_false_iff, ne_eq, any_holds_iff]

/-- **The boundary that is kept is the first one without a collision.** -/
theorem drawBoundary_eq_some_iff :
    drawBoundary parts draws = some d ↔
      ¬ Collides parts d ∧ ∃ front back, draws = front ++ d :: back ∧
        ∀ e ∈ front, Collides parts e := by
  rw [drawBoundary, List.find?_eq_some_iff_append, not_any_holds_iff]
  simp only [Bool.not_not, any_holds_iff]

/-- The drawing comes to an end as soon as something without a collision is drawn. -/
theorem exists_drawBoundary_iff :
    (∃ d, drawBoundary parts draws = some d) ↔ ∃ d ∈ draws, ¬ Collides parts d := by
  rw [← Option.isSome_iff_exists, drawBoundary, List.find?_isSome]
  simp only [not_any_holds_iff]

/-- **A drawn boundary leaves nothing to be asked of what is in memory.** -/
theorem writable_iff_of_drawn (subtype : String) (h : drawBoundary parts draws = some d) :
    (⟨subtype, d.text, parts⟩ : Multipart).Writable ↔
      (∀ p ∈ parts, ∀ t ∈ p.contentType, Lexical.checkHeaderValue t = .ok ()) ∧
        (∀ p ∈ parts, p.payload.Faithful) ∧
        ∀ p ∈ parts, ∀ s, p.payload = .stream s → ¬ d.bytes <:+: s.content := by
  have hfree := (drawBoundary_eq_some_iff.mp h).1
  constructor
  · intro hm
    refine ⟨hm.contentTypes, hm.faithful, fun p hp s hs hinfix => hm.apart p hp ?_⟩
    rw [hs]
    exact hinfix
  · rintro ⟨htypes, hfaithful, hstreams⟩
    refine ⟨?_, d.alphanumeric, htypes, hfaithful, fun p hp hinfix => ?_⟩
    · intro hempty
      have hlength := d.length_toList
      rw [show d.text = "" from hempty] at hlength
      cases hlength
    · cases hpayload : p.payload with
      | bytes content =>
        rw [hpayload] at hinfix
        exact hfree ⟨p, hp, content, hpayload, hinfix⟩
      | stream s =>
        rw [hpayload] at hinfix
        exact hstreams p hp s hpayload hinfix

end Multipart

end HttpService
