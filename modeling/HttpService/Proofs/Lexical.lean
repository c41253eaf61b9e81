import HttpService.Lexical
import HttpService.Proofs.Success
import Mathlib.Data.List.DropRight
import Mathlib.Data.List.TakeWhile

/-!
# What the lexical checks accept

A check accepts a text exactly when all its characters are allowed (`firstIllegal_ok_iff`), so what
it says of a whole text is a statement about characters.  The one exception is `checkMediaType`: it
passes over the white space behind a subtype, so what it accepts is a header value exactly when
that white space is (`checkHeaderValue_iff_of_mediaType`).
-/

namespace HttpService.Lexical

theorem firstIllegal_ok_iff {allowed : Char → Bool} {cs : List Char} :
    firstIllegal allowed cs = .ok () ↔ ∀ c ∈ cs, allowed c = true := by
  induction cs with
  | nil => simp [firstIllegal]
  | cons c cs ih => by_cases hc : allowed c = true <;> simp [firstIllegal, hc, ih]

theorem checkTokenChars_ok_iff {cs : List Char} :
    checkTokenChars cs = .ok () ↔ cs ≠ [] ∧ ∀ c ∈ cs, isTokenChar c = true := by
  unfold checkTokenChars
  split
  · next h => simp [List.isEmpty_iff.mp h]
  · next h => simp [firstIllegal_ok_iff, List.isEmpty_iff.not.mp h]

theorem checkToken_ok_iff {s : String} :
    checkToken s = .ok () ↔ s.toList ≠ [] ∧ ∀ c ∈ s.toList, isTokenChar c = true :=
  checkTokenChars_ok_iff

theorem checkHeaderName_ok_iff {s : String} :
    checkHeaderName s = .ok () ↔ s.toList ≠ [] ∧ ∀ c ∈ s.toList, isTokenChar c = true :=
  checkTokenChars_ok_iff

theorem checkHeaderValue_ok_iff {s : String} :
    checkHeaderValue s = .ok () ↔ ∀ c ∈ s.toList, isValueChar c = true :=
  firstIllegal_ok_iff

/-! ## Classes of characters -/

theorem toNat_of_isAlphanum {c : Char} (h : c.isAlphanum = true) :
    48 ≤ c.toNat ∧ c.toNat ≤ 57 ∨ 65 ≤ c.toNat ∧ c.toNat ≤ 90 ∨ 97 ≤ c.toNat ∧ c.toNat ≤ 122 := by
  change ((c.isUpper || c.isLower) || c.isDigit) = true at h
  rw [Bool.or_eq_true, Bool.or_eq_true] at h
  rcases h with (hupper | hlower) | hdigit
  · exact .inr (.inl (of_decide_eq_true hupper))
  · obtain ⟨hlow, hhigh⟩ := Bool.and_eq_true_iff.mp hlower
    exact .inr (.inr ⟨of_decide_eq_true hlow, of_decide_eq_true hhigh⟩)
  · exact .inl (Char.isDigit_iff_toNat.mp hdigit)

theorem isValueChar_of_isTokenChar {c : Char} (h : isTokenChar c = true) :
    isValueChar c = true := by
  have signs : tokenSigns.all isValueChar = true := by decide
  simp only [isTokenChar, Bool.or_eq_true, List.contains_iff_mem] at h
  rcases h with h | h
  · have hvisible : 33 ≤ c.toNat ∧ c.toNat ≤ 126 := by
      have := toNat_of_isAlphanum h
      omega
    simp [isValueChar, hvisible]
  · exact List.all_eq_true.mp signs c h

/-- A line break or a zero character, with which a text could leave its line. -/
def breaksLine (c : Char) : Bool :=
  c == '\r' || c == '\n' || c == '\x00'

theorem not_breaksLine_of_isValueChar {c : Char} (h : isValueChar c = true) :
    breaksLine c = false := by
  rw [Bool.eq_false_iff]
  intro hbreak
  simp only [breaksLine, Bool.or_eq_true, beq_iff_eq] at hbreak
  rcases hbreak with (rfl | rfl) | rfl <;> cases h

theorem not_breaksLine_of_isTokenChar {c : Char} (h : isTokenChar c = true) :
    breaksLine c = false :=
  not_breaksLine_of_isValueChar (isValueChar_of_isTokenChar h)

/-! ## Media types -/

def blanksAfterSubtype (s : String) : List Char :=
  (s.toList.takeWhile (· != ';')).rtakeWhile Text.isBlank

theorem mem_of_mem_blanksAfterSubtype {s : String} {c : Char} (h : c ∈ blanksAfterSubtype s) :
    c ∈ s.toList := by
  exact List.takeWhile_subset _ ((List.rtakeWhile_suffix _ _).subset h)

/-- What is not at the end of a type and a subtype stands in one of them. -/
theorem isValueChar_or_mem_of_checkEssence {kind : List Char} (h : checkEssence kind = .ok ()) :
    ∀ c ∈ kind, isValueChar c = true ∨ c ∈ kind.rtakeWhile Text.isBlank := by
  unfold checkEssence at h
  split at h
  · simp at h
  · next top sub hcut =>
    simp only [bind_ok_iff, mapError_ok_iff] at h
    obtain ⟨⟨⟩, htop, hsub⟩ := h
    have htop := (checkTokenChars_ok_iff.mp htop).2
    have hsub := (checkTokenChars_ok_iff.mp hsub).2
    obtain ⟨⟨slash, hslash, rfl⟩, -⟩ := Text.cut_eq_some hcut
    obtain rfl : slash = '/' := by simpa using hslash
    have hsplit : Text.trimEnd sub ++ sub.rtakeWhile Text.isBlank = sub :=
      List.rdropWhile_append_rtakeWhile
    intro c hc
    rw [← hsplit] at hc
    simp only [List.mem_append, List.mem_cons] at hc
    rcases hc with hc | rfl | hc | hc
    · exact Or.inl (isValueChar_of_isTokenChar (htop c hc))
    · exact Or.inl (by decide)
    · exact Or.inl (isValueChar_of_isTokenChar (hsub c hc))
    · refine Or.inr (List.mem_reverse.mpr ?_)
      rw [List.reverse_append, List.reverse_cons, List.append_assoc, List.takeWhile_append]
      split
      · exact List.mem_append_left _ (List.takeWhile_subset _ (List.mem_reverse.mp hc))
      · exact List.mem_reverse.mp hc

/-- A media type that is accepted holds characters of a header value, and white space behind its
subtype. -/
theorem isValueChar_or_mem_of_mediaType {s : String} (h : checkMediaType s = .ok ()) :
    ∀ c ∈ s.toList, isValueChar c = true ∨ c ∈ blanksAfterSubtype s := by
  unfold checkMediaType at h
  unfold blanksAfterSubtype
  split at h
  · next hcut =>
    have hall : s.toList.takeWhile (· != ';') = s.toList :=
      List.takeWhile_eq_self_iff.mpr (by simpa using Text.cut_eq_none.mp hcut)
    rw [hall]
    exact isValueChar_or_mem_of_checkEssence h
  · next kind parameters hcut =>
    simp only [bind_ok_iff, mapError_ok_iff, firstIllegal_ok_iff] at h
    obtain ⟨⟨⟩, hkind, hparameters⟩ := h
    obtain ⟨⟨semicolon, hsemicolon, hs⟩, hbefore⟩ := Text.cut_eq_some hcut
    obtain rfl : semicolon = ';' := by simpa using hsemicolon
    have hfront : s.toList.takeWhile (· != ';') = kind := by
      rw [hs, List.takeWhile_append_of_pos (by simpa using hbefore)]
      simp
    rw [hfront, hs]
    intro c hc
    rcases List.mem_append.mp hc with hc | hc
    · exact isValueChar_or_mem_of_checkEssence hkind c hc
    · exact Or.inl (hparameters c hc)

/-- **An accepted media type is a header value exactly when the white space behind its subtype
is.** -/
theorem checkHeaderValue_iff_of_mediaType {s : String} (h : checkMediaType s = .ok ()) :
    checkHeaderValue s = .ok () ↔ ∀ c ∈ blanksAfterSubtype s, isValueChar c = true := by
  rw [checkHeaderValue_ok_iff]
  constructor
  · exact fun hs c hc => hs c (mem_of_mem_blanksAfterSubtype hc)
  · intro hb c hc
    rcases isValueChar_or_mem_of_mediaType h c hc with hv | hc
    · exact hv
    · exact hb c hc

end HttpService.Lexical
