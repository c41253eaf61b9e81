import HttpService.Call.Encoding
import HttpService.Proofs.Success

/-!
# Where header lines come from

Each header line of a call comes from one binding.  What a line owes to its binding is written out
(`HeaderBinding.Yields`): the line itself, its name, or nothing; what the binding does not say was
checked in the call.  The lines of a call are taken apart here once (`exists_yields`), and what
holds of its headers is read off the three kinds of binding.
-/

namespace HttpService

namespace HeaderBinding

/-- A header line that a binding may give: the line that is written out, the name that is written
out with a value that was checked, or an entry of which both were checked. -/
inductive Yields : HeaderBinding → HeaderLine → Prop
  | static (name value : String) : Yields (.static name value) ⟨name, value⟩
  | single {name parameter text : String} {iterable : Bool}
      (hvalue : Lexical.checkHeaderValue text = .ok ()) :
      Yields (.single name parameter iterable) ⟨name, text⟩
  | map {name parameter text : String} {kind : TypeExpr.MapKind}
      (hcontent : Lexical.isContentHeader name = false)
      (hname : Lexical.checkHeaderName name = .ok ())
      (hvalue : Lexical.checkHeaderValue text = .ok ()) :
      Yields (.map parameter kind) ⟨name, text⟩

theorem exists_of_line {name parameter : String} {a : Argument} {ls : List HeaderLine}
    (h : line name parameter a = .ok ls) :
    ∀ l ∈ ls, ∃ text, Lexical.checkHeaderValue text = .ok () ∧ l = ⟨name, text⟩ := by
  simp only [line, bind_ok_iff, mapError_ok_iff] at h
  obtain ⟨text, -, h⟩ := h
  intro l hl
  cases text with
  | none =>
    obtain rfl := Except.ok.inj h
    cases hl
  | some text =>
    simp only [bind_ok_iff, mapError_ok_iff, pure_ok_iff] at h
    obtain ⟨⟨⟩, hvalue, rfl⟩ := h
    exact ⟨text, hvalue, List.mem_singleton.mp hl⟩

theorem yields_of_entryLine {parameter : String} {kind : TypeExpr.MapKind} {e : String × Argument}
    {ls : List HeaderLine} (h : entryLine parameter e = .ok ls) :
    ∀ l ∈ ls, (map parameter kind).Yields l := by
  intro l hl
  unfold entryLine at h
  split at h
  · simp at h
  · next hcontent =>
    simp only [bind_ok_iff, mapError_ok_iff] at h
    obtain ⟨⟨⟩, hname, h⟩ := h
    obtain ⟨text, hvalue, rfl⟩ := exists_of_line h l hl
    exact .map (by simpa using hcontent) hname hvalue

theorem yields_of_lines {b : HeaderBinding} {args : Arguments} {ls : List HeaderLine}
    (h : b.lines args = .ok ls) : ∀ l ∈ ls, b.Yields l := by
  intro l hl
  cases b with
  | static name value =>
    obtain rfl := Except.ok.inj h
    obtain rfl := List.mem_singleton.mp hl
    exact .static name value
  | single name parameter iterable =>
    simp only [lines, bind_ok_iff, pure_ok_iff] at h
    obtain ⟨lss, hlss, rfl⟩ := h
    obtain ⟨ls, hls, hl⟩ := List.mem_flatten.mp hl
    obtain ⟨a, -, ha⟩ := exists_of_mem_mapM hlss hls
    obtain ⟨text, hvalue, rfl⟩ := exists_of_line ha l hl
    exact .single hvalue
  | map parameter kind =>
    simp only [lines, bind_ok_iff, pure_ok_iff] at h
    obtain ⟨entries, -, lss, hlss, rfl⟩ := h
    obtain ⟨ls, hls, hl⟩ := List.mem_flatten.mp hl
    obtain ⟨e, -, he⟩ := exists_of_mem_mapM hlss hls
    exact yields_of_entryLine he l hl

end HeaderBinding

/-- **Every header line of a call comes from one of the bindings.** -/
theorem exists_yields {bindings : List HeaderBinding} {args : Arguments} {ls : List HeaderLine}
    (h : headerLines bindings args = .ok ls) : ∀ l ∈ ls, ∃ b ∈ bindings, b.Yields l := by
  simp only [headerLines, bind_ok_iff, pure_ok_iff] at h
  obtain ⟨lss, hlss, rfl⟩ := h
  intro l hl
  obtain ⟨ls, hls, hl⟩ := List.mem_flatten.mp hl
  obtain ⟨b, hb, hlines⟩ := exists_of_mem_mapM hlss hls
  exact ⟨b, hb, HeaderBinding.yields_of_lines hlines l hl⟩

end HttpService
