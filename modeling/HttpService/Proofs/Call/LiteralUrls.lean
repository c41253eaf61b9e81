import HttpService.Proofs.Call.Confinement
import HttpService.Proofs.Template.Substitution
import HttpService.Proofs.Url.DecodedSegments

/-!
# A URL as an argument and as a template

The same text may be a template without path parameters or an argument that is the URL.  Both are
taken apart and joined with the base in the same way: the template is completed without values,
which leaves even its braces as they are (`Template.substitute_none`).  What differs is the test for
traversal segments, and the one of the argument is the stricter
(`Template.traversalSegment?_eq_none`).  So the argument is resolved as the template is, unless its
test refuses it (`resolve_dynamic_eq`).
-/

namespace HttpService

namespace Resolution

variable {base : BaseUrl} {args : Arguments} {text parameter : String}

theorem template_nil [DomainNames] (kind : Template.Kind) :
    template base text kind [] args
      = (rejectTraversal (Template.split text.toList).path "the URL template" >>= fun _ =>
          join base kind (Template.split text.toList)) := by
  have hcompleted : Template.substitute (fun name => ([] : List (String × List Char)).lookup name)
      (Template.split text.toList).path = (Template.split text.toList).path :=
    Template.substitute_none _
  simp only [template, pathValues, ok_bind, hcompleted]

theorem dynamic_of_string [DomainNames] (h : args.value parameter = .string text) :
    dynamic base parameter args
      = (rejectValueTraversal (Template.split text.toList).path parameter >>= fun _ =>
          join base (Template.classify text) (Template.split text.toList)) := by
  simp only [dynamic, h, urlText, Except.mapError, ok_bind]

end Resolution

/-- **An argument is resolved as the template with its text**, unless the decoded path has a
traversal segment. -/
theorem resolve_dynamic_eq [DomainNames] {base : BaseUrl} {args : Arguments}
    {parameter text : String}
    (h : args.value parameter = .string text) (queries : List ValueBinding) :
    (UrlSource.dynamic parameter queries).resolve base args =
      match Template.valueTraversalSegment? (Template.split text.toList).path with
      | some segment => .error (.traversal ⟨String.ofList segment, "parameter " ++ parameter⟩)
      | none =>
        (UrlSource.template text (Template.classify text) [] queries).resolve base args := by
  simp only [UrlSource.resolve, Resolution.dynamic_of_string h, Resolution.template_nil,
    Resolution.rejectValueTraversal, Resolution.rejectTraversal, UrlSource.queries]
  cases hvalue : Template.valueTraversalSegment? (Template.split text.toList).path with
  | some segment => rfl
  | none =>
    rw [Template.traversalSegment?_eq_none hvalue]

/-- **A URL resolves alike as an argument and as a template.**  What the argument resolves to, the
template with its text resolves to as well.  Where they differ, the argument is refused as a
traversal, which only a dot segment of its decoded path can bring about; every other fault of one of
them is the fault of the other or meets such a refusal. -/
theorem resolve_alike [DomainNames] {base : BaseUrl} {args : Arguments} {parameter text : String}
    (h : args.value parameter = .string text) (queries : List ValueBinding) :
    let dynamic := (UrlSource.dynamic parameter queries).resolve base args
    let template :=
      (UrlSource.template text (Template.classify text) [] queries).resolve base args
    let refused (r : Except ResolutionFault Url) : Prop := ∃ t, r = .error (.traversal t)
    (∀ url, dynamic = .ok url → template = .ok url) ∧
      (∀ url, template = .ok url → dynamic = .ok url ∨ refused dynamic) ∧
      (∀ fault, dynamic = .error fault → ¬ refused dynamic →
        template = .error fault ∨ refused template) ∧
      (∀ fault, template = .error fault → ¬ refused template →
        dynamic = .error fault ∨ refused dynamic) ∧
      (Template.valueTraversalSegment? (Template.split text.toList).path = none →
        dynamic = template) := by
  intro dynamic template refused
  have hdynamic : dynamic = _ := resolve_dynamic_eq h queries
  have hequal : Template.valueTraversalSegment? (Template.split text.toList).path = none →
      dynamic = template := by
    intro hnone
    rw [hnone] at hdynamic
    exact hdynamic
  have hcases : refused dynamic ∨ dynamic = template := by
    cases hvalue : Template.valueTraversalSegment? (Template.split text.toList).path with
    | some segment =>
      rw [hvalue] at hdynamic
      exact .inl ⟨_, hdynamic⟩
    | none => exact .inr (hequal hvalue)
  rcases hcases with hrefused | heq
  · refine ⟨fun url hok => ?_, fun _ _ => .inr hrefused, fun _ _ hnot => absurd hrefused hnot,
      fun _ _ _ => .inr hrefused, hequal⟩
    obtain ⟨t, ht⟩ := hrefused
    cases hok.symm.trans ht
  · rw [heq]
    exact ⟨fun _ hok => hok, fun _ hok => .inl hok, fun _ hfault _ => .inl hfault,
      fun _ hfault _ => .inl hfault, fun _ => rfl⟩

/-- A text with a brace, a query with another one, a half escape and a dot segment of three dots;
and a dot segment behind an escaped slash, which only the argument is refused for. -/
theorem resolve_alike_braces :
    ∃ base url url', BaseUrl.parse "https://h/b/" = .ok base ∧
      (UrlSource.dynamic "u" [⟨none, "q", .single⟩]).resolve base
        (.ofList [("u", .string "\x7ba\x7d/%4.../\x7b?x=\x7ba\x7d#f"), ("q", .int 7)]) = .ok url ∧
      (UrlSource.template "\x7ba\x7d/%4.../\x7b?x=\x7ba\x7d#f" .relative []
        [⟨none, "q", .single⟩]).resolve base
        (.ofList [("u", .string "\x7ba\x7d/%4.../\x7b?x=\x7ba\x7d#f"), ("q", .int 7)]) = .ok url ∧
      (UrlSource.template "a/..%2Fc" .relative [] []).resolve base
        (.ofList [("u", .string "a/..%2Fc")]) = .ok url' ∧
      ∃ t, (UrlSource.dynamic "u" []).resolve base (.ofList [("u", .string "a/..%2Fc")])
        = .error (.traversal t) := by
  let u : Url := ⟨⟨⟨[], none⟩, .domain ['h'], none⟩, .https, [['b'], []], none, none⟩
  let base : BaseUrl := ⟨u, rfl, rfl, rfl⟩
  let url : Url := { u with
    path := [['b'], "%7Ba%7D".toList, "%4...".toList, "%7B".toList]
    query := some "x=\x7ba\x7d&q=7".toList
    fragment := some ['f'] }
  let url' : Url := { u with path := [['b'], ['a'], "..%2Fc".toList] }
  have hbase : BaseUrl.parse "https://h/b/" = .ok base :=
    BaseUrl.parse_eq_ok_iff.mpr (by decide +kernel)
  have hdynamic : (UrlSource.dynamic "u" [⟨none, "q", .single⟩]).resolve base
      (.ofList [("u", .string "\x7ba\x7d/%4.../\x7b?x=\x7ba\x7d#f"), ("q", .int 7)]) = .ok url := by
    decide +kernel
  have htemplate : (UrlSource.template "a/..%2Fc" .relative [] []).resolve base
      (.ofList [("u", .string "a/..%2Fc")]) = .ok url' := by decide +kernel
  have hdiffer : (UrlSource.dynamic "u" []).resolve base (.ofList [("u", .string "a/..%2Fc")])
      ≠ .ok url' := by decide +kernel
  refine ⟨base, url, url', hbase, hdynamic, (resolve_alike rfl _).1 url hdynamic, htemplate, ?_⟩
  exact ((resolve_alike rfl _).2.1 url' htemplate).resolve_left hdiffer

end HttpService
