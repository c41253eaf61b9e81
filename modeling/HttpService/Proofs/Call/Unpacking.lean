import HttpService.Call.Encoding
import HttpService.Proofs.Argument.Faults

/-!
# One way to unpack an argument

Queries and forms, multipart contents and headers each take the values out of an argument and give
every value a name.  Each does so on its own, with other faults and other texts in between, but what
goes out has the same names in the same order: those of the values that are there, as the mode of
the binding parts the argument (`Argument.sentNames`).  Bindings do not meet: many of them give what
each gives, one after another (`unpacked_alike`).
-/

namespace HttpService

namespace Argument

/-- A name for a value that is there. -/
def sentOnce (name : String) (a : Argument) : List String :=
  if a.isNull then [] else [name]

/-- A name for each element that is there; what is no list is its own element. -/
def sentEach (name : String) : Argument → List String
  | list items => items.flatMap (sentOnce name)
  | a => sentOnce name a

/-- The name that a pair brings for its value. -/
def sentPair : Argument → List String
  | list [string name, a] => sentOnce name a
  | _ => []

/-- The names under which the values of an argument go out.  The entries of a map bring names of
their own, and in a map of many values each element of an entry counts. -/
def sentNames (name : String) : ValueMode → Argument → List String
  | .single, a => a.sentOnce name
  | .iterable, a => a.sentEach name
  | .map .multiValue, map entries => entries.flatMap fun e => e.2.sentEach e.1
  | .map _, map entries => entries.flatMap fun e => e.2.sentOnce e.1
  | .map .pairList, list pairs => pairs.flatMap sentPair
  | .map _, _ => []

theorem flatMap_sentOnce_elements (name : String) (a : Argument) :
    a.elements.flatMap (sentOnce name) = a.sentEach name := by
  cases a with
  | null => rfl
  | list items => rfl
  | _ => exact List.flatMap_singleton (sentOnce name) _

theorem sentOnce_of_entry {parameter : String} {pair : Argument} {e : String × Argument}
    (h : pair.entry parameter = .ok e) : e.2.sentOnce e.1 = pair.sentPair := by
  unfold entry at h
  split at h
  · obtain rfl := Except.ok.inj h
    rfl
  · cases h

/-- The entries of an argument bring the names of its values. -/
theorem sentNames_of_entries {kind : TypeExpr.MapKind} {parameter : String} {a : Argument}
    {es : List (String × Argument)} (h : a.entries kind parameter = .ok es) (name : String) :
    es.flatMap (fun e => e.2.sentOnce e.1) = a.sentNames name (.map kind) := by
  unfold entries at h
  split at h
  · obtain rfl := Except.ok.inj h
    cases kind <;> rfl
  · obtain rfl := Except.ok.inj h
    rfl
  · obtain rfl := Except.ok.inj h
    rfl
  · next pairs =>
    show _ = pairs.flatMap sentPair
    induction mapM_ok_iff.mp h with
    | nil => rfl
    | cons hpair hpairs ih =>
      rw [List.flatMap_cons, List.flatMap_cons, sentOnce_of_entry hpair,
        ih (mapM_ok_iff.mpr hpairs)]
  · next entries =>
    obtain rfl := Except.ok.inj h
    show _ = entries.flatMap fun e => e.2.sentEach e.1
    rw [List.flatMap_assoc]
    simp only [List.flatMap_map, flatMap_sentOnce_elements]
  · cases h
  · cases h

theorem sentNames_of_unpack {name parameter : String} {mode : ValueMode} {a : Argument}
    {values : List (String × Argument)} (h : unpack name parameter mode a = .ok values) :
    values.flatMap (fun e => e.2.sentOnce e.1) = a.sentNames name mode := by
  cases mode with
  | single =>
    obtain rfl := Except.ok.inj h
    exact List.flatMap_singleton _ _
  | iterable =>
    obtain rfl := Except.ok.inj h
    rw [List.flatMap_map]
    exact flatMap_sentOnce_elements name a
  | map kind => exact sentNames_of_entries h name

end Argument

/-! ## Queries and forms -/

theorem Argument.sentOnce_of_toText {name parameter : String} {a : Argument} {text : Option String}
    (h : a.toText parameter = .ok text) :
    text.toList.map (fun _ => name) = a.sentOnce name := by
  cases text with
  | none =>
    obtain rfl := eq_null_of_toText h
    rfl
  | some text =>
    cases a with
    | null => cases h
    | _ => rfl

theorem map_fst_textPairs {parameter : String} {values : List (String × Argument)}
    {pairs : List (String × String)} (h : textPairs parameter values = .ok pairs) :
    pairs.map Prod.fst = values.flatMap fun e => e.2.sentOnce e.1 := by
  induction values generalizing pairs with
  | nil =>
    obtain rfl := Except.ok.inj h
    rfl
  | cons e values ih =>
    simp only [textPairs, bind_ok_iff, pure_ok_iff] at h
    obtain ⟨text, htext, rest, hrest, rfl⟩ := h
    rw [List.map_append, List.map_map, List.flatMap_cons, ih hrest]
    exact congrArg (· ++ _) (Argument.sentOnce_of_toText htext)

theorem ValueBinding.map_fst_pairs {b : ValueBinding} {args : Arguments}
    {ps : List (String × String)} (h : b.pairs args = .ok ps) :
    ps.map Prod.fst
      = (args.value b.parameter).sentNames (b.name.getD b.parameter) b.mode := by
  simp only [pairs, bind_ok_iff] at h
  obtain ⟨values, hvalues, h⟩ := h
  rw [map_fst_textPairs h, Argument.sentNames_of_unpack hvalues]

/-! ## Headers -/

namespace HeaderBinding

theorem map_name_line {name parameter : String} {a : Argument} {ls : List HeaderLine}
    (h : line name parameter a = .ok ls) : ls.map HeaderLine.name = a.sentOnce name := by
  simp only [line, bind_ok_iff, mapError_ok_iff] at h
  obtain ⟨text, htext, h⟩ := h
  rw [← Argument.sentOnce_of_toText htext]
  cases text with
  | none =>
    obtain rfl := Except.ok.inj h
    rfl
  | some text =>
    simp only [bind_ok_iff, pure_ok_iff] at h
    obtain ⟨⟨⟩, -, rfl⟩ := h
    rfl

theorem map_name_entryLine {parameter : String} {e : String × Argument} {ls : List HeaderLine}
    (h : entryLine parameter e = .ok ls) : ls.map HeaderLine.name = e.2.sentOnce e.1 := by
  unfold entryLine at h
  split at h
  · simp at h
  · simp only [bind_ok_iff] at h
    obtain ⟨⟨⟩, -, h⟩ := h
    exact map_name_line h

theorem map_name_lines_single {name parameter : String} {iterable : Bool} {args : Arguments}
    {ls : List HeaderLine} (h : (single name parameter iterable).lines args = .ok ls) :
    ls.map HeaderLine.name = (args.value parameter).sentNames name
      (if iterable then .iterable else .single) := by
  simp only [lines, bind_ok_iff, pure_ok_iff] at h
  obtain ⟨lss, hlss, rfl⟩ := h
  rw [map_flatten_of_mapM (fun _ _ => map_name_line) hlss]
  cases iterable with
  | true => exact Argument.flatMap_sentOnce_elements name _
  | false => exact List.flatMap_singleton _ _

theorem map_name_lines_map {parameter : String} {kind : TypeExpr.MapKind} {args : Arguments}
    {ls : List HeaderLine} (h : (map parameter kind).lines args = .ok ls) (name : String) :
    ls.map HeaderLine.name = (args.value parameter).sentNames name (.map kind) := by
  simp only [lines, bind_ok_iff, pure_ok_iff, mapError_ok_iff] at h
  obtain ⟨entries, hentries, lss, hlss, rfl⟩ := h
  rw [map_flatten_of_mapM (fun _ _ => map_name_entryLine) hlss,
    Argument.sentNames_of_entries hentries]

end HeaderBinding

/-! ## Parts -/

namespace PartBinding

/-- Only the entries of a map bring names of their own; any other binding has a name to give. -/
def GivesNames (b : PartBinding) : Prop :=
  b.name.isSome ∨ ∃ kind, b.mode = .map kind

def sentNames (b : PartBinding) (args : Arguments) : List String :=
  (args.value b.parameter).sentNames (b.name.getD b.parameter) b.mode

/-- The query or the form field with the name, the parameter and the mode of a part. -/
def toField (b : PartBinding) : ValueBinding :=
  ⟨b.name, b.parameter, b.mode⟩

/-- The header with the name, the parameter and the mode of a part. -/
def toHeader (b : PartBinding) : HeaderBinding :=
  match b.mode with
  | .single => .single (b.name.getD b.parameter) b.parameter false
  | .iterable => .single (b.name.getD b.parameter) b.parameter true
  | .map kind => .map b.parameter kind

theorem named_eq {b : PartBinding} (hb : b.GivesNames) (a : Argument) :
    b.named a = (unpack (b.name.getD b.parameter) b.parameter b.mode a).map
      (·.map fun e => (some e.1, e.2)) := by
  have hname (hmode : ∀ kind, b.mode ≠ .map kind) : b.name = some (b.name.getD b.parameter) := by
    obtain ⟨name, hname⟩ := Option.isSome_iff_exists.mp
      (hb.resolve_right fun ⟨kind, hkind⟩ => hmode kind hkind)
    rw [hname, Option.getD_some]
  unfold named unpack
  cases hmode : b.mode with
  | single =>
    rw [hname (by simp [hmode])]
    rfl
  | iterable =>
    rw [hname (by simp [hmode])]
    simp [Except.map, List.map_map, Function.comp_def]
  | map kind => rfl

theorem map_fst_filter_isNull (values : List (String × Argument)) :
    ((values.map fun e => (some e.1, e.2)).filter fun v => !v.2.isNull).map Prod.fst
      = (values.flatMap fun e => e.2.sentOnce e.1).map some := by
  induction values with
  | nil => rfl
  | cons e values ih =>
    rw [List.map_cons, List.flatMap_cons, List.map_append, ← ih, Argument.sentOnce]
    cases hnull : e.2.isNull <;> simp [hnull]

theorem map_name_parts {b : PartBinding} (hb : b.GivesNames) {args : Arguments}
    {converters : List Converter} {ps : List Part} (h : b.parts args converters = .ok ps) :
    ps.map Part.name = (b.sentNames args).map some := by
  simp only [parts, bind_ok_iff, mapError_ok_iff, named_eq hb, map_ok_iff] at h
  obtain ⟨_, ⟨values, hvalues, rfl⟩, h⟩ := h
  have hpart : ∀ v p, b.part converters v = .ok p → p.name = v.1 := by
    intro v p hp
    obtain ⟨payload, -, rfl⟩ := (map_ok_iff _ _ _).mp hp
    rfl
  rw [map_of_mapM hpart h, map_fst_filter_isNull, Argument.sentNames_of_unpack hvalues]
  rfl

theorem map_name_toHeader {b : PartBinding} {args : Arguments} {ls : List HeaderLine}
    (h : b.toHeader.lines args = .ok ls) : ls.map HeaderLine.name = b.sentNames args := by
  unfold toHeader at h
  unfold sentNames
  split at h
  · next hmode =>
    rw [hmode]
    exact HeaderBinding.map_name_lines_single h
  · next hmode =>
    rw [hmode]
    exact HeaderBinding.map_name_lines_single h
  · next kind hmode =>
    rw [hmode]
    exact HeaderBinding.map_name_lines_map h _

end PartBinding

/-! ## All encoders -/

/-- **All encoders unpack arguments alike.**  A field, a part and a header with the same name,
parameter and mode give their values the same names in the same order, one for each value that is
there.  And each encoder gives for many bindings what it gives for each, one after another. -/
theorem unpacked_alike (args : Arguments) (converters : List Converter) :
    (∀ b : PartBinding, b.GivesNames →
      (∀ pairs, b.toField.pairs args = .ok pairs → pairs.map Prod.fst = b.sentNames args) ∧
      (∀ parts, b.parts args converters = .ok parts →
        parts.map Part.name = (b.sentNames args).map some) ∧
      ∀ lines, b.toHeader.lines args = .ok lines →
        lines.map HeaderLine.name = b.sentNames args) ∧
    (∀ (bs : List ValueBinding) (pairs : List (String × String)),
      bindingPairs bs args = .ok pairs ↔
        ∃ outs, List.Forall₂ (fun b o => b.pairs args = .ok o) bs outs ∧ outs.flatten = pairs) ∧
    (∀ (subtype boundary : String) (bs : List PartBinding) (body : RequestBody),
      (ContentBinding.multipart subtype bs).encode boundary args converters = .ok body ↔
        ∃ outs, List.Forall₂ (fun b o => b.parts args converters = .ok o) bs outs ∧
          .multipart ⟨subtype, boundary, outs.flatten⟩ = body) ∧
    ∀ (bs : List HeaderBinding) (lines : List HeaderLine),
      headerLines bs args = .ok lines ↔
        ∃ outs, List.Forall₂ (fun b o => b.lines args = .ok o) bs outs ∧ outs.flatten = lines := by
  refine ⟨fun b hb => ⟨fun _ => ValueBinding.map_fst_pairs, fun _ => PartBinding.map_name_parts hb,
    fun _ => PartBinding.map_name_toHeader⟩, ?_, ?_, ?_⟩
  · intro bs pairs
    simp only [bindingPairs, map_ok_iff, mapM_ok_iff]
  · intro subtype boundary bs body
    simp only [ContentBinding.encode, bind_ok_iff, pure_ok_iff, mapM_ok_iff]
  · intro bs lines
    simp only [headerLines, bind_ok_iff, pure_ok_iff, mapM_ok_iff]

/-- A map of many values with a null among those of one entry, a nested list, and an entry that is
null. -/
theorem unpacked_alike_nested :
    let b : PartBinding := ⟨none, "extra", "application/json", .map .multiValue, false⟩
    let args : Arguments := .ofList [("extra", .map [("X-A", .list [.int 1, .null, .list [.null]]),
      ("X-B", .null), ("X-C", .bool true)])]
    ∃ pairs parts lines, b.GivesNames ∧ b.toField.pairs args = .ok pairs ∧
      b.parts args Converter.defaults = .ok parts ∧ b.toHeader.lines args = .ok lines ∧
      pairs.map Prod.fst = ["X-A", "X-A", "X-C"] ∧
      parts.map Part.name = [some "X-A", some "X-A", some "X-C"] ∧
      lines.map HeaderLine.name = ["X-A", "X-A", "X-C"] := by
  intro b args
  have hb : b.GivesNames := .inr ⟨.multiValue, rfl⟩
  have hpairs : b.toField.pairs args = .ok [("X-A", "1"), ("X-A", "[null]"), ("X-C", "true")] := by
    decide +kernel
  have hparts : b.parts args Converter.defaults = .ok
      [⟨some "X-A", some "application/json", .bytes "1".toUTF8.toList⟩,
        ⟨some "X-A", some "application/json", .bytes "[null]".toUTF8.toList⟩,
        ⟨some "X-C", some "application/json", .bytes "true".toUTF8.toList⟩] := by decide +kernel
  have hlines : b.toHeader.lines args = .ok [⟨"X-A", "1"⟩, ⟨"X-A", "[null]"⟩, ⟨"X-C", "true"⟩] := by
    decide +kernel
  obtain ⟨hfield, hpart, hheader⟩ := (unpacked_alike args Converter.defaults).1 b hb
  exact ⟨_, _, _, hb, hpairs, hparts, hlines, hfield _ hpairs, hpart _ hparts, hheader _ hlines⟩

end HttpService
