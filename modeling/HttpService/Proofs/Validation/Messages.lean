import HttpService.Proofs.Lexical
import HttpService.Proofs.Template.Pieces
import HttpService.Proofs.Text.Lines
import HttpService.Validation.Functions

/-!
# What a message shows

The message of a violation is made of fixed text, of quoted text, and of text that is shown as it
is: names and types of the declaration (`Violation.names`), and words that only look like fixed
text, such as a mark or a method (`Violation.words`).  Line feeds get into a message through these
two only (`lineFeeds_message`), and into the line of a diagnostic also through the name of its file.

So a report has a line for each diagnostic and one more for each line feed of a name, if no word has
one (`length_lines_report`, `lines_report_iff`).  The words of this library have none, nor have
tokens and the names of placeholders; a violation that shows only such words, and only names of a
given class, is one that `Shows` them.
-/

namespace HttpService

namespace Violation

/-- The names and types of the declaration that the message shows as they are. -/
def names : Violation → List String
  | notAnInterface name _ | notTopLevel name | serviceTypeParameters name | serviceProperty name
  | missingHttpMethod name | multipleHttpMethods name | notSuspending name | defaultBody name
  | functionTypeParameters name | missingUrl name | conflictingUrl name | multipleUrlParameters name
  | parameterWithoutPlaceholder name | pathWithDynamicUrl name | pathParameterNullable name
  | missingParameterRole name | multipleParameterRoles name _ | emptyBindingName _ name
  | multipleBodies name | fieldWithoutForm _ name | partWithoutMultipart _ name
  | mapKeyNullable _ name | invalidHeaderValue name _ => [name]
  | notSerializable type _ | byteStreamNotAllowed type | wildcardNotAllowed type
  | resultNotAllowed type | typeArity type _ _ | headReturnType type => [type]
  | hasSupertypes name found | urlParameterType name found | pathParameterNotScalar name found
  | unsupportedMapType _ name found | mapKeyNotString _ name found => [name, found]
  | _ => []

/-- What else the message shows as it is: marks, methods, kinds of types, and the names of
placeholders and of content headers. -/
def words : Violation → List String
  | notAnInterface _ word | duplicateMark word | placeholderWithoutParameter word
  | duplicatePlaceholder word | duplicatePathBinding word | placeholderOutsidePath word
  | multipleParameterRoles _ word | emptyBindingName word _ | bodyWithForm word
  | fieldWithoutForm word _ | partWithoutMultipart word _ | unsupportedMapType word _ _
  | mapKeyNotString word _ _ | mapKeyNullable word _ | contentHeaderForbidden word => [word]
  | bodyNotAllowed label method => [label, method]
  | _ => []

end Violation

open Text (lineFeeds lineFeeds_append lineFeeds_quoted lineFeeds_toString)

/-! ## Line feeds -/

theorem lineFeeds_flaw (reason : Lexical.Flaw) : lineFeeds reason.message = 0 := by
  cases reason with
  | empty => decide
  | illegal c p =>
    have hposition : lineFeeds (toString " at position " ++ toString p) = 0 := by
      rw [lineFeeds_append, lineFeeds_toString]
      decide
    unfold Lexical.Flaw.message
    rw [lineFeeds_append, lineFeeds_append, Text.lineFeeds_quotedChar, hposition]
    decide

theorem lineFeeds_inBraces (name : String) :
    lineFeeds (Violation.inBraces name) = lineFeeds name := by
  rw [Violation.inBraces, lineFeeds_append, lineFeeds_append]
  exact Nat.zero_add _

theorem lineFeeds_context (context : TypeContext) : lineFeeds context.display = 0 := by
  cases context <;> decide

theorem lineFeeds_ofList {cs : List Char} (h : cs.count '\n' = 0) :
    lineFeeds (String.ofList cs) = 0 := by
  rw [lineFeeds, String.toList_ofList, h]

/-- **The line feeds of a message are those of its names and words.** -/
theorem lineFeeds_message (v : Violation) :
    lineFeeds v.message = ((v.names ++ v.words).map lineFeeds).sum := by
  have hstring (s : String) : toString s = s := rfl
  have hfixed (s : String) (h : lineFeeds s = 0) : lineFeeds s = 0 := h
  cases v <;>
  · unfold Violation.message Violation.names Violation.words
    simp only [hstring, lineFeeds_append, lineFeeds_quoted, lineFeeds_toString, lineFeeds_flaw,
      lineFeeds_inBraces, lineFeeds_context, List.append_nil, List.nil_append, List.cons_append,
      List.map_cons, List.map_nil, List.sum_cons, List.sum_nil]
    -- what is left besides names and words is fixed text
    simp (disch := exact lineFeeds_ofList rfl) only [hfixed, Nat.zero_add, Nat.add_zero,
      Nat.add_assoc, Nat.add_comm, Nat.add_left_comm]

theorem lineFeeds_location (l : Location) : lineFeeds l.display = lineFeeds l.file := by
  have hcolon : lineFeeds ":" = 0 := lineFeeds_ofList rfl
  unfold Location.display
  simp only [lineFeeds_append, lineFeeds_toString, hcolon, Nat.add_zero]
  split
  · next hempty =>
    rw [String.isEmpty_iff.mp hempty]
    decide
  · rfl

namespace Diagnostic

def entry (d : Diagnostic) : String :=
  d.location.display ++ ": error: " ++ d.violation.message

/-- The names and types of the declaration that the line shows as they are, the file first. -/
def names (d : Diagnostic) : List String :=
  d.location.file :: d.violation.names

theorem lineFeeds_entry (d : Diagnostic) :
    lineFeeds d.entry = (d.names.map lineFeeds).sum + (d.violation.words.map lineFeeds).sum := by
  have hcolon : lineFeeds ": error: " = 0 := lineFeeds_ofList rfl
  rw [entry, lineFeeds_append, lineFeeds_append, lineFeeds_location, lineFeeds_message, hcolon,
    names, List.map_append, List.sum_append, List.map_cons, List.sum_cons, Nat.add_zero,
    Nat.add_assoc]

/-! ## Reports -/

theorem toList_report (ds : List Diagnostic) :
    (report ds).toList = (ds.map fun d => d.entry.toList).flatMap (· ++ ['\n']) := by
  have hline (d : Diagnostic) : d.line.toList = d.entry.toList ++ ['\n'] := String.toList_append
  simp only [report, String.toList_join, List.flatMap_map, hline]

variable {ds : List Diagnostic}

/-- **A report has a line for each diagnostic and one more for each line feed of a name.** -/
theorem length_lines_report (hwords : ∀ d ∈ ds, ∀ w ∈ d.violation.words, '\n' ∉ w.toList) :
    (Text.lines (report ds).toList).length
      = ds.length + ((ds.flatMap names).map lineFeeds).sum := by
  rw [toList_report, Text.length_lines_flatMap, List.length_map]
  congr 1
  induction ds with
  | nil => rfl
  | cons d ds ih =>
    rw [List.forall_mem_cons] at hwords
    have hentry : d.entry.toList.count '\n' = (d.names.map lineFeeds).sum := by
      refine (lineFeeds_entry d).trans ?_
      rw [Text.sum_lineFeeds_eq_zero_iff.mpr hwords.1, Nat.add_zero]
    rw [List.flatMap_cons, List.map_append, List.sum_append, ← ih hwords.2, ← hentry]
    rfl

/-- **The lines of a report are its diagnostics exactly when no name has a line feed.** -/
theorem lines_report_iff (hwords : ∀ d ∈ ds, ∀ w ∈ d.violation.words, '\n' ∉ w.toList) :
    Text.lines (report ds).toList = ds.map (fun d => d.entry.toList) ↔
      ∀ d ∈ ds, ∀ n ∈ d.names, '\n' ∉ n.toList := by
  rw [toList_report, Text.lines_flatMap_iff, List.forall_mem_map]
  refine forall₂_congr fun d hd => ?_
  rw [← Text.lineFeeds_eq_zero_iff, lineFeeds_entry,
    Text.sum_lineFeeds_eq_zero_iff.mpr (hwords d hd), Nat.add_zero,
    Text.sum_lineFeeds_eq_zero_iff]

end Diagnostic

/-! ## Violations that show given names -/

/-- A violation whose message shows only given names, and words without a line feed. -/
structure Violation.Shows (declared : String → Prop) (v : Violation) : Prop where
  names : ∀ n ∈ v.names, declared n
  words : ∀ w ∈ v.words, '\n' ∉ w.toList

/-- A diagnostic whose line shows only given names, and words without a line feed. -/
structure Diagnostic.Shows (declared : String → Prop) (d : Diagnostic) : Prop where
  file : declared d.location.file
  violation : d.violation.Shows declared

variable {declared declared' : String → Prop}

theorem Violation.Shows.mono {v : Violation} (h : v.Shows declared)
    (hle : ∀ text, declared text → declared' text) : v.Shows declared' :=
  ⟨fun n hn => hle n (h.names n hn), h.words⟩

theorem Violation.Shows.ofNone {v : Violation} (hnames : v.names = []) (hwords : v.words = []) :
    v.Shows declared :=
  ⟨by simp [hnames], by simp [hwords]⟩

theorem Violation.Shows.ofName {v : Violation} {n : String} (hnames : v.names = [n])
    (hwords : v.words = []) (h : declared n) : v.Shows declared :=
  ⟨by simpa [hnames] using h, by simp [hwords]⟩

theorem Violation.Shows.ofWord {v : Violation} {w : String} (hnames : v.names = [])
    (hwords : v.words = [w]) (h : '\n' ∉ w.toList) : v.Shows declared :=
  ⟨by simp [hnames], by simpa [hwords] using h⟩

/-! ## Lists with an entry on a condition -/

theorem forall_mem_ite {α : Type} {P : α → Prop} {c : Prop} [Decidable c] {as bs : List α}
    (has : c → ∀ a ∈ as, P a) (hbs : ¬ c → ∀ b ∈ bs, P b) : ∀ a ∈ if c then as else bs, P a := by
  split
  · next hc => exact has hc
  · next hc => exact hbs hc

theorem forall_mem_when {α : Type} {P : α → Prop} {c : Prop} [Decidable c] {a : α} (h : P a) :
    ∀ b ∈ if c then [a] else [], P b :=
  forall_mem_ite (fun _ => List.forall_mem_singleton.mpr h) fun _ => List.forall_mem_nil P

theorem forall_mem_unless {α : Type} {P : α → Prop} {c : Prop} [Decidable c] {a : α} (h : P a) :
    ∀ b ∈ if c then [] else [a], P b :=
  forall_mem_ite (fun _ => List.forall_mem_nil P) fun _ => List.forall_mem_singleton.mpr h

theorem forall_mem_pair {α : Type} {P : α → Prop} {a b : α} (ha : P a) (hb : P b) :
    ∀ c ∈ [a, b], P c :=
  List.forall_mem_cons.mpr ⟨ha, List.forall_mem_singleton.mpr hb⟩

/-! ## Words -/

theorem newline_notMem_ofList {cs : List Char} (h : cs.count '\n' = 0) :
    '\n' ∉ (String.ofList cs).toList :=
  Text.lineFeeds_eq_zero_iff.mp (lineFeeds_ofList h)

theorem newline_notMem_role (role : Role) : '\n' ∉ role.label.toList := by
  cases role <;> exact newline_notMem_ofList rfl

theorem newline_notMem_mark (mark : FunctionMark) : '\n' ∉ mark.label.toList := by
  cases mark <;> exact newline_notMem_ofList rfl

theorem newline_notMem_binding (b : Binding) : '\n' ∉ b.label.toList := by
  unfold Binding.label
  split <;> exact newline_notMem_ofList rfl

theorem newline_notMem_kind (kind : DeclKind) : '\n' ∉ kind.display.toList := by
  cases kind <;> exact newline_notMem_ofList rfl

theorem newline_notMem_roles (roles : List Role) :
    '\n' ∉ (String.intercalate ", " (roles.map Role.label)).toList := by
  rw [String.toList_intercalate, List.map_map]
  induction roles with
  | nil => exact List.not_mem_nil
  | cons role roles ih =>
    cases roles with
    | nil => simpa using newline_notMem_role role
    | cons next rest =>
      rw [List.map_cons, List.map_cons, List.intercalate_cons_cons, ← List.map_cons]
      simp only [List.mem_append, not_or]
      exact ⟨⟨newline_notMem_role role, newline_notMem_ofList rfl⟩, ih⟩

theorem newline_notMem_token {s : String} (h : Lexical.checkToken s = .ok ()) :
    '\n' ∉ s.toList := by
  intro hmem
  have := Lexical.not_breaksLine_of_isTokenChar ((Lexical.checkToken_ok_iff.mp h).2 _ hmem)
  cases this

theorem Template.newline_notMem_names {cs : List Char} {n : String} (h : n ∈ names cs) :
    '\n' ∉ n.toList := by
  obtain ⟨p, hp, hname⟩ := List.mem_filterMap.mp h
  have hproper := proper_pieces cs p hp
  cases p with
  | placeholder name =>
    obtain rfl := Option.some.inj hname
    rw [String.toList_ofList]
    cases name with
    | nil => simp
    | cons c rest =>
      simp only [Piece.Proper, isName, Bool.and_eq_true, List.all_eq_true] at hproper
      intro hmem
      rcases List.mem_cons.mp hmem with rfl | hmem
      · cases hproper.1
      · cases hproper.2 _ hmem
  | plain c | group inside | stray brace => cases hname

end HttpService
