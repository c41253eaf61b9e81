import HttpService.Proofs.Validation.Bindings
import HttpService.Proofs.Validation.Heads
import HttpService.Proofs.Validation.Messages
import HttpService.Proofs.Validation.Placeholders
import HttpService.Proofs.Validation.Slots
import HttpService.Validation.Services

/-!
# Reports of what is wrong

Whatever an analysis reports, its messages show only names and types of the declaration as they
are (`shows_of_mem_diagnostics`); everything else in them is quoted, was checked to be a token or
the name of a placeholder, or is one of a few fixed words.  So a report has a line for each
diagnostic exactly when no name that it shows has a line feed, and every such name adds as many
lines as it has line feeds (`report_lines_iff`).

The checks are gone through in their own structure: each has one lemma, which says where the names
in all that it finds come from.
-/

namespace HttpService

/-! ## Declared texts -/

/-- A type that stands in another one, at its root or below. -/
inductive TypeExpr.Within : TypeExpr → TypeExpr → Prop
  | root (t : TypeExpr) : Within t t
  | argument {n s t : TypeExpr} : s ∈ t.arguments → Within n s → Within n t

/-- The names and the texts of the types in a type. -/
inductive TypeExpr.Declares (t : TypeExpr) : String → Prop
  | name {n : TypeExpr} : n.Within t → Declares t n.name
  | display {n : TypeExpr} : n.Within t → Declares t n.display

/-- The texts that a parameter is declared with and that a message can show as they are. -/
inductive ParameterDecl.Declares (p : ParameterDecl) : String → Prop
  | file : Declares p p.location.file
  | name : Declares p p.name
  | type {text : String} : p.type.Declares text → Declares p text

/-- The texts that a function is declared with and that a message can show as they are.  Of a
static header this is what stands before its first colon. -/
inductive FunctionDecl.Declares (f : FunctionDecl) : String → Prop
  | file : Declares f f.location.file
  | name : Declares f f.name
  | header {text : String} {name value : List Char} :
      text ∈ f.marks.flatMap FunctionMark.headerTexts →
      Text.cut (· == ':') text.toList = some (name, value) → Declares f (String.ofList name)
  | result {text : String} : f.returnType.Declares text → Declares f text
  | parameter {p : ParameterDecl} {text : String} : p ∈ f.parameters → p.Declares text →
      Declares f text

/-- The texts that a service is declared with and that a message can show as they are. -/
inductive ServiceDecl.Declares (s : ServiceDecl) : String → Prop
  | file : Declares s s.location.file
  | name : Declares s s.name
  | supertypes : Declares s (String.intercalate ", " s.supertypes)
  | propertyFile {p : PropertyDecl} : p ∈ s.properties → Declares s p.location.file
  | propertyName {p : PropertyDecl} : p ∈ s.properties → Declares s p.name
  | function {f : FunctionDecl} {text : String} : f ∈ s.functions → f.Declares text →
      Declares s text

variable {declared : String → Prop}

/-! ## Types -/

namespace TypeExpr

variable {serializable : List String} {root t : TypeExpr} {position : Position} {top : Bool}

theorem shows_nodeViolations (hroot : declared root.display) (ht : declared t.name) :
    ∀ v ∈ (nodeViolations serializable root position top t).1, v.Shows declared := by
  unfold nodeViolations
  split
  · exact List.forall_mem_singleton.mpr (.ofName rfl rfl hroot)
  · split
    · exact List.forall_mem_singleton.mpr (.ofName rfl rfl hroot)
    · split
      · exact List.forall_mem_singleton.mpr (.ofName rfl rfl hroot)
      · split
        · exact List.forall_mem_singleton.mpr (.ofName rfl rfl ht)
        · exact List.forall_mem_nil _
    · split
      · split
        · exact List.forall_mem_nil _
        · exact List.forall_mem_singleton.mpr (.ofName rfl rfl ht)
      · exact List.forall_mem_nil _

mutual

/-- The walk over a type shows the type that it began with, and names of types in it. -/
theorem shows_walk (hroot : declared root.display) (top : Bool) :
    (t : TypeExpr) → (∀ n : TypeExpr, n.Within t → declared n.name) →
      ∀ v ∈ walk serializable root position top t, v.Shows declared
  | mk n b as, ht => by
    rw [walk]
    refine List.forall_mem_append.mpr ⟨shows_nodeViolations hroot (ht _ (.root _)),
      forall_mem_ite (fun _ => ?_) fun _ => List.forall_mem_nil _⟩
    -- below, the root that is shown stays, and what stands in an argument stands in the whole
    exact shows_walkAll hroot as fun a ha n hn => ht n (.argument ha hn)

theorem shows_walkAll (hroot : declared root.display) :
    (ts : List TypeExpr) → (∀ t ∈ ts, ∀ n : TypeExpr, n.Within t → declared n.name) →
      ∀ v ∈ walkAll serializable root position ts, v.Shows declared
  | [], _ => List.forall_mem_nil _
  | t :: rest, hts => by
    rw [walkAll]
    exact List.forall_mem_append.mpr
      ⟨shows_walk hroot false t (hts t List.mem_cons_self),
        shows_walkAll hroot rest fun s hs => hts s (List.mem_cons_of_mem t hs)⟩

end

theorem shows_violations (serializable : List String) (position : Position) (t : TypeExpr) :
    ∀ v ∈ t.violations serializable position, v.Shows t.Declares :=
  shows_walk (.display (.root t)) true t fun _ => .name

theorem shows_checkReturn (serializable : List String) (method : Method) (t : TypeExpr) :
    ∀ v ∈ (t.checkReturn serializable method).2, v.Shows t.Declares := by
  have hdisplay : t.Declares t.display := .display (.root t)
  unfold checkReturn
  refine List.forall_mem_append.mpr ⟨?_, forall_mem_when (.ofName rfl rfl hdisplay)⟩
  unfold returnShape
  split
  · split
    · next argument hargument =>
      have hmem : argument ∈ t.arguments := hargument ▸ List.mem_singleton_self argument
      split
      · exact List.forall_mem_nil _
      · exact shows_walk hdisplay true argument fun n hn => .name (.argument hmem hn)
    · exact List.forall_mem_singleton.mpr (.ofName rfl rfl (.name (.root t)))
  · exact shows_violations serializable .return t

theorem within_of_mapShape? {shape : MapShape} {key : TypeExpr} (h : t.mapShape? = some shape)
    (hkey : shape.key = some key) : key.Within t := by
  unfold mapShape? at h
  split at h
  · obtain rfl := Option.some.inj h
    exact .argument (List.mem_of_getElem? hkey) (.root key)
  · obtain rfl := Option.some.inj h
    cases hkey
  · split at h
    · next pair hpair =>
      split at h
      · obtain rfl := Option.some.inj h
        exact .argument (List.mem_of_getElem? hpair)
          (.argument (List.mem_of_getElem? hkey) (.root key))
      · cases h
    · cases h
  · cases h

end TypeExpr

/-! ## Parameters -/

theorem shows_headerNameViolations (name : String) :
    ∀ v ∈ headerNameViolations name, v.Shows declared := by
  unfold headerNameViolations
  split
  · exact List.forall_mem_singleton.mpr (.ofNone rfl rfl)
  · next hname =>
    exact forall_mem_when (.ofWord rfl rfl (newline_notMem_token hname))

theorem shows_contentTypeViolations (contentType : String) :
    ∀ v ∈ contentTypeViolations contentType, v.Shows declared := by
  unfold contentTypeViolations
  split
  · exact List.forall_mem_singleton.mpr (.ofNone rfl rfl)
  · exact List.forall_mem_nil _

namespace ParameterDecl

variable {serializable : List String} (p : ParameterDecl)

theorem declares_display : p.Declares p.type.display :=
  .type (.display (.root p.type))

theorem shows_nameViolations (role : Role) (explicit : Option String) :
    ∀ v ∈ p.nameViolations role explicit, v.Shows p.Declares :=
  forall_mem_when
    ⟨List.forall_mem_singleton.mpr .name, List.forall_mem_singleton.mpr (newline_notMem_role role)⟩

theorem shows_mapViolations (role : Role) : ∀ v ∈ p.mapViolations role, v.Shows p.Declares := by
  have hlabel : ∀ w ∈ [role.label], '\n' ∉ w.toList :=
    List.forall_mem_singleton.mpr (newline_notMem_role role)
  unfold mapViolations
  split
  · exact List.forall_mem_singleton.mpr
      ⟨forall_mem_pair .name p.declares_display, hlabel⟩
  · next shape hshape =>
    split
    · exact List.forall_mem_nil _
    · next key hkey =>
      have hdisplay : p.Declares key.display :=
        .type (.display (TypeExpr.within_of_mapShape? hshape hkey))
      refine forall_mem_ite (fun _ => ?_) fun _ => forall_mem_when ?_
      · exact List.forall_mem_singleton.mpr ⟨forall_mem_pair .name hdisplay, hlabel⟩
      · exact ⟨List.forall_mem_singleton.mpr .name, hlabel⟩

theorem shows_pathViolations : ∀ v ∈ p.pathViolations, v.Shows p.Declares :=
  List.forall_mem_append.mpr ⟨forall_mem_when (.ofName rfl rfl .name),
    forall_mem_when ⟨forall_mem_pair .name p.declares_display, List.forall_mem_nil _⟩⟩

theorem shows_urlViolations : ∀ v ∈ p.urlViolations, v.Shows p.Declares :=
  forall_mem_when ⟨forall_mem_pair .name p.declares_display, List.forall_mem_nil _⟩

theorem shows_lower (role : Role) :
    ∀ v ∈ (p.lower serializable role).2, v.Shows p.Declares := by
  have uses (position : Position) : ∀ v ∈ p.type.violations serializable position,
      v.Shows p.Declares := fun v hv =>
    (TypeExpr.shows_violations serializable position p.type v hv).mono fun _ => .type
  have types (contentType : Option String) :
      ∀ v ∈ (contentType.map contentTypeViolations).getD [], v.Shows p.Declares := by
    cases contentType with
    | none => exact List.forall_mem_nil _
    | some t => exact shows_contentTypeViolations t
  cases role with
  | path name =>
    exact List.forall_mem_append.mpr ⟨List.forall_mem_append.mpr
      ⟨p.shows_nameViolations _ _, p.shows_pathViolations⟩, uses _⟩
  | url => exact p.shows_urlViolations
  | query name => exact List.forall_mem_append.mpr ⟨p.shows_nameViolations _ _, uses _⟩
  | queryMap => exact List.forall_mem_append.mpr ⟨p.shows_mapViolations _, uses _⟩
  | header name => exact List.forall_mem_append.mpr ⟨shows_headerNameViolations _, uses _⟩
  | headerMap => exact List.forall_mem_append.mpr ⟨p.shows_mapViolations _, uses _⟩
  | field name => exact List.forall_mem_append.mpr ⟨p.shows_nameViolations _ _, uses _⟩
  | fieldMap => exact List.forall_mem_append.mpr ⟨p.shows_mapViolations _, uses _⟩
  | part name contentType =>
    exact List.forall_mem_append.mpr ⟨List.forall_mem_append.mpr
      ⟨p.shows_nameViolations _ _, uses _⟩, types _⟩
  | partMap contentType =>
    exact List.forall_mem_append.mpr ⟨List.forall_mem_append.mpr
      ⟨p.shows_mapViolations _, uses _⟩, types _⟩
  | body contentType =>
    exact List.forall_mem_append.mpr ⟨uses _, shows_contentTypeViolations _⟩

theorem shows_bind {vs : List Violation} (h : p.bind serializable = .error vs) :
    ∀ v ∈ vs, v.Shows p.Declares := by
  unfold bind at h
  split at h
  · obtain rfl := Except.error.inj h
    exact List.forall_mem_singleton.mpr (.ofName rfl rfl .name)
  · next role _ =>
    have hlower := @shows_lower serializable p role
    split at h
    · cases h
    · next hvs =>
      obtain rfl := Except.error.inj h
      rwa [hvs] at hlower
  · obtain rfl := Except.error.inj h
    exact List.forall_mem_singleton.mpr ⟨List.forall_mem_singleton.mpr .name,
      List.forall_mem_singleton.mpr (newline_notMem_roles p.roles)⟩

end ParameterDecl

/-! ## Marks -/

namespace Marks

theorem shows_add (m : Marks) (mark : FunctionMark) :
    ∀ v ∈ (m.add mark).2, v.Shows declared := by
  have hagain : (Violation.duplicateMark mark.label).Shows declared :=
    .ofWord rfl rfl (newline_notMem_mark mark)
  unfold add
  cases mark with
  | http method path hasBody =>
    dsimp only
    split
    · unfold readMethod
      split
      · exact List.forall_mem_nil _
      · exact List.forall_mem_singleton.mpr (.ofNone rfl rfl)
    · exact List.forall_mem_nil _
  | headers values => exact forall_mem_when hagain
  | form => exact forall_mem_when hagain
  | multipart subtype =>
    dsimp only
    split
    · exact List.forall_mem_singleton.mpr hagain
    · unfold subtypeViolations
      split
      · exact List.forall_mem_nil _
      · exact List.forall_mem_singleton.mpr (.ofNone rfl rfl)

theorem shows_addAll (m : Marks) (marks : List FunctionMark) :
    ∀ v ∈ (m.addAll marks).2, v.Shows declared := by
  induction marks generalizing m with
  | nil => exact List.forall_mem_nil _
  | cons mark marks ih => exact List.forall_mem_append.mpr ⟨shows_add m mark, ih _⟩

theorem shows_countViolations (m : Marks) {function : String} (h : declared function) :
    ∀ v ∈ m.countViolations function, v.Shows declared := by
  unfold countViolations
  split
  · exact List.forall_mem_singleton.mpr (.ofName rfl rfl h)
  · exact List.forall_mem_nil _
  · exact List.forall_mem_singleton.mpr (.ofName rfl rfl h)

/-- A method that marks give is a token, whatever else is wrong with them. -/
theorem checkToken_of_addAll {m : Marks} (hm : ∀ x ∈ m.method, Lexical.checkToken x.token = .ok ())
    (marks : List FunctionMark) :
    ∀ x ∈ (m.addAll marks).1.method, Lexical.checkToken x.token = .ok () := by
  induction marks generalizing m with
  | nil => exact hm
  | cons mark marks ih =>
    refine ih (m := (m.add mark).1) ?_
    unfold add
    cases mark with
    | http method path hasBody =>
      dsimp only
      split
      · exact fun _ => checkToken_of_readMethod
      · exact hm
    | headers values => exact hm
    | form => exact hm
    | multipart subtype =>
      dsimp only
      split <;> exact hm

end Marks

/-! ## Functions -/

namespace FunctionDecl

variable {serializable : List String} (f : FunctionDecl)

/-- What shows names of the function, and is found there, is a diagnostic that does. -/
theorem shows_here {vs : List Violation} (h : ∀ v ∈ vs, v.Shows f.Declares) :
    ∀ d ∈ f.here vs, d.Shows f.Declares :=
  List.forall_mem_map.mpr fun v hv => ⟨.file, h v hv⟩

theorem shows_parameter {p : ParameterDecl} (hp : p ∈ f.parameters) {v : Violation}
    (h : v.Shows p.Declares) : Diagnostic.Shows f.Declares ⟨p.location, v⟩ :=
  ⟨.parameter hp .file, h.mono fun _ => .parameter hp⟩

theorem shows_formViolations : ∀ v ∈ f.formViolations, v.Shows f.Declares :=
  List.forall_mem_append.mpr ⟨List.forall_mem_append.mpr
    ⟨forall_mem_unless (.ofName rfl rfl .name), forall_mem_when (.ofName rfl rfl .name)⟩,
    forall_mem_unless (.ofName rfl rfl .name)⟩

theorem shows_readMarks : ∀ v ∈ f.readMarks.2, v.Shows f.Declares :=
  List.forall_mem_append.mpr ⟨Marks.shows_addAll _ _, Marks.shows_countViolations _ .name⟩

theorem shows_staticHeader {text : String}
    (h : ∀ name value, Text.cut (· == ':') text.toList = some (name, value) →
      declared (String.ofList name)) :
    ∀ v ∈ (staticHeader text).2, v.Shows declared := by
  unfold staticHeader
  split
  · exact List.forall_mem_singleton.mpr (.ofNone rfl rfl)
  · next name value hcut =>
    refine List.forall_mem_append.mpr ⟨shows_headerNameViolations _, ?_⟩
    split
    · exact List.forall_mem_nil _
    · exact List.forall_mem_singleton.mpr (.ofName rfl rfl (h name value hcut))

theorem shows_staticHeaders :
    ∀ v ∈ (staticHeaders f.readMarks.1.headers).2, v.Shows f.Declares := by
  rw [headers_readMarks]
  intro v hv
  obtain ⟨h, hh, hv⟩ := List.mem_flatMap.mp hv
  obtain ⟨text, htext, rfl⟩ := List.mem_map.mp hh
  exact shows_staticHeader (fun name value => .header htext) v hv

theorem shows_parameterDiagnostics :
    ∀ d ∈ f.parameterDiagnostics serializable, d.Shows f.Declares := by
  intro d hd
  obtain ⟨p, hp, hd⟩ := List.mem_flatMap.mp hd
  split at hd
  · cases hd
  · next vs hvs =>
    obtain ⟨v, hv, rfl⟩ := List.mem_map.mp hd
    exact f.shows_parameter hp (p.shows_bind hvs v hv)

/-! ### The source of the URL -/

theorem shows_pathBindingDiagnostics {names : List String}
    (hnames : ∀ n ∈ names, '\n' ∉ n.toList) {paths : List (ParameterDecl × String)}
    (hpaths : ∀ x ∈ paths, x.1 ∈ f.parameters) (seen : List String) :
    ∀ d ∈ pathBindingDiagnostics names seen paths, d.Shows f.Declares := by
  induction paths generalizing seen with
  | nil => exact List.forall_mem_nil _
  | cons x paths ih =>
    rw [List.forall_mem_cons] at hpaths
    rw [pathBindingDiagnostics]
    refine forall_mem_ite (fun _ => ?_) fun hnamed => forall_mem_ite (fun _ => ?_) fun _ => ?_
    · exact List.forall_mem_cons.mpr
        ⟨f.shows_parameter hpaths.1 (.ofName rfl rfl .name), ih hpaths.2 seen⟩
    · have hmem : x.2 ∈ names := by simpa using hnamed
      exact List.forall_mem_cons.mpr
        ⟨f.shows_parameter hpaths.1 (.ofWord rfl rfl (hnames _ hmem)), ih hpaths.2 seen⟩
    · exact ih hpaths.2 _

theorem shows_templateDiagnostics (template : String) {paths : List (ParameterDecl × String)}
    (hpaths : ∀ x ∈ paths, x.1 ∈ f.parameters) :
    ∀ d ∈ f.templateDiagnostics template paths, d.Shows f.Declares := by
  have hname (cs : List Char) : ∀ n ∈ Template.names cs, '\n' ∉ n.toList :=
    fun n => Template.newline_notMem_names
  unfold templateDiagnostics
  simp only [List.forall_mem_append]
  refine ⟨f.shows_here ?_, f.shows_pathBindingDiagnostics (hname _) hpaths []⟩
  simp only [List.forall_mem_append, List.forall_mem_map]
  -- schemes, malformed pieces and segments are quoted; what is left are names of placeholders
  refine ⟨⟨⟨⟨⟨?_, fun _ _ => .ofNone rfl rfl⟩, fun _ _ => .ofNone rfl rfl⟩, fun n hn => ?_⟩,
    fun n hn => ?_⟩, fun n hn => ?_⟩
  · unfold schemeViolations
    exact forall_mem_ite (fun _ => forall_mem_unless (.ofNone rfl rfl)) fun _ =>
      List.forall_mem_nil _
  · obtain ⟨tail, -, hn⟩ := List.mem_flatMap.mp hn
    exact .ofWord rfl rfl (hname tail n hn)
  · have hcount : 2 ≤ (Template.names (Template.split template.toList).path).count n :=
      (mem_repeated_iff.mp hn).2.resolve_right nofun
    have hmem := List.count_pos_iff.mp (Nat.lt_of_lt_of_le Nat.two_pos hcount)
    exact .ofWord rfl rfl (hname _ n hmem)
  · exact .ofWord rfl rfl (hname _ n (mem_distinct_iff.mp (List.mem_of_mem_filter hn)).1)

theorem shows_checkUrl (path : Option String) :
    ∀ d ∈ (f.checkUrl path (f.bound serializable)).2, d.Shows f.Declares := by
  have hpaths : ∀ x ∈ pathBindings (f.bound serializable), x.1 ∈ f.parameters :=
    fun x hx => (mem_bound_iff.mp (mem_pathBindings_iff.mp hx)).1
  have hhere (v : Violation) (hnames : v.names = [f.name]) (hwords : v.words = []) :
      ∀ d ∈ f.here [v], d.Shows f.Declares :=
    f.shows_here (List.forall_mem_singleton.mpr (.ofName hnames hwords .name))
  have hseveral : ∀ d ∈ f.here (if 1 < (urlParameters (f.bound serializable)).length then
      [.multipleUrlParameters f.name] else []), d.Shows f.Declares :=
    f.shows_here (forall_mem_when (.ofName rfl rfl .name))
  unfold checkUrl
  dsimp only
  split
  · exact List.forall_mem_append.mpr ⟨hseveral, hhere _ rfl rfl⟩
  · exact List.forall_mem_append.mpr ⟨hseveral, hhere _ rfl rfl⟩
  · refine List.forall_mem_append.mpr ⟨hseveral, List.forall_mem_map.mpr fun x hx => ?_⟩
    exact f.shows_parameter (hpaths x hx) (.ofName rfl rfl .name)
  · exact List.forall_mem_append.mpr ⟨hseveral, f.shows_templateDiagnostics _ hpaths⟩

theorem shows_urlStep (marks : Marks) :
    ∀ d ∈ (f.urlStep marks (f.bound serializable)).2, d.Shows f.Declares := by
  unfold urlStep
  split
  · exact List.forall_mem_nil _
  · exact f.shows_checkUrl marks.path

/-! ### Content and result -/

theorem shows_orphanDiagnostics (marks : Marks) :
    ∀ d ∈ orphanDiagnostics marks (f.bound serializable), d.Shows f.Declares := by
  intro d hd
  obtain ⟨⟨p, b⟩, hmem, hd⟩ := List.mem_filterMap.mp hd
  have hp : p ∈ f.parameters := (mem_bound_iff.mp hmem).1
  have hshows (v : Violation) (hnames : v.names = [p.name]) (hwords : v.words = [b.label]) :
      Diagnostic.Shows f.Declares ⟨p.location, v⟩ := by
    refine f.shows_parameter hp ⟨?_, ?_⟩
    · rw [hnames]
      exact List.forall_mem_singleton.mpr .name
    · rw [hwords]
      exact List.forall_mem_singleton.mpr (newline_notMem_binding b)
  cases b with
  | field c | part c =>
    dsimp only at hd
    split at hd
    · cases hd
    · obtain rfl := Option.some.inj hd
      exact hshows _ rfl rfl
  | path placeholder | url | query c | header c | body c => cases hd

theorem shows_contentViolations {marks : Marks}
    (hmethod : ∀ x ∈ marks.method, Lexical.checkToken x.token = .ok ()) (bound : List Bound) :
    ∀ v ∈ f.contentViolations marks bound, v.Shows f.Declares := by
  unfold contentViolations
  simp only [List.forall_mem_append]
  refine ⟨⟨⟨⟨⟨⟨forall_mem_when (.ofName rfl rfl .name), forall_mem_when (.ofNone rfl rfl)⟩,
    forall_mem_when (.ofWord rfl rfl (newline_notMem_mark _))⟩,
    forall_mem_when (.ofWord rfl rfl (newline_notMem_mark _))⟩,
    forall_mem_when (.ofNone rfl rfl)⟩, forall_mem_when (.ofNone rfl rfl)⟩, ?_⟩
  split
  · exact List.forall_mem_nil _
  · next method hsome =>
    have hforbidden {label : String} (hlabel : '\n' ∉ label.toList) :
        (Violation.bodyNotAllowed label method.token).Shows f.Declares :=
      ⟨List.forall_mem_nil _,
        forall_mem_pair hlabel (newline_notMem_token (hmethod method hsome))⟩
    refine forall_mem_ite (fun _ => List.forall_mem_nil _) fun _ => ?_
    simp only [List.forall_mem_append]
    exact ⟨⟨forall_mem_when (hforbidden (newline_notMem_role _)),
      forall_mem_when (hforbidden (newline_notMem_mark _))⟩,
      forall_mem_when (hforbidden (newline_notMem_mark _))⟩

/-- **What is reported of a function shows only what it was declared with.** -/
theorem shows_diagnostics : ∀ d ∈ f.diagnostics serializable, d.Shows f.Declares := by
  have hmethod : ∀ x ∈ f.readMarks.1.method, Lexical.checkToken x.token = .ok () :=
    Marks.checkToken_of_addAll Marks.checked_none.method f.marks
  have hresult : ∀ v ∈ (f.returnType.checkReturn serializable (f.readMarks.1.method.getD .get)).2,
      v.Shows f.Declares := fun v hv =>
    (TypeExpr.shows_checkReturn serializable _ f.returnType v hv).mono fun _ => .result
  unfold diagnostics
  simp only [List.forall_mem_append]
  exact ⟨⟨⟨⟨⟨⟨⟨f.shows_here f.shows_formViolations, f.shows_here f.shows_readMarks⟩,
    f.shows_here f.shows_staticHeaders⟩, f.shows_parameterDiagnostics⟩, f.shows_urlStep _⟩,
    f.shows_orphanDiagnostics _⟩, f.shows_here (f.shows_contentViolations hmethod _)⟩,
    f.shows_here hresult⟩

end FunctionDecl

/-! ## Services -/

namespace ServiceDecl

variable (s : ServiceDecl)

theorem shows_ownDiagnostics : ∀ d ∈ s.ownDiagnostics, d.Shows s.Declares := by
  unfold ownDiagnostics
  simp only [List.forall_mem_append]
  refine ⟨⟨⟨⟨forall_mem_when ⟨.file, ?_, ?_⟩, forall_mem_when ⟨.file, .ofName rfl rfl .name⟩⟩,
    forall_mem_when ⟨.file, ?_, ?_⟩⟩, forall_mem_when ⟨.file, .ofName rfl rfl .name⟩⟩,
    List.forall_mem_map.mpr fun p hp => ?_⟩
  · exact List.forall_mem_singleton.mpr .name
  · exact List.forall_mem_singleton.mpr (newline_notMem_kind s.kind)
  · exact forall_mem_pair .name .supertypes
  · exact List.forall_mem_nil _
  · exact ⟨.propertyFile hp, .ofName rfl rfl (.propertyName hp)⟩

/-- **What is reported of a service shows only what it was declared with.** -/
theorem shows_of_mem_diagnostics : ∀ d ∈ s.analyze.diagnostics, d.Shows s.Declares := by
  rw [analyze_diagnostics]
  refine List.forall_mem_append.mpr ⟨s.shows_ownDiagnostics, fun d hd => ?_⟩
  obtain ⟨f, hf, hd⟩ := List.mem_flatMap.mp hd
  have hshows := f.shows_diagnostics d hd
  exact ⟨.function hf hshows.file, hshows.violation.mono fun _ => .function hf⟩

/-- The lines of the report of all that an analysis of the service finds. -/
def reportLines : List (List Char) :=
  Text.lines (Diagnostic.report s.analyze.diagnostics).toList

/-- **A report has a line for each diagnostic, and one more for each line feed of a name that it
shows**; so its lines are the diagnostics exactly when no such name has one.  The names are among
those that the service was declared with. -/
theorem report_lines_iff (s : ServiceDecl) :
    s.reportLines.length = s.analyze.diagnostics.length +
        ((s.analyze.diagnostics.flatMap Diagnostic.names).map Text.lineFeeds).sum ∧
      (s.reportLines = s.analyze.diagnostics.map (fun d => d.entry.toList) ↔
        ∀ d ∈ s.analyze.diagnostics, ∀ n ∈ d.names, '\n' ∉ n.toList) ∧
      ∀ d ∈ s.analyze.diagnostics, ∀ n ∈ d.names, s.Declares n := by
  have hshows : ∀ d ∈ s.analyze.diagnostics, d.Shows s.Declares := s.shows_of_mem_diagnostics
  have hwords : ∀ d ∈ s.analyze.diagnostics, ∀ w ∈ d.violation.words, '\n' ∉ w.toList :=
    fun d hd => (hshows d hd).violation.words
  refine ⟨Diagnostic.length_lines_report hwords, Diagnostic.lines_report_iff hwords, ?_⟩
  intro d hd
  exact List.forall_mem_cons.mpr ⟨(hshows d hd).file, (hshows d hd).violation.names⟩

/-- A service whose static header has a line break in its name. -/
def brokenHeader : ServiceDecl where
  name := "S"
  kind := .interface
  topLevel := true
  supertypes := []
  typeParameters := []
  properties := []
  functions := [{
    name := "f"
    marks := [.http "GET" (some "a") none, .headers ["A\nB: \x07"]]
    isSuspending := true
    hasDefaultBody := false
    typeParameters := []
    parameters := []
    returnType := .named "Unit"
    location := .unknown }]
  serializableTypes := []
  location := .unknown

/-- The name of a header is quoted when it is reported itself, and not when its value is: a line
break in it makes three lines of two diagnostics. -/
theorem report_breaks :
    brokenHeader.analyze.diagnostics.length = 2 ∧
      brokenHeader.reportLines.map String.ofList =
        ["<unknown>:0:0: error: header name \"A\\nB\" is invalid: " ++
          "illegal character '\\n' at position 1",
        "<unknown>:0:0: error: value of header A",
        "B is invalid: illegal character '\\u\x7b7\x7d' at position 0"] := by
  decide +kernel

end ServiceDecl

end HttpService
