import HttpService.Client
import HttpService.Proofs.Argument.Faults
import HttpService.Proofs.Call.Queries
import HttpService.Proofs.Validation.Slots

/-!
# What the checks of a declaration spare a call

A call tests again some of what was tested of its declaration: that an argument of the path is
there, that the template has no traversal segment, that a full URL has a scheme of the web.  For an
endpoint of an analyzed service these tests pass, so their faults never come
(`resolve_discharged`).  The last of them is made on the completed path; it agrees with the one made
on the template because a scheme is written out, and nothing that is substituted behind it can
change what stands before it.
-/

namespace HttpService

/-! ## Schemes of the web -/

/-- The name of a scheme of the web, in letters of either case. -/
def IsWebName (name : List Char) : Prop :=
  (WebScheme.ofName? (String.ofList (name.map Char.toLower))).isSome = true

theorem isWebName_name (s : WebScheme) : IsWebName s.name.toList := by
  cases s <;> unfold IsWebName <;> decide

theorem isAlpha_of_toLower {c : Char} (h : c.toLower.isAlpha = true) : c.isAlpha = true := by
  rcases toLower_cases c with hsame | ⟨hlow, hhigh, -⟩
  · rwa [hsame] at h
  · have hupper : c.isUpper = true := decide_eq_true ⟨hlow, hhigh⟩
    change (c.isUpper || c.isLower) = true
    rw [hupper, Bool.true_or]

theorem IsWebName.isAlpha {name : List Char} (h : IsWebName name) :
    name ≠ [] ∧ ∀ c ∈ name, c.isAlpha = true := by
  have hlower : name.map Char.toLower = "http".toList ∨ name.map Char.toLower = "https".toList := by
    unfold IsWebName WebScheme.ofName? at h
    split at h
    · next hname => exact .inl (String.ofList_injective hname)
    · split at h
      · next hname => exact .inr (String.ofList_injective hname)
      · cases h
  have hletters : "http".toList.all Char.isAlpha = true ∧
      "https".toList.all Char.isAlpha = true := by
    decide
  have hall : (name.map Char.toLower).all Char.isAlpha = true := by
    rcases hlower with hlower | hlower
    · rw [hlower]
      exact hletters.1
    · rw [hlower]
      exact hletters.2
  refine ⟨?_, fun c hc => isAlpha_of_toLower (List.all_eq_true.mp hall _ (List.mem_map_of_mem hc))⟩
  rintro rfl
  revert hlower
  decide

/-- A character that is read as it is, in a scheme and outside of it. -/
structure IsLiteral (c : Char) : Prop where
  urlScheme : Url.isSchemeChar c = true
  templateScheme : Template.isSchemeChar c = true
  edge : Url.isEdge c = false
  path : Resolution.inPath c = false
  ascii : c.toNat < 0x80
  sign : ∀ d ∈ ['#', '?', '\x7b', '\x7d'], c ≠ d

theorem isLiteral_of_isAlpha {c : Char} (h : c.isAlpha = true) : IsLiteral c := by
  have hlow : c.toNat < 0x80 := by
    have halphanum : (c.isAlpha || c.isDigit) = true := by rw [h, Bool.true_or]
    have hbounds := Lexical.toNat_of_isAlphanum halphanum
    omega
  have hall : ∀ n < 0x80, (Char.ofNat n).isAlpha = true →
      Url.isSchemeChar (Char.ofNat n) = true ∧ Template.isSchemeChar (Char.ofNat n) = true ∧
        Url.isEdge (Char.ofNat n) = false ∧ Resolution.inPath (Char.ofNat n) = false ∧
        Char.ofNat n ∉ ['#', '?', '\x7b', '\x7d'] := by
    decide +kernel
  have hc := hall c.toNat hlow
  rw [Char.ofNat_toNat] at hc
  obtain ⟨hurl, htemplate, hedge, hpath, hsign⟩ := hc h
  exact ⟨hurl, htemplate, hedge, hpath, hlow, fun d hd hcd => hsign (hcd ▸ hd)⟩

theorem IsWebName.isLiteral {name : List Char} (h : IsWebName name) : ∀ c ∈ name, IsLiteral c :=
  fun c hc => isLiteral_of_isAlpha (h.isAlpha.2 c hc)

namespace Url

/-- A scheme of the web is read whatever stands behind it. -/
theorem exists_scheme?_clean {name : List Char} (h : IsWebName name) (rest : List Char) :
    ∃ rest', scheme? (clean (name ++ ':' :: rest))
      = some (String.ofList (name.map Char.toLower), rest') := by
  obtain ⟨hne, hletters⟩ := h.isAlpha
  have hedge : ∀ c ∈ name, isEdge c = false := fun c hc => (h.isLiteral c hc).edge
  have hscheme : ∀ c ∈ name, isSchemeChar c = true := fun c hc => (h.isLiteral c hc).urlScheme
  have hclean : ∃ rest', clean (name ++ ':' :: rest) = name ++ ':' :: rest' := by
    cases name with
    | nil => exact absurd rfl hne
    | cons c name =>
      have hstart : List.dropWhile isEdge (c :: name ++ ':' :: rest) = c :: name ++ ':' :: rest :=
        List.dropWhile_cons_of_neg (by simp [hedge c List.mem_cons_self])
      rw [clean, Text.trimBy, hstart, dropEndWhile_append_cons rfl, List.filter_append,
        filter_isSkipped_eq_self hedge]
      exact ⟨_, rfl⟩
  obtain ⟨rest', hclean⟩ := hclean
  refine ⟨rest', ?_⟩
  rw [hclean]
  cases name with
  | nil => exact absurd rfl hne
  | cons c name =>
    have hcolon : isSchemeChar ':' = false := by decide
    rw [List.cons_append, scheme?, if_pos (hletters c List.mem_cons_self), ← List.cons_append,
      List.dropWhile_append_of_pos hscheme, List.takeWhile_append_of_pos hscheme]
    simp [hcolon]

end Url

theorem Resolution.readUrl_ne_unsupportedScheme [DomainNames] {name : List Char}
    (h : IsWebName name) (rest : List Char) (scheme : String) :
    readUrl (String.ofList (name ++ ':' :: rest)) ≠ .error (.unsupportedScheme scheme) := by
  obtain ⟨rest', hscheme⟩ := Url.exists_scheme?_clean h rest
  obtain ⟨web, hweb⟩ := Option.isSome_iff_exists.mp h
  unfold readUrl AnyUrl.parse
  rw [String.toList_ofList, hscheme]
  simp only [hweb]
  cases Url.parseWeb web rest' with
  | ok u => simp [Except.map]
  | error reason => simp [Except.map]

/-! ## Schemes that are written out -/

namespace Template

theorem exists_of_schemeChars? {cs name : List Char} (h : schemeChars? cs = some name) :
    ∃ rest, cs = name ++ ':' :: rest := by
  unfold schemeChars? at h
  split at h
  · cases h
  · next c rest =>
    split at h
    · split at h
      · next rest' hrest =>
        obtain rfl := Option.some.inj h
        refine ⟨rest', ?_⟩
        rw [List.cons_append, ← hrest, List.takeWhile_append_dropWhile]
      · cases h
    · cases h

theorem schemeChars?_append {name : List Char} (h : IsWebName name) (rest : List Char) :
    schemeChars? (name ++ ':' :: rest) = some name := by
  obtain ⟨hne, hletters⟩ := h.isAlpha
  cases name with
  | nil => exact absurd rfl hne
  | cons c name =>
    have hkept : ∀ d ∈ name, isSchemeChar d = true := fun d hd =>
      (h.isLiteral d (List.mem_cons_of_mem c hd)).templateScheme
    have hcolon : isSchemeChar ':' = false := by decide
    rw [List.cons_append, schemeChars?, if_pos (hletters c List.mem_cons_self),
      List.dropWhile_append_of_pos hkept, List.takeWhile_append_of_pos hkept]
    simp [hcolon]

theorem substitute_append {front : List Char} (h : ∀ c ∈ front, c ≠ '\x7b' ∧ c ≠ '\x7d')
    (lookup : String → Option (List Char)) (rest : List Char) :
    substitute lookup (front ++ rest) = front ++ substitute lookup rest := by
  induction front with
  | nil => rfl
  | cons c front ih =>
    rw [List.forall_mem_cons] at h
    have hpieces : pieces (c :: (front ++ rest)) = .plain c :: pieces (front ++ rest) := by
      rw [pieces, piecesAfter, if_neg h.1.1, if_neg h.1.2]
      rfl
    have ih := ih h.2
    unfold substitute at ih ⊢
    rw [List.cons_append, hpieces, List.flatMap_cons, ih]
    rfl

/-- A scheme of the web stays at the start of the path of its template. -/
theorem exists_split_path_append {name : List Char} (h : IsWebName name) (rest : List Char) :
    ∃ rest', (split (name ++ ':' :: rest)).path = name ++ ':' :: rest' := by
  have hkept (sign : Char) (hsign : sign ∈ ['#', '?', '\x7b', '\x7d']) :
      ∀ c ∈ name, (c != sign) = true := fun c hc =>
    bne_iff_ne.mpr ((h.isLiteral c hc).sign sign hsign)
  rw [split_path, beforeFragment, List.takeWhile_append_of_pos (hkept '#' (by decide)),
    List.takeWhile_cons_of_pos (by decide), List.takeWhile_append_of_pos (hkept '?' (by decide)),
    List.takeWhile_cons_of_pos (by decide)]
  exact ⟨_, rfl⟩

end Template

/-! ## Faults of a URL -/

namespace Resolution

theorem rejectTraversal_eq_error {path : List Char} {origin : String} {fault : ResolutionFault}
    (h : rejectTraversal path origin = .error fault) :
    ∃ segment, fault = .traversal ⟨segment, origin⟩ := by
  unfold rejectTraversal at h
  split at h
  · exact ⟨_, (Except.error.inj h).symm⟩
  · cases h

theorem rejectTraversal_ne_error {path : List Char} {origin : String} {fault : ResolutionFault}
    (hpath : ∀ s ∈ Template.segments path, Template.isTraversalSegment s = false) :
    rejectTraversal path origin ≠ .error fault := by
  have hnone : Template.traversalSegment? path = none := by
    simpa [Template.traversalSegment?] using hpath
  rw [rejectTraversal, hnone]
  intro h
  cases h

theorem rejectValueTraversal_eq_error {value : List Char} {parameter : String}
    {fault : ResolutionFault} (h : rejectValueTraversal value parameter = .error fault) :
    ∃ segment, fault = .traversal ⟨segment, "parameter " ++ parameter⟩ := by
  unfold rejectValueTraversal at h
  split at h
  · exact ⟨_, (Except.error.inj h).symm⟩
  · cases h

/-- A path whose scheme, if it is to have one, is one of the web. -/
def HasWebScheme (kind : Template.Kind) (path : List Char) : Prop :=
  kind = .full → ∃ name rest, IsWebName name ∧ path = name ++ ':' :: rest

/-- What is read for a URL begins with a scheme of the web, its own or that of the base. -/
theorem exists_locate {kind : Template.Kind} {path : List Char} (h : HasWebScheme kind path)
    (base : BaseUrl) :
    ∃ name rest, IsWebName name ∧ locate base kind path = .ok (name ++ ':' :: rest) := by
  have horigin : ∃ rest, base.url.originChars = base.url.scheme.name.toList ++ ':' :: rest :=
    ⟨_, rfl⟩
  obtain ⟨origin, horigin⟩ := horigin
  cases kind with
  | protocolRelative => exact ⟨_, _, isWebName_name base.url.scheme, rfl⟩
  | absolute =>
    refine ⟨_, origin ++ Percent.encode inPath path, isWebName_name base.url.scheme, ?_⟩
    rw [locate, horigin, List.append_assoc]
    rfl
  | relative =>
    refine ⟨_, origin ++ base.url.pathChars ++ Percent.encode inPath path,
      isWebName_name base.url.scheme, ?_⟩
    rw [locate, base.chars_eq, horigin]
    simp only [List.append_assoc, List.cons_append]
  | full =>
    obtain ⟨name, rest, hname, rfl⟩ := h rfl
    have hkept : ∀ c ∈ name, c.toNat < 0x80 ∧ inPath c = false := fun c hc =>
      ⟨(hname.isLiteral c hc).ascii, (hname.isLiteral c hc).path⟩
    have hescaped : Percent.encode inPath (name ++ ':' :: rest)
        = name ++ ':' :: Percent.encode inPath rest := by
      rw [Percent.encode, List.flatMap_append, ← Percent.encode, Percent.encode_eq_self hkept]
      rfl
    have hscheme : Template.scheme? (String.ofList (name ++ ':' :: rest))
        = some (String.ofList name) := by
      rw [Template.scheme?, String.toList_ofList, Template.schemeChars?_append hname]
      rfl
    have hweb : (WebScheme.ofName? (Lexical.lower (String.ofList name))).isSome = true := by
      rw [Lexical.lower, String.toList_ofList]
      exact hname
    refine ⟨name, Percent.encode inPath rest, hname, ?_⟩
    simp only [locate, hscheme, Option.getD_some, hweb, if_true, hescaped]

/-- A joined URL faults on a path that traverses, on its scheme or on its text. -/
theorem fault_of_join [DomainNames] {base : BaseUrl} {kind : Template.Kind} {parts : Template.Parts}
    {fault : ResolutionFault} (h : join base kind parts = .error fault) :
    (∃ segment, fault = .traversal ⟨segment, "the resolved path"⟩) ∨
      (∃ scheme, fault = .unsupportedScheme scheme) ∨
        ∃ text reason, fault = .invalid text reason := by
  rcases (bind_error_iff _ _ _).mp h with h | ⟨⟨⟩, -, h⟩
  · exact .inl (rejectTraversal_eq_error h)
  · rcases (bind_error_iff _ _ _).mp h with h | ⟨located, -, h⟩
    · cases kind with
      | full =>
        simp only [locate] at h
        split at h
        · cases h
        · exact .inr (.inl ⟨_, (Except.error.inj h).symm⟩)
      | _ => cases h
    · simp only [readUrl] at h
      split at h
      · cases h
      · exact .inr (.inl ⟨_, (Except.error.inj h).symm⟩)
      · exact .inr (.inr ⟨_, _, (Except.error.inj h).symm⟩)

theorem join_ne_unsupportedScheme [DomainNames] {base : BaseUrl} {kind : Template.Kind}
    {parts : Template.Parts} (hweb : HasWebScheme kind parts.path) (scheme : String) :
    join base kind parts ≠ .error (.unsupportedScheme scheme) := by
  intro h
  obtain ⟨name, rest, hname, hlocated⟩ := exists_locate hweb base
  rcases (bind_error_iff _ _ _).mp h with h | ⟨⟨⟩, -, h⟩
  · obtain ⟨segment, ⟨⟩⟩ := rejectTraversal_eq_error h
  · rw [hlocated, ok_bind] at h
    simp only [List.append_assoc, List.cons_append] at h
    exact readUrl_ne_unsupportedScheme hname _ scheme h

/-- Values that go into a path fault on the first that is no text, or that traverses. -/
theorem pathValues_eq_error_iff {args : Arguments} {path : List PathBinding}
    {fault : ResolutionFault} :
    pathValues args path = .error fault ↔ ∃ front b back, path = front ++ b :: back ∧
      (∀ x ∈ front, ∃ value, pathValue x args = .ok value) ∧ pathValue b args = .error fault := by
  induction path with
  | nil => simp [pathValues]
  | cons b path ih =>
    rw [pathValues, bind_error_iff]
    constructor
    · rintro (h | ⟨value, hvalue, h⟩)
      · exact ⟨[], b, path, rfl, by simp, h⟩
      · rcases (bind_error_iff _ _ _).mp h with h | ⟨values, -, ⟨⟩⟩
        obtain ⟨front, b', back, rfl, hfront, hb⟩ := ih.mp h
        refine ⟨b :: front, b', back, rfl, ?_, hb⟩
        exact List.forall_mem_cons.mpr ⟨⟨value, hvalue⟩, hfront⟩
    · rintro ⟨_ | ⟨x, front⟩, b', back, hpath, hfront, hb⟩
      · obtain ⟨rfl, rfl⟩ := List.cons.inj hpath
        exact .inl hb
      · obtain ⟨rfl, rfl⟩ := List.cons.inj hpath
        rw [List.forall_mem_cons] at hfront
        obtain ⟨⟨value, hvalue⟩, hfront⟩ := hfront
        refine .inr ⟨value, hvalue, (bind_error_iff _ _ _).mpr (.inl (ih.mpr ?_))⟩
        exact ⟨front, b', back, rfl, hfront, hb⟩

theorem fault_of_pathValue {b : PathBinding} {args : Arguments} {fault : ResolutionFault}
    (h : pathValue b args = .error fault) :
    (∃ cause, pathText b.parameter (args.value b.parameter) = .error cause ∧
      fault = .argument cause) ∨
      ∃ segment, fault = .traversal ⟨segment, "parameter " ++ b.parameter⟩ := by
  rcases (bind_error_iff _ _ _).mp h with h | ⟨text, -, h⟩
  · obtain ⟨cause, hcause, rfl⟩ := (mapError_error_iff _ _ _).mp h
    exact .inl ⟨cause, hcause, rfl⟩
  · rcases (bind_error_iff _ _ _).mp h with h | ⟨⟨⟩, -, ⟨⟩⟩
    exact .inr (rejectValueTraversal_eq_error h)

theorem fault_of_pathValues {args : Arguments} {path : List PathBinding} {fault : ResolutionFault}
    (h : pathValues args path = .error fault) :
    ∃ b ∈ path, (∃ cause, pathText b.parameter (args.value b.parameter) = .error cause ∧
      fault = .argument cause) ∨
      ∃ segment, fault = .traversal ⟨segment, "parameter " ++ b.parameter⟩ := by
  obtain ⟨front, b, back, rfl, -, hb⟩ := pathValues_eq_error_iff.mp h
  exact ⟨b, by simp, fault_of_pathValue hb⟩

theorem eq_null_of_pathText {parameter q : String} {a : Argument}
    (h : pathText parameter a = .error (.missing q)) : a = .null := by
  unfold pathText at h
  split at h
  · cases h
  · cases h
  · rcases (bind_error_iff _ _ _).mp h with h | ⟨text, htext, h⟩
    · exact (Argument.isUnwritable_of_toText h).elim
    · cases text with
      | some text => cases h
      | none => exact Argument.eq_null_of_toText htext

theorem eq_null_of_urlText {parameter q : String} {a : Argument}
    (h : urlText parameter a = .error (.missing q)) : a = .null := by
  unfold urlText at h
  split at h
  · cases h
  · rfl
  · cases h

end Resolution

namespace UrlSource

/-- **What can be wrong with the URL of a template**: the template itself, a value of its path, the
completed path, or a value of its queries. -/
theorem fault_of_resolve_template [DomainNames] {text : String} {kind : Template.Kind}
    {path : List PathBinding}
    {queries : List ValueBinding} {base : BaseUrl} {args : Arguments} {fault : ResolutionFault}
    (h : resolve (.template text kind path queries) base args = .error fault) :
    let parts := Template.split text.toList
    Resolution.rejectTraversal parts.path "the URL template" = .error fault ∨
      Resolution.pathValues args path = .error fault ∨
      (∃ lookup, Resolution.join base kind ⟨Template.substitute lookup parts.path, parts.query,
        parts.fragment⟩ = .error fault) ∨
      ∃ cause, bindingPairs queries args = .error cause ∧ fault = .argument cause := by
  intro parts
  rcases (bind_error_iff _ _ _).mp h with h | ⟨u, -, h⟩
  · rcases (bind_error_iff _ _ _).mp h with h | ⟨⟨⟩, -, h⟩
    · exact .inl h
    · rcases (bind_error_iff _ _ _).mp h with h | ⟨values, -, h⟩
      · exact .inr (.inl h)
      · exact .inr (.inr (.inl ⟨_, h⟩))
  · rcases (bind_error_iff _ _ _).mp h with h | ⟨pairs, -, ⟨⟩⟩
    obtain ⟨cause, hcause, rfl⟩ := (mapError_error_iff _ _ _).mp h
    exact .inr (.inr (.inr ⟨cause, hcause, rfl⟩))

/-- **What can be wrong with a URL that is an argument**: that it is no text or traverses, what it
makes with the base, or a value of its queries. -/
theorem fault_of_resolve_dynamic [DomainNames] {parameter : String} {queries : List ValueBinding}
    {base : BaseUrl} {args : Arguments} {fault : ResolutionFault}
    (h : resolve (.dynamic parameter queries) base args = .error fault) :
    (∃ cause, Resolution.urlText parameter (args.value parameter) = .error cause ∧
      fault = .argument cause) ∨
      (∃ segment, fault = .traversal ⟨segment, "parameter " ++ parameter⟩) ∨
      (∃ kind parts, Resolution.join base kind parts = .error fault) ∨
      ∃ cause, bindingPairs queries args = .error cause ∧ fault = .argument cause := by
  rcases (bind_error_iff _ _ _).mp h with h | ⟨u, -, h⟩
  · rcases (bind_error_iff _ _ _).mp h with h | ⟨text, -, h⟩
    · obtain ⟨cause, hcause, rfl⟩ := (mapError_error_iff _ _ _).mp h
      exact .inl ⟨cause, hcause, rfl⟩
    · rcases (bind_error_iff _ _ _).mp h with h | ⟨⟨⟩, -, h⟩
      · exact .inr (.inl (Resolution.rejectValueTraversal_eq_error h))
      · exact .inr (.inr (.inl ⟨_, _, h⟩))
  · rcases (bind_error_iff _ _ _).mp h with h | ⟨pairs, -, ⟨⟩⟩
    obtain ⟨cause, hcause, rfl⟩ := (mapError_error_iff _ _ _).mp h
    exact .inr (.inr (.inr ⟨cause, hcause, rfl⟩))

/-- The parameters without which there is no URL. -/
def required : UrlSource → List String
  | .template _ _ path _ => path.map (·.parameter)
  | .dynamic parameter _ => [parameter]

/-- An argument is missing for a URL only if it is null and there is no URL without it. -/
theorem eq_null_of_resolve_missing [DomainNames] {source : UrlSource} {base : BaseUrl}
    {args : Arguments}
    {q : String} (h : source.resolve base args = .error (.argument (.missing q))) :
    ∃ n ∈ source.required, args.value n = .null := by
  cases source with
  | template text kind path queries =>
    rcases fault_of_resolve_template h with h | h | ⟨lookup, h⟩ | ⟨cause, h, ⟨⟩⟩
    · obtain ⟨segment, ⟨⟩⟩ := Resolution.rejectTraversal_eq_error h
    · obtain ⟨b, hb, ⟨cause, h, ⟨⟩⟩ | ⟨segment, ⟨⟩⟩⟩ := Resolution.fault_of_pathValues h
      exact ⟨b.parameter, List.mem_map_of_mem hb, Resolution.eq_null_of_pathText h⟩
    · rcases Resolution.fault_of_join h with ⟨_, ⟨⟩⟩ | ⟨_, ⟨⟩⟩ | ⟨_, _, ⟨⟩⟩
    · exact (isUnwritable_of_bindingPairs h).elim
  | dynamic parameter queries =>
    rcases fault_of_resolve_dynamic h with ⟨cause, h, ⟨⟩⟩ | ⟨_, ⟨⟩⟩ | ⟨_, _, h⟩ | ⟨cause, h, ⟨⟩⟩
    · exact ⟨parameter, List.mem_cons_self, Resolution.eq_null_of_urlText h⟩
    · rcases Resolution.fault_of_join h with ⟨_, ⟨⟩⟩ | ⟨_, ⟨⟩⟩ | ⟨_, _, ⟨⟩⟩
    · exact (isUnwritable_of_bindingPairs h).elim

end UrlSource

/-! ## What was checked of a declaration -/

namespace ParameterDecl

variable {serializable : List String} {p : ParameterDecl} {role : Role}

theorem violations_of_lower_path {placeholder : String}
    (h : p.lower serializable role = (.path placeholder, [])) :
    p.pathViolations = [] ∧ p.type.violations serializable .argument = [] := by
  cases role with
  | path name =>
    have hnone := congrArg Prod.snd h
    simp only [lower, List.append_eq_nil_iff] at hnone
    exact ⟨hnone.1.2, hnone.2⟩
  | _ => cases congrArg Prod.fst h

theorem urlViolations_of_lower_url (h : p.lower serializable role = (.url, [])) :
    p.urlViolations = [] := by
  cases role with
  | url => exact congrArg Prod.snd h
  | _ => cases congrArg Prod.fst h

end ParameterDecl

namespace FunctionDecl

variable {serializable : List String} {f : FunctionDecl} {e : Endpoint}

theorem mem_parameters_of_endpoint? (h : f.endpoint? serializable = some e) {p : ParameterDecl}
    (hp : p ∈ f.parameters) : ⟨p.name, p.type⟩ ∈ e.parameters := by
  obtain ⟨-, method, url, -, -, rfl⟩ := endpoint?_eq_some_iff.mp h
  exact List.mem_map.mpr ⟨p, hp, rfl⟩

/-- A placeholder is filled by a parameter with whose type nothing is wrong. -/
theorem exists_path_parameter (h : f.endpoint? serializable = some e) {text : String}
    {kind : Template.Kind} {path : List PathBinding} {queries : List ValueBinding}
    (hurl : e.url = .template text kind path queries) {b : PathBinding} (hb : b ∈ path) :
    ∃ p ∈ f.parameters, p.name = b.parameter ∧ p.pathViolations = [] ∧
      p.type.violations serializable .argument = [] := by
  have hslot : ⟨b.parameter, .path b.placeholder⟩ ∈ e.slots := by
    simp only [Endpoint.slots, hurl, UrlSource.slots, List.mem_append, List.mem_map]
    exact .inl (.inl (.inl ⟨b, hb, rfl⟩))
  obtain ⟨p, hp, hname, role, -, hlower⟩ := exists_lower_of_mem_slots h hslot
  exact ⟨p, hp, hname, ParameterDecl.violations_of_lower_path hlower⟩

theorem exists_required (h : f.endpoint? serializable = some e) {n : String}
    (hn : n ∈ e.url.required) : ∃ p ∈ e.parameters, p.name = n ∧ p.type.nullable = false := by
  cases hurl : e.url with
  | template text kind path queries =>
    rw [hurl] at hn
    obtain ⟨b, hb, rfl⟩ := List.mem_map.mp hn
    obtain ⟨p, hp, hname, hviolations, -⟩ := exists_path_parameter h hurl hb
    refine ⟨_, mem_parameters_of_endpoint? h hp, hname, ?_⟩
    by_contra hnullable
    simp [ParameterDecl.pathViolations, hnullable] at hviolations
  | dynamic parameter queries =>
    rw [hurl] at hn
    obtain rfl := List.mem_singleton.mp hn
    have hslot : ⟨n, .url⟩ ∈ e.slots := by
      simp [Endpoint.slots, hurl, UrlSource.slots]
    obtain ⟨p, hp, hname, role, -, hlower⟩ := exists_lower_of_mem_slots h hslot
    have hviolations := ParameterDecl.urlViolations_of_lower_url hlower
    refine ⟨_, mem_parameters_of_endpoint? h hp, hname, ?_⟩
    by_contra hnullable
    simp [ParameterDecl.urlViolations, hnullable] at hviolations

end FunctionDecl

theorem Client.value_ne_null_of_requireArguments {args : Arguments} {ps : List Parameter}
    (h : requireArguments args ps = .ok ()) :
    ∀ p ∈ ps, p.type.nullable = false → args.value p.name ≠ .null := by
  induction ps with
  | nil => simp
  | cons p ps ih =>
    rw [requireArguments] at h
    split at h
    · cases h
    · next hthere =>
      refine List.forall_mem_cons.mpr ⟨fun hnullable hnull => hthere ?_, ih h⟩
      simp [hnullable, hnull, Argument.isNull]

/-- The path of a well formed template, completed with any values, keeps a scheme of the web. -/
theorem Template.WellFormed.hasWebScheme {text : String} {kind : Kind} {path : List PathBinding}
    (h : WellFormed text kind path) (lookup : String → Option (List Char)) :
    Resolution.HasWebScheme kind (substitute lookup (split text.toList).path) := by
  intro hfull
  obtain ⟨scheme, hscheme, hname⟩ := h.scheme hfull
  obtain ⟨name, hchars, rfl⟩ := Option.map_eq_some_iff.mp hscheme
  have hweb : IsWebName name := by
    rw [Lexical.lower, String.toList_ofList] at hname
    rcases hname with hname | hname
    · rw [IsWebName, hname]
      rfl
    · rw [IsWebName, hname]
      rfl
  obtain ⟨rest, hrest⟩ := exists_of_schemeChars? hchars
  obtain ⟨rest', hsplit⟩ := exists_split_path_append hweb rest
  have hplain : ∀ c ∈ name ++ [':'], c ≠ '\x7b' ∧ c ≠ '\x7d' := by
    intro c hc
    rcases List.mem_append.mp hc with hc | hc
    · have hne := (hweb.isLiteral c hc).sign
      exact ⟨hne _ (by decide), hne _ (by decide)⟩
    · obtain rfl := List.mem_singleton.mp hc
      decide
  refine ⟨name, substitute lookup rest', hweb, ?_⟩
  rw [hrest, hsplit, List.append_cons, substitute_append hplain, List.append_assoc]
  rfl

theorem Endpoint.WellFormed.template {e : Endpoint} (h : e.WellFormed) {text : String}
    {kind : Template.Kind} {path : List PathBinding} {queries : List ValueBinding}
    (hurl : e.url = .template text kind path queries) : Template.WellFormed text kind path := by
  have hwell := h.url
  rwa [hurl] at hwell

namespace UrlSource

variable {text : String} {kind : Template.Kind} {path : List PathBinding}
  {queries : List ValueBinding} {base : BaseUrl} {args : Arguments}

/-- The scheme of a well formed template is supported, whatever the values are. -/
theorem resolve_ne_unsupportedScheme [DomainNames] (hwell : Template.WellFormed text kind path)
    (scheme : String) :
    resolve (.template text kind path queries) base args ≠ .error (.unsupportedScheme scheme) := by
  intro h
  rcases fault_of_resolve_template h with h | h | ⟨lookup, h⟩ | ⟨cause, h, ⟨⟩⟩
  · obtain ⟨segment, ⟨⟩⟩ := Resolution.rejectTraversal_eq_error h
  · obtain ⟨b, -, ⟨cause, h, ⟨⟩⟩ | ⟨segment, ⟨⟩⟩⟩ := Resolution.fault_of_pathValues h
  · exact Resolution.join_ne_unsupportedScheme (hwell.hasWebScheme lookup) scheme h

/-- A well formed template is no traversal; the values and the completed path may be, and the fault
names them. -/
theorem resolve_ne_traversal [DomainNames] (hwell : Template.WellFormed text kind path)
    (segment : String) :
    resolve (.template text kind path queries) base args
      ≠ .error (.traversal ⟨segment, "the URL template"⟩) := by
  intro h
  rcases fault_of_resolve_template h with h | h | ⟨lookup, h⟩ | ⟨cause, h, ⟨⟩⟩
  · exact Resolution.rejectTraversal_ne_error hwell.traversal h
  · obtain ⟨b, -, ⟨cause, h, ⟨⟩⟩ | ⟨segment', h⟩⟩ := Resolution.fault_of_pathValues h
    have horigin : "the URL template" = "parameter " ++ b.parameter :=
      congrArg Traversal.origin (ResolutionFault.traversal.inj h)
    simpa using congrArg String.toList horigin
  · rcases Resolution.fault_of_join h with ⟨segment', h⟩ | ⟨_, ⟨⟩⟩ | ⟨_, _, ⟨⟩⟩
    have horigin : "the URL template" = "the resolved path" :=
      congrArg Traversal.origin (ResolutionFault.traversal.inj h)
    exact absurd horigin (by decide)

end UrlSource

/-- **What is tested of a declaration need not be tested of a call.**  For an endpoint of an
analyzed service and arguments that pass the test for null, no argument is missing for the URL; and
if the URL is a template, the template is no traversal and its scheme is supported, whatever the
values are. -/
theorem resolve_discharged [DomainNames] {s : ServiceDecl} {service : Service}
    (hs : s.analyze.service = some service) {e : Endpoint} (he : e ∈ service.endpoints)
    (base : BaseUrl) {args : Arguments}
    (hargs : Client.requireArguments args e.parameters = .ok ()) :
    (∀ p, e.url.resolve base args ≠ .error (.argument (.missing p))) ∧
      ∀ text kind path queries, e.url = .template text kind path queries →
        (∀ scheme, e.url.resolve base args ≠ .error (.unsupportedScheme scheme)) ∧
        ∀ segment, e.url.resolve base args ≠ .error (.traversal ⟨segment, "the URL template"⟩) := by
  obtain ⟨f, -, hf⟩ := ServiceDecl.exists_of_mem_service hs he
  constructor
  · intro q h
    obtain ⟨n, hn, hnull⟩ := UrlSource.eq_null_of_resolve_missing h
    obtain ⟨p, hp, rfl, hnullable⟩ := FunctionDecl.exists_required hf hn
    exact Client.value_ne_null_of_requireArguments hargs p hp hnullable hnull
  · intro text kind path queries hurl
    have hwell := (FunctionDecl.wellFormed_of_endpoint? hf).template hurl
    rw [hurl]
    exact ⟨UrlSource.resolve_ne_unsupportedScheme hwell, UrlSource.resolve_ne_traversal hwell⟩

/-- A value that looks like another scheme, behind one that is written in capitals. -/
theorem resolve_discharged_upload :
    ∃ args base, uploadService.analyze.service = some ⟨"SClient", "S", [uploadEndpoint]⟩ ∧
      Client.requireArguments args uploadEndpoint.parameters = .ok () ∧
      args.value "book" = .string "ftp://h/" ∧ BaseUrl.parse "http://x/" = .ok base ∧
      (∀ p, uploadEndpoint.url.resolve base args ≠ .error (.argument (.missing p))) ∧
      ∀ scheme, uploadEndpoint.url.resolve base args ≠ .error (.unsupportedScheme scheme) := by
  let args : Arguments := .ofList [("n", .int 1), ("book", .string "ftp://h/"), ("q", .map []),
    ("h", .string "v"), ("p", .list [])]
  let u : Url := ⟨⟨⟨[], none⟩, .domain ['x'], none⟩, .http, [[]], none, none⟩
  let base : BaseUrl := ⟨u, rfl, rfl, rfl⟩
  have hs : uploadService.analyze.service = some ⟨"SClient", "S", [uploadEndpoint]⟩ := by
    decide +kernel
  have hargs : Client.requireArguments args uploadEndpoint.parameters = .ok () := by
    decide +kernel
  have hbase : BaseUrl.parse "http://x/" = .ok base :=
    BaseUrl.parse_eq_ok_iff.mpr (by decide +kernel)
  obtain ⟨hthere, htemplate⟩ := resolve_discharged hs List.mem_cons_self base hargs
  exact ⟨args, base, hs, hargs, rfl, hbase, hthere, (htemplate _ _ _ _ rfl).1⟩

end HttpService
