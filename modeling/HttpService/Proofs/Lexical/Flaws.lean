import HttpService.Proofs.Lexical
import HttpService.Proofs.Text.Splitting

/-!
# Where a flaw is

A flaw names a character and a position, counted in characters.  For a token and a header value
these are the first character that is not allowed and its place (`firstIllegal_error_iff`).  A media
type has components with rules of their own, each of which begins at some position
(`components`); its flaw is the first character that its component does not allow, in the order of
the components (`Points`), or else the slash that is missing behind a token (`LacksSlash`).
`flaw_located` puts this together for all checks.
-/

namespace HttpService.Lexical

/-- The first character of a text outside a class, and its position. -/
structure FirstOutside (allowed : Char → Bool) (cs : List Char) (c : Char) (p : Nat) : Prop where
  getElem? : cs[p]? = some c
  illegal : allowed c = false
  before : ∀ i < p, ∀ d, cs[i]? = some d → allowed d = true

theorem FirstOutside.cons_iff {allowed : Char → Bool} {a c : Char} {cs : List Char} {p : Nat} :
    FirstOutside allowed (a :: cs) c p ↔
      (p = 0 ∧ a = c ∧ allowed a = false) ∨
        ∃ q, p = q + 1 ∧ allowed a = true ∧ FirstOutside allowed cs c q := by
  constructor
  · rintro ⟨hget, hillegal, hbefore⟩
    cases p with
    | zero =>
      obtain rfl := Option.some.inj hget
      exact Or.inl ⟨rfl, rfl, hillegal⟩
    | succ q =>
      exact Or.inr ⟨q, rfl, hbefore 0 (by omega) a rfl, hget, hillegal,
        fun i hi d hd => hbefore (i + 1) (by omega) d hd⟩
  · rintro (⟨rfl, rfl, hillegal⟩ | ⟨q, rfl, ha, hget, hillegal, hbefore⟩)
    · exact ⟨rfl, hillegal, fun i hi => absurd hi (by omega)⟩
    · refine ⟨hget, hillegal, fun i hi d hd => ?_⟩
      cases i with
      | zero =>
        obtain rfl := Option.some.inj hd
        exact ha
      | succ i => exact hbefore i (by omega) d hd

theorem Flaw.shift_eq_illegal_iff {n p : Nat} {c : Char} {f : Flaw} :
    f.shift n = .illegal c p ↔ ∃ q, p = q + n ∧ f = .illegal c q := by
  cases f with
  | empty => simp [shift]
  | illegal d q =>
    simp only [shift, illegal.injEq]
    constructor
    · rintro ⟨rfl, rfl⟩
      exact ⟨q, rfl, rfl, rfl⟩
    · rintro ⟨q, rfl, rfl, rfl⟩
      exact ⟨rfl, rfl⟩

theorem mapError_shift_iff {n p : Nat} {c : Char} {x : Except Flaw Unit} :
    x.mapError (Flaw.shift n) = .error (.illegal c p) ↔
      ∃ q, p = q + n ∧ x = .error (.illegal c q) := by
  rw [mapError_error_iff]
  constructor
  · rintro ⟨f, hx, hf⟩
    obtain ⟨q, rfl, rfl⟩ := Flaw.shift_eq_illegal_iff.mp hf
    exact ⟨q, rfl, hx⟩
  · rintro ⟨q, rfl, hx⟩
    exact ⟨_, hx, rfl⟩

/-- **The flaw of a text is its first character outside the class.** -/
theorem firstIllegal_error_iff {allowed : Char → Bool} {cs : List Char} {c : Char} {p : Nat} :
    firstIllegal allowed cs = .error (.illegal c p) ↔ FirstOutside allowed cs c p := by
  induction cs generalizing p with
  | nil => exact ⟨nofun, fun h => by cases h.getElem?⟩
  | cons a cs ih =>
    rw [FirstOutside.cons_iff, firstIllegal]
    by_cases ha : allowed a = true
    · rw [if_pos ha, mapError_shift_iff]
      simp [ha, ih]
    · rw [if_neg ha]
      simp [ha, eq_comm, and_comm]

theorem checkTokenChars_error_iff {cs : List Char} {c : Char} {p : Nat} :
    checkTokenChars cs = .error (.illegal c p) ↔ FirstOutside isTokenChar cs c p := by
  cases cs with
  | nil => exact ⟨nofun, fun h => by cases h.getElem?⟩
  | cons a cs => exact firstIllegal_error_iff

/-! ## The components of a media type -/

/-- A part of a text that has a rule of its own: where it begins, its characters, and which ones it
may hold. -/
structure Component where
  start : Nat
  text : List Char
  allows : Char → Bool

/-- A character stands in a component, at a position of the whole text. -/
def Component.HoldsAt (k : Component) (c : Char) (p : Nat) : Prop :=
  k.start ≤ p ∧ k.text[p - k.start]? = some c

def beforeParameters (cs : List Char) : List Char :=
  cs.takeWhile (· != ';')

def parameters (cs : List Char) : Component :=
  ⟨(beforeParameters cs).length, cs.dropWhile (· != ';'), isValueChar⟩

/-- The components of what stands in front of the parameters: the type, and the subtype if there is
a slash, without the white space behind it. -/
def essenceComponents (kind : List Char) : List Component :=
  let top := kind.takeWhile (· != '/')
  if '/' ∈ kind then
    [⟨0, top, isTokenChar⟩,
      ⟨top.length + 1, Text.trimEnd ((kind.dropWhile (· != '/')).drop 1), isTokenChar⟩]
  else [⟨0, top, isTokenChar⟩]

def components (cs : List Char) : List Component :=
  essenceComponents (beforeParameters cs) ++ [parameters cs]

/-- The first illegal character of some components, one after another. -/
inductive Points : List Component → Char → Nat → Prop
  | here {k : Component} {ks : List Component} {c : Char} {p : Nat} :
      FirstOutside k.allows k.text c p → Points (k :: ks) c (p + k.start)
  | later {k : Component} {ks : List Component} {c : Char} {p : Nat} :
      (∀ d ∈ k.text, k.allows d = true) → Points ks c p → Points (k :: ks) c p

/-- A type that is only a token: the flaw is the slash that should follow. -/
structure LacksSlash (kind : List Char) (c : Char) (p : Nat) : Prop where
  slash_notMem : '/' ∉ kind
  ne_nil : kind ≠ []
  isToken : ∀ d ∈ kind, isTokenChar d = true
  character : c = '/'
  position : p = kind.length

/-! ## Components and positions -/

/-- A component is a stretch of a text, from its start on. -/
def Component.StandsIn (k : Component) (cs : List Char) : Prop :=
  ∃ before after, cs = before ++ k.text ++ after ∧ k.start = before.length

theorem Component.StandsIn.append {k : Component} {cs : List Char} (h : k.StandsIn cs)
    (rest : List Char) : k.StandsIn (cs ++ rest) := by
  obtain ⟨before, after, rfl, hstart⟩ := h
  exact ⟨before, after ++ rest, by simp only [List.append_assoc], hstart⟩

theorem Component.StandsIn.end_le {k : Component} {cs : List Char} (h : k.StandsIn cs) :
    k.start + k.text.length ≤ cs.length := by
  obtain ⟨before, after, rfl, hstart⟩ := h
  simp only [List.length_append]
  omega

theorem Component.StandsIn.getElem? {k : Component} {cs : List Char} (h : k.StandsIn cs) {c : Char}
    {p : Nat} (hc : k.HoldsAt c p) : cs[p]? = some c := by
  obtain ⟨before, after, rfl, hstart⟩ := h
  obtain ⟨hle, hget⟩ := hc
  have hlt : p - k.start < k.text.length := (List.getElem?_eq_some_iff.mp hget).1
  rw [List.append_assoc, List.getElem?_append_right (by omega), ← hstart,
    List.getElem?_append_left hlt, hget]

theorem standsIn_of_mem_essenceComponents {kind : List Char} {k : Component}
    (h : k ∈ essenceComponents kind) : k.StandsIn kind := by
  have htop : (Component.mk 0 (kind.takeWhile (· != '/')) isTokenChar).StandsIn kind :=
    ⟨[], kind.dropWhile (· != '/'), by simp, rfl⟩
  unfold essenceComponents at h
  split at h
  · next hslash =>
    rcases List.mem_cons.mp h with rfl | h
    · exact htop
    · obtain rfl := List.mem_singleton.mp h
      -- the white space behind the subtype is the rest of the text
      have hkind := Text.eq_append_cons_of_mem hslash
      generalize (kind.dropWhile (· != '/')).drop 1 = sub at hkind ⊢
      have hsub : Text.trimEnd sub ++ sub.rtakeWhile Text.isBlank = sub :=
        List.rdropWhile_append_rtakeWhile
      refine ⟨kind.takeWhile (· != '/') ++ ['/'], sub.rtakeWhile Text.isBlank, ?_, by simp⟩
      rw [List.append_assoc, hsub, List.append_assoc]
      exact hkind
  · obtain rfl := List.mem_singleton.mp h
    exact htop

theorem standsIn_of_mem_components {cs : List Char} {k : Component} (h : k ∈ components cs) :
    k.StandsIn cs := by
  rcases List.mem_append.mp h with h | h
  · have hkind := (standsIn_of_mem_essenceComponents h).append (cs.dropWhile (· != ';'))
    rwa [beforeParameters, List.takeWhile_append_dropWhile] at hkind
  · obtain rfl := List.mem_singleton.mp h
    refine ⟨beforeParameters cs, [], ?_, rfl⟩
    rw [List.append_nil]
    exact List.takeWhile_append_dropWhile.symm

/-- The components stand one behind the other. -/
theorem pairwise_components (cs : List Char) :
    (components cs).Pairwise fun k k' => k.start + k.text.length ≤ k'.start := by
  refine List.pairwise_append.mpr ⟨?_, List.pairwise_singleton _ _, ?_⟩
  · unfold essenceComponents
    split
    · refine List.pairwise_cons.mpr ⟨?_, List.pairwise_singleton _ _⟩
      intro k hk
      obtain rfl := List.mem_singleton.mp hk
      simp
    · exact List.pairwise_singleton _ _
  · intro k hk k' hk'
    obtain rfl := List.mem_singleton.mp hk'
    exact (standsIn_of_mem_essenceComponents hk).end_le

namespace Points

variable {ks : List Component} {c : Char} {p : Nat}

theorem exists_holdsAt (h : Points ks c p) : ∃ k ∈ ks, k.HoldsAt c p ∧ k.allows c = false := by
  induction h with
  | @here k ks c p hfirst =>
    refine ⟨k, List.mem_cons_self, ⟨Nat.le_add_left _ _, ?_⟩, hfirst.illegal⟩
    rw [Nat.add_sub_cancel]
    exact hfirst.getElem?
  | later _ _ ih =>
    obtain ⟨k, hk, hc⟩ := ih
    exact ⟨k, List.mem_cons_of_mem _ hk, hc⟩

/-- No component in its place holds an illegal character before. -/
theorem allows_of_lt (h : Points ks c p)
    (hsorted : ks.Pairwise fun k k' => k.start + k.text.length ≤ k'.start) :
    ∀ k ∈ ks, ∀ i < p, ∀ d, k.HoldsAt d i → k.allows d = true := by
  induction h with
  | @here k ks c p hfirst =>
    intro k' hk' i hi d hd
    rcases List.mem_cons.mp hk' with rfl | hk'
    · have hlt : i - k'.start < p := by
        have := hd.1
        omega
      exact hfirst.before _ hlt d hd.2
    · -- a later component begins behind the character
      have hstart := (List.pairwise_cons.mp hsorted).1 k' hk'
      have hlength : p < k.text.length := (List.getElem?_eq_some_iff.mp hfirst.getElem?).1
      have := hd.1
      omega
  | @later k ks c p hlegal _ ih =>
    intro k' hk' i hi d hd
    rcases List.mem_cons.mp hk' with rfl | hk'
    · exact hlegal d (List.mem_of_getElem? hd.2)
    · exact ih (List.pairwise_cons.mp hsorted).2 k' hk' i hi d hd

end Points

/-! ## Flaws of a media type -/

theorem Points.append {ks : List Component} {c : Char} {p : Nat} (h : Points ks c p)
    (more : List Component) : Points (ks ++ more) c p := by
  induction h with
  | here hfirst => exact Points.here hfirst
  | later hlegal _ ih => exact Points.later hlegal ih

/-- Components that are all legal are passed over. -/
theorem Points.skip {ks more : List Component} {c : Char} {p : Nat}
    (hlegal : ∀ k ∈ ks, ∀ d ∈ k.text, k.allows d = true) (h : Points more c p) :
    Points (ks ++ more) c p := by
  induction ks with
  | nil => exact h
  | cons k ks ih =>
    rw [List.forall_mem_cons] at hlegal
    exact Points.later hlegal.1 (ih hlegal.2)

theorem checkEssence_eq (kind : List Char) :
    checkEssence kind
      = if '/' ∈ kind then
          checkTokenChars (kind.takeWhile (· != '/')) >>= fun _ =>
            (checkTokenChars (Text.trimEnd ((kind.dropWhile (· != '/')).drop 1))).mapError
              (Flaw.shift ((kind.takeWhile (· != '/')).length + 1))
        else checkTokenChars kind >>= fun _ => .error (.illegal '/' kind.length) := by
  unfold checkEssence
  rw [Text.cut_sign]
  by_cases h : '/' ∈ kind
  · rw [if_pos h, if_pos h]
  · rw [if_neg h, if_neg h]

theorem checkMediaType_eq (s : String) :
    checkMediaType s
      = checkEssence (beforeParameters s.toList) >>= fun _ =>
          (firstIllegal isValueChar (s.toList.dropWhile (· != ';'))).mapError
            (Flaw.shift (beforeParameters s.toList).length) := by
  unfold checkMediaType beforeParameters
  rw [Text.cut_sign]
  by_cases h : ';' ∈ s.toList
  · have hrest : ';' :: (s.toList.dropWhile (· != ';')).drop 1 = s.toList.dropWhile (· != ';') :=
      List.append_cancel_left ((Text.eq_append_cons_of_mem h).symm.trans
        List.takeWhile_append_dropWhile.symm)
    rw [if_pos h, ← hrest]
    rfl
  · obtain ⟨hbefore, hrest⟩ := Text.takeWhile_of_notMem h
    rw [if_neg h, hbefore, hrest]
    cases checkEssence s.toList <;> rfl

theorem legal_of_checkEssence {kind : List Char} (h : checkEssence kind = .ok ()) :
    ∀ k ∈ essenceComponents kind, ∀ d ∈ k.text, k.allows d = true := by
  rw [checkEssence_eq] at h
  unfold essenceComponents
  split at h
  · next hslash =>
    obtain ⟨⟨⟩, htop, hsub⟩ := (bind_ok_iff _ _ _).mp h
    rw [mapError_ok_iff] at hsub
    rw [if_pos hslash]
    refine List.forall_mem_cons.mpr ⟨(checkTokenChars_ok_iff.mp htop).2, ?_⟩
    exact List.forall_mem_singleton.mpr (checkTokenChars_ok_iff.mp hsub).2
  · simp at h

/-- The flaw of a type and a subtype is the first illegal character, or a slash is missing. -/
theorem points_of_checkEssence {kind : List Char} {c : Char} {p : Nat}
    (h : checkEssence kind = .error (.illegal c p)) :
    Points (essenceComponents kind) c p ∨ LacksSlash kind c p := by
  rw [checkEssence_eq] at h
  unfold essenceComponents
  split at h
  · next hslash =>
    rw [if_pos hslash]
    left
    rcases (bind_error_iff _ _ _).mp h with htop | ⟨⟨⟩, htop, hsub⟩
    · exact Points.here (k := ⟨0, _, isTokenChar⟩) (checkTokenChars_error_iff.mp htop)
    · obtain ⟨q, rfl, hflaw⟩ := mapError_shift_iff.mp hsub
      exact Points.later (checkTokenChars_ok_iff.mp htop).2
        (Points.here (k := ⟨_, _, isTokenChar⟩) (checkTokenChars_error_iff.mp hflaw))
  · next hslash =>
    rw [if_neg hslash, (Text.takeWhile_of_notMem hslash).1]
    rcases (bind_error_iff _ _ _).mp h with hkind | ⟨⟨⟩, hkind, hmissing⟩
    · exact Or.inl (Points.here (k := ⟨0, _, isTokenChar⟩) (checkTokenChars_error_iff.mp hkind))
    · obtain ⟨rfl, rfl⟩ := Flaw.illegal.inj (Except.error.inj hmissing)
      obtain ⟨hne, htoken⟩ := checkTokenChars_ok_iff.mp hkind
      exact Or.inr ⟨hslash, hne, htoken, rfl, rfl⟩

/-- **A flaw of a media type is the first illegal character of its components**, unless a slash is
missing. -/
theorem points_of_checkMediaType {s : String} {c : Char} {p : Nat}
    (h : checkMediaType s = .error (.illegal c p)) :
    Points (components s.toList) c p ∨ LacksSlash (beforeParameters s.toList) c p := by
  rw [checkMediaType_eq] at h
  rcases (bind_error_iff _ _ _).mp h with hkind | ⟨⟨⟩, hkind, hparameters⟩
  · exact (points_of_checkEssence hkind).imp_left fun hpoints => hpoints.append _
  · obtain ⟨q, rfl, hflaw⟩ := mapError_shift_iff.mp hparameters
    exact Or.inl (Points.skip (legal_of_checkEssence hkind)
      (Points.here (k := parameters s.toList) (firstIllegal_error_iff.mp hflaw)))

theorem legal_of_checkMediaType {s : String} (h : checkMediaType s = .ok ()) :
    ∀ k ∈ components s.toList, ∀ d ∈ k.text, k.allows d = true := by
  simp only [checkMediaType_eq, bind_ok_iff, mapError_ok_iff, firstIllegal_ok_iff] at h
  obtain ⟨⟨⟩, hkind, hparameters⟩ := h
  refine List.forall_mem_append.mpr ⟨legal_of_checkEssence hkind, ?_⟩
  intro k hk
  obtain rfl := List.mem_singleton.mp hk
  exact hparameters

/-- **A flaw points at the offender.**  For a token, a header name and a header value it is the
first character that is not allowed.  For a media type it is a character of the text that the
component in which it stands does not allow, and the first one, or else the slash that is missing
behind a token; and no media type with an illegal character is accepted. -/
theorem flaw_located (s : String) (c : Char) (p : Nat) :
    (checkToken s = .error (.illegal c p) ↔ FirstOutside isTokenChar s.toList c p) ∧
      (checkHeaderName s = .error (.illegal c p) ↔ FirstOutside isTokenChar s.toList c p) ∧
      (checkHeaderValue s = .error (.illegal c p) ↔ FirstOutside isValueChar s.toList c p) ∧
      (checkMediaType s = .error (.illegal c p) →
        (s.toList[p]? = some c ∧
            (∃ k ∈ components s.toList, k.HoldsAt c p ∧ k.allows c = false) ∧
            ∀ k ∈ components s.toList, ∀ i < p, ∀ d, k.HoldsAt d i → k.allows d = true) ∨
          LacksSlash (beforeParameters s.toList) c p) ∧
      (checkMediaType s = .ok () →
        ∀ k ∈ components s.toList, ∀ d ∈ k.text, k.allows d = true) := by
  refine ⟨checkTokenChars_error_iff, checkTokenChars_error_iff, firstIllegal_error_iff, ?_,
    legal_of_checkMediaType⟩
  intro h
  apply (points_of_checkMediaType h).imp_left
  intro hpoints
  obtain ⟨k, hk, hholds, hillegal⟩ := hpoints.exists_holdsAt
  exact ⟨(standsIn_of_mem_components hk).getElem? hholds, ⟨k, hk, hholds, hillegal⟩,
    hpoints.allows_of_lt (pairwise_components s.toList)⟩

/-- White space behind the subtype and a letter of two bytes come before the offender. -/
theorem flaw_located_parameters :
    checkMediaType "a/b\u3000;é\u0100" = .error (.illegal '\u0100' 6) ∧
      "a/b\u3000;é\u0100".toList[6]? = some '\u0100' ∧
      (∃ k ∈ components "a/b\u3000;é\u0100".toList,
        k.HoldsAt '\u0100' 6 ∧ k.allows '\u0100' = false) ∧
      checkMediaType "a/b;é" = .ok () ∧
      ∀ k ∈ components "a/b;é".toList, ∀ d ∈ k.text, k.allows d = true := by
  have hflaw : checkMediaType "a/b\u3000;é\u0100" = .error (.illegal '\u0100' 6) := by
    decide +kernel
  have hok : checkMediaType "a/b;é" = .ok () := by decide +kernel
  have hlegal := (flaw_located "a/b;é" 'é' 0).2.2.2.2 hok
  rcases (flaw_located _ _ _).2.2.2.1 hflaw with ⟨hget, hcomponent, -⟩ | hmissing
  · exact ⟨hflaw, hget, hcomponent, hok, hlegal⟩
  · cases hmissing.character

end HttpService.Lexical
