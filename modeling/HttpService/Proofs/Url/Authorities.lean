import HttpService.Proofs.Text.Decoding
import HttpService.Proofs.Url.Written

/-!
# Authorities read back

An authority that was read is read again from its text (`Url.authority_chars`).  The user is what
stands before the last `@`, since neither a host nor a port holds one, and nothing in it is left to
escape; the port is what stands after the first colon outside brackets, since no host holds
another; and a port that was kept is not the one that is left out.
-/

namespace HttpService

namespace Url

/-! ## Users -/

/-- A character of a user name or a password once it is escaped. -/
def isUserChar (c : Char) : Bool :=
  c.toNat < 0x80 && !inUserInfo c

theorem isUserChar_encode (cs : List Char) :
    ∀ c ∈ Percent.encode inUserInfo cs, isUserChar c = true :=
  Percent.forall_mem_encode (by decide) fun c _ hlt hin => by simp [isUserChar, hlt, hin]

theorem encode_eq_self_of_isUserChar {cs : List Char} (h : ∀ c ∈ cs, isUserChar c = true) :
    Percent.encode inUserInfo cs = cs := by
  refine Percent.encode_eq_self fun c hc => ?_
  simpa [isUserChar] using h c hc

theorem encode_ne_nil {escaped : Char → Bool} {cs : List Char} (h : cs ≠ []) :
    Percent.encode escaped cs ≠ [] := by
  cases cs with
  | nil => exact absurd rfl h
  | cons c cs =>
    rw [Percent.encode_cons]
    unfold Percent.encodeChar
    split
    · simp
    · cases hbytes : String.utf8EncodeChar c with
      | nil => exact absurd hbytes String.utf8EncodeChar_ne_nil
      | cons b bs => simp [Percent.escape]

/-- What users are read: both parts escaped, and no empty password. -/
theorem readUserInfo_cases (cs : List Char) :
    (∀ c ∈ (readUserInfo cs).username, isUserChar c = true) ∧
      ∀ p ∈ (readUserInfo cs).password, p ≠ [] ∧ ∀ c ∈ p, isUserChar c = true := by
  unfold readUserInfo
  split
  · exact ⟨isUserChar_encode cs, by simp⟩
  · next name password _ =>
    refine ⟨isUserChar_encode name, ?_⟩
    by_cases hempty : password.isEmpty
    · simp [hempty]
    · simp only [hempty, Bool.false_eq_true, if_false, Option.mem_some_iff, forall_eq']
      exact ⟨encode_ne_nil (by simpa using hempty), isUserChar_encode password⟩

theorem readUserInfo_append {name : List Char} {password : Option (List Char)}
    (hname : ∀ c ∈ name, isUserChar c = true)
    (hpassword : ∀ p ∈ password, p ≠ [] ∧ ∀ c ∈ p, isUserChar c = true) :
    readUserInfo (name ++ (password.map (':' :: ·)).getD []) = ⟨name, password⟩ := by
  have hcolon : ∀ c ∈ name, (c == ':') = false := by
    intro c hc
    rw [beq_eq_false_iff_ne]
    rintro rfl
    exact absurd (hname _ hc) (by decide)
  unfold readUserInfo
  cases password with
  | none =>
    rw [Option.map_none, Option.getD_none, List.append_nil, Text.cut_eq_none.mpr hcolon]
    simp only [encode_eq_self_of_isUserChar hname]
  | some p =>
    obtain ⟨hne, hchars⟩ := hpassword p rfl
    rw [Option.map_some, Option.getD_some, Text.cut_append_cons (by decide) hcolon]
    simp [encode_eq_self_of_isUserChar hname, encode_eq_self_of_isUserChar hchars, hne]

theorem cutLastAt_append {rest : List Char} (h : '@' ∉ rest) (front : List Char) :
    cutLastAt (front ++ '@' :: rest) = some (front, rest) := by
  have hcut : Text.cut (· == '@') (rest.reverse ++ '@' :: front.reverse)
      = some (rest.reverse, front.reverse) := by
    refine Text.cut_append_cons (by decide) (fun c hc => ?_) _
    rw [beq_eq_false_iff_ne]
    rintro rfl
    exact h (List.mem_reverse.mp hc)
  rw [cutLastAt, List.reverse_append, List.reverse_cons, List.append_assoc, List.singleton_append,
    hcut]
  simp

theorem cutLastAt_eq_none {cs : List Char} (h : '@' ∉ cs) : cutLastAt cs = none := by
  have hcut : Text.cut (· == '@') cs.reverse = none := by
    refine Text.cut_eq_none.mpr fun c hc => ?_
    rw [beq_eq_false_iff_ne]
    rintro rfl
    exact h (List.mem_reverse.mp hc)
  rw [cutLastAt, hcut]
  rfl

/-- A user that was read is read back in front of a text without `@`. -/
theorem cutLastAt_userInfo (user : List Char) {rest : List Char} (h : '@' ∉ rest) :
    ∃ front, (cutLastAt ((readUserInfo user).chars ++ rest)).getD ([], (readUserInfo user).chars ++ rest)
      = (front, rest) ∧ readUserInfo front = readUserInfo user := by
  obtain ⟨hname, hpassword⟩ := readUserInfo_cases user
  generalize readUserInfo user = u at hname hpassword
  unfold UserInfo.chars
  split
  · next hempty =>
    obtain ⟨hn, hp⟩ := Bool.and_eq_true_iff.mp hempty
    refine ⟨[], ?_, ?_⟩
    · rw [List.nil_append, cutLastAt_eq_none h]
      rfl
    · obtain ⟨name, password⟩ := u
      obtain rfl : name = [] := by simpa using hn
      obtain rfl : password = none := by simpa using hp
      rfl
  · refine ⟨_, ?_, readUserInfo_append hname hpassword⟩
    rw [List.append_assoc, List.singleton_append, cutLastAt_append h]
    rfl

/-! ## Ports -/

theorem cutPort_outside {front : List Char} (h : ∀ c ∈ front, c ≠ ':' ∧ c ≠ '[')
    (rest : List Char) :
    cutPort false (front ++ rest)
      = (front ++ (cutPort false rest).1, (cutPort false rest).2) := by
  induction front with
  | nil => rfl
  | cons c front ih =>
    rw [List.forall_mem_cons] at h
    rw [List.cons_append, cutPort]
    simp [h.1, ih h.2]

theorem cutPort_inside {front : List Char} (h : ']' ∉ front) (rest : List Char) :
    cutPort true (front ++ ']' :: rest)
      = (front ++ ']' :: (cutPort false rest).1, (cutPort false rest).2) := by
  induction front with
  | nil => rw [List.nil_append, cutPort]; simp
  | cons c front ih =>
    rw [List.mem_cons, not_or] at h
    rw [List.cons_append, cutPort]
    simp [Ne.symm h.1, ih h.2]

/-- The text of a port, with its colon. -/
theorem cutPort_port (port : Option (List Char)) :
    cutPort false ((port.map (':' :: ·)).getD []) = ([], port) := by
  cases port with
  | none => rfl
  | some digits => rw [Option.map_some, Option.getD_some, cutPort]; simp

theorem cutPort_host [DomainNames] {cs : List Char} {host : Host} (h : Host.parse cs = .ok host)
    (port : Option (List Char)) :
    cutPort false (host.chars ++ (port.map (':' :: ·)).getD []) = (host.chars, port) := by
  rcases Host.chars_cases h with hname | ⟨pieces, hchars, hsigns⟩
  · have hplain : ∀ c ∈ host.chars, c ≠ ':' ∧ c ≠ '[' := fun c hc =>
      ⟨Host.ne_of_isNameChar (hname c hc) (by decide),
        Host.ne_of_isNameChar (hname c hc) (by decide)⟩
    rw [cutPort_outside hplain, cutPort_port, List.append_nil]
  · rw [hchars, List.cons_append, List.cons_append, List.append_assoc, List.singleton_append,
      cutPort]
    simp [cutPort_inside (hsigns ']' (by decide)), cutPort_port]

theorem port?_digitsOf (p : UInt16) : port? (Text.digitsOf p.toNat) = .ok (some p.toNat) := by
  have hne : (Text.digitsOf p.toNat).isEmpty = false := by simp [Text.digitsOf]
  have hdigits : (Text.digitsOf p.toNat).all Char.isDigit = true :=
    List.all_eq_true.mpr fun c hc => Nat.isDigit_of_mem_toDigits (by omega) (Nat.le_refl 10) hc
  have hle : p.toNat ≤ 65535 := Nat.le_of_lt_succ p.toNat_lt
  rw [port?, hne, hdigits, Text.natOfDigits_digitsOf]
  simp [hle]

theorem le_of_port? {cs : List Char} {n : Nat} (h : port? cs = .ok (some n)) : n ≤ 65535 := by
  unfold port? at h
  split at h
  · cases h
  · split at h
    · dsimp only at h
      split at h
      · next hle =>
        obtain rfl := Option.some.inj (Except.ok.inj h)
        exact hle
      · cases h
    · cases h

theorem ne_of_kept {defaultPort : Nat} {port : Option Nat} (h : ∀ n ∈ port, n ≤ 65535) :
    ∀ p ∈ (port.filter (· ≠ defaultPort)).map UInt16.ofNat, p.toNat ≠ defaultPort := by
  intro p hp
  obtain ⟨n, hn, rfl⟩ := Option.map_eq_some_iff.mp hp
  obtain ⟨rfl, hne⟩ := Option.filter_eq_some_iff.mp hn
  rw [UInt16.toNat_ofNat_of_lt' (Nat.lt_succ_of_le (h n rfl))]
  simpa using hne

theorem keep_port {defaultPort : Nat} {port : Option UInt16}
    (h : ∀ p ∈ port, p.toNat ≠ defaultPort) :
    ((port.map UInt16.toNat).filter (· ≠ defaultPort)).map UInt16.ofNat = port := by
  cases port with
  | none => rfl
  | some p => simp [Option.filter, h p rfl]

/-! ## Authorities -/

theorem at_notMem_host [DomainNames] {cs : List Char} {host : Host} (h : Host.parse cs = .ok host)
    (port : Option UInt16) :
    '@' ∉ host.chars ++ (port.map fun p => ':' :: Text.digitsOf p.toNat).getD [] := by
  have hhost : '@' ∉ host.chars := by
    rcases Host.chars_cases h with hname | ⟨pieces, hchars, hsigns⟩
    · intro hmem
      have hne : '@' ≠ '@' := Host.ne_of_isNameChar (hname _ hmem) (by decide)
      exact hne rfl
    · rw [hchars]
      simp [hsigns '@' (by decide)]
  rw [List.mem_append, not_or]
  refine ⟨hhost, ?_⟩
  cases port with
  | none => simp
  | some p =>
    rw [Option.map_some, Option.getD_some, List.mem_cons, not_or]
    refine ⟨by decide, fun hmem => ?_⟩
    have hdigit := Nat.isDigit_of_mem_toDigits (by omega) (Nat.le_refl 10) hmem
    revert hdigit
    decide

/-- **An authority that was read is read back from its text.** -/
theorem authority_chars [DomainNames] {defaultPort : Nat} {cs : List Char} {a : Authority}
    (h : authority defaultPort cs = .ok a) : authority defaultPort a.chars = .ok a := by
  unfold authority at h
  dsimp only at h
  split at h
  · simp at h
  · simp only [bind_ok_iff, pure_ok_iff] at h
    obtain ⟨host, hhost, number, hnumber, rfl⟩ := h
    have hle : ∀ n ∈ number, n ≤ 65535 := by
      rintro n rfl
      generalize (cutPort false _).2 = text at hnumber
      cases text with
      | none => cases hnumber
      | some text => exact le_of_port? hnumber
    have hkept : ∀ p ∈ (number.filter (· ≠ defaultPort)).map UInt16.ofNat,
        p.toNat ≠ defaultPort := ne_of_kept hle
    generalize (number.filter (· ≠ defaultPort)).map UInt16.ofNat = port at hkept
    generalize ((cutLastAt cs).getD ([], cs)).1 = user
    obtain ⟨front, hfront, huser⟩ := cutLastAt_userInfo user (at_notMem_host hhost port)
    have hchars : (⟨readUserInfo user, host, port⟩ : Authority).chars = (readUserInfo user).chars
        ++ (host.chars ++ (port.map fun p => ':' :: Text.digitsOf p.toNat).getD []) :=
      List.append_assoc _ _ _
    have hport := cutPort_host hhost (port.map fun p => Text.digitsOf p.toNat)
    rw [Option.map_map, Function.comp_def] at hport
    have hempty : host.chars.isEmpty = false := by
      simpa using (chars_of_parse_host hhost).1
    have hread : ((port.map fun p => Text.digitsOf p.toNat).map port?).getD (.ok none)
        = .ok (port.map UInt16.toNat) := by
      cases port with
      | none => rfl
      | some p => exact port?_digitsOf p
    rw [hchars, authority, hfront]
    dsimp only
    rw [hport]
    simp only [hempty, Host.parse_chars hhost, hread, huser, Bool.false_eq_true, if_false]
    exact congrArg (fun kept => Except.ok (Authority.mk (readUserInfo user) host kept))
      (keep_port hkept)

end Url

theorem AnyUrl.authority_of_parse [DomainNames] {s : String} {u : Url}
    (h : AnyUrl.parse s = .ok (.web u)) :
    Url.authority u.scheme.defaultPort u.toAuthority.chars = .ok u.toAuthority := by
  unfold AnyUrl.parse at h
  split at h
  · cases h
  · split at h
    · obtain ⟨v, hv, he⟩ := (map_ok_iff _ _ _).mp h
      obtain rfl := AnyUrl.web.inj he
      simp only [Url.parseWeb, Url.cutAuthority, bind_ok_iff, map_ok_iff, pure_ok_iff] at hv
      obtain ⟨_, ⟨a, ha, rfl⟩, rfl⟩ := hv
      exact Url.authority_chars ha
    · obtain ⟨_, -, he⟩ := (map_ok_iff _ _ _).mp h
      cases he

end HttpService
