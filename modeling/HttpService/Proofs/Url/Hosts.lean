import HttpService.Proofs.Text.Decoding
import HttpService.Proofs.Text.Percent
import HttpService.Proofs.Text.Splitting
import HttpService.Url.Host
import Mathlib.Data.List.TakeWhile
import Mathlib.Data.Nat.Digits.Defs

/-!
# Hosts read back

A host that was read is read again from its text (`Host.parse_chars`).  A domain name holds only
characters that a reader keeps (`isNameChar`).  The four numbers of an IPv4 address are written
without leading zeros, so that none of them is read as octal.  The eight pieces of an IPv6 address
are written with the first longest run of zeros left out; the two colons in its place are the only
two in a row, and as many zeros are put back as pieces are missing.
-/

namespace HttpService.Host

/-! ## Digits -/

theorem digit?_digitChar : ∀ n < 16, digit? 16 n.digitChar = some n := by
  decide

theorem natOfDigits?_toDigits (n : Nat) : natOfDigits? 16 (Nat.toDigits 16 n) = some n := by
  induction n using Nat.base_induction 16 (by decide) with
  | single m hm =>
    rw [Nat.toDigits_of_lt_base hm]
    simp [natOfDigits?, digit?_digitChar m hm]
  | digit m k hk hm ih =>
    obtain ⟨ds, hds, hvalue⟩ := Option.map_eq_some_iff.mp ih
    rw [← Nat.toDigits_append_toDigits (by decide) hm hk, Nat.toDigits_of_lt_base hk, natOfDigits?,
      List.mapM_append, hds]
    simp [digit?_digitChar k hk, hvalue, Nat.mul_comm]

theorem digitChar_ne_sign : ∀ k < 16, k.digitChar ∉ [':', '.', '[', ']', '@'] := by
  decide

theorem notMem_toDigits {sign : Char} (h : sign ∈ [':', '.', '[', ']', '@']) (n : Nat) :
    sign ∉ Nat.toDigits 16 n := by
  intro hmem
  obtain ⟨k, hk, rfl⟩ := Text.exists_digitChar (by decide) sign hmem
  exact digitChar_ne_sign k hk h

/-! ## IPv6 -/

theorem ipv6Piece?_toDigits (p : UInt16) : ipv6Piece? (Nat.toDigits 16 p.toNat) = some p.toNat := by
  have hlength : (Nat.toDigits 16 p.toNat).length ≤ 4 :=
    (Nat.length_toDigits_le_iff (by decide) (by decide)).mpr p.toNat_lt
  have hne : (Nat.toDigits 16 p.toNat).isEmpty = false := by
    simp
  rw [ipv6Piece?, if_neg (by simpa [hne] using hlength), natOfDigits?_toDigits]

theorem splitAll_joinPieces {ps : List UInt16} (h : ps ≠ []) :
    Text.splitAll (· == ':') (joinPieces ps) = ps.map fun p => Nat.toDigits 16 p.toNat := by
  refine Text.splitAll_intercalate (fun l hl => ?_) (by simpa using h)
  obtain ⟨p, -, rfl⟩ := List.mem_map.mp hl
  exact notMem_toDigits (by decide) p.toNat

theorem mapM_ipv6Piece? (ps : List UInt16) :
    (ps.map fun p => Nat.toDigits 16 p.toNat).mapM ipv6Piece? = some (ps.map UInt16.toNat) := by
  induction ps with
  | nil => rfl
  | cons p ps ih => simp [List.mapM_cons, ipv6Piece?_toDigits, ih]

theorem joinPieces_cons_cons (p q : UInt16) (ps : List UInt16) :
    joinPieces (p :: q :: ps) = Nat.toDigits 16 p.toNat ++ ':' :: joinPieces (q :: ps) := by
  rw [joinPieces, List.map_cons, List.map_cons, List.intercalate_cons_cons]
  simp [joinPieces]

theorem exists_joinPieces_eq {ps : List UInt16} (h : ps ≠ []) :
    ∃ c rest, joinPieces ps = c :: rest ∧ c ≠ ':' := by
  have hdigits (p : UInt16) : ∃ c rest, Nat.toDigits 16 p.toNat = c :: rest ∧ c ≠ ':' := by
    have hne : Nat.toDigits 16 p.toNat ≠ [] := Nat.toDigits_ne_nil
    have hcolon : ':' ∉ Nat.toDigits 16 p.toNat := notMem_toDigits (by decide) p.toNat
    obtain ⟨c, rest, hc⟩ := List.exists_cons_of_ne_nil hne
    refine ⟨c, rest, hc, ?_⟩
    rintro rfl
    exact hcolon (by simp [hc])
  cases ps with
  | nil => exact absurd rfl h
  | cons p ps =>
    obtain ⟨c, rest, hc, hne⟩ := hdigits p
    cases ps with
    | nil => exact ⟨c, rest, by simp [joinPieces, hc], hne⟩
    | cons q ps => exact ⟨c, _, by rw [joinPieces_cons_cons, hc]; rfl, hne⟩

theorem ipv6Group?_joinPieces (tail : Bool) (ps : List UInt16) :
    ipv6Group? tail (joinPieces ps) = some (ps.map UInt16.toNat) := by
  rcases List.eq_nil_or_concat' ps with rfl | ⟨front, last, rfl⟩
  · rfl
  · have hne : front ++ [last] ≠ [] := by simp
    obtain ⟨c, rest, hc, -⟩ := exists_joinPieces_eq hne
    have hdot : '.' ∉ Nat.toDigits 16 last.toNat := notMem_toDigits (by decide) last.toNat
    have hsplit : (Text.splitAll (· == ':') (joinPieces (front ++ [last]))).reverse
        = Nat.toDigits 16 last.toNat :: (front.map fun p => Nat.toDigits 16 p.toNat).reverse := by
      rw [splitAll_joinPieces hne, List.map_append, List.reverse_append]
      rfl
    rw [ipv6Group?, if_neg (by simp [hc])]
    dsimp only
    rw [hsplit]
    simp only [List.reverse_reverse, mapM_ipv6Piece?, ipv6Piece?_toDigits, List.contains_eq_mem,
      hdot, decide_false, Bool.and_false, Bool.false_eq_true, if_false, Option.bind_eq_bind,
      Option.bind_some, Option.map_some, Option.pure_def, List.map_append, List.map_cons,
      List.map_nil]

/-! ### Two colons in a row -/

theorem cutDoubleColon_append {front : List Char} (h : ':' ∉ front) (rest : List Char) :
    cutDoubleColon (front ++ rest)
      = (cutDoubleColon rest).map fun r => (front ++ r.1, r.2) := by
  induction front with
  | nil => simp
  | cons c front ih =>
    rw [List.mem_cons, not_or] at h
    rw [List.cons_append, cutDoubleColon, ih h.2, Option.map_map]
    · rfl
    · rintro _ rfl
      exact absurd rfl h.1

theorem cutDoubleColon_colon {c : Char} (h : c ≠ ':') (rest : List Char) :
    cutDoubleColon (':' :: c :: rest)
      = (cutDoubleColon (c :: rest)).map fun r => (':' :: r.1, r.2) := by
  rw [cutDoubleColon]
  rintro _ - hrest
  exact h (List.cons.inj hrest).1

/-- Joined pieces hold no two colons in a row, and do not end in a colon. -/
theorem cutDoubleColon_joinPieces (ps : List UInt16) (rest : List Char) :
    cutDoubleColon (joinPieces ps ++ rest)
      = (cutDoubleColon rest).map fun r => (joinPieces ps ++ r.1, r.2) := by
  induction ps with
  | nil => simp [joinPieces]
  | cons p ps ih =>
    have hp : ':' ∉ Nat.toDigits 16 p.toNat := notMem_toDigits (by decide) p.toNat
    cases ps with
    | nil =>
      have hsingle : joinPieces [p] = Nat.toDigits 16 p.toNat := by simp [joinPieces]
      rw [hsingle, cutDoubleColon_append hp]
    | cons q ps =>
      obtain ⟨c, more, hmore, hc⟩ := exists_joinPieces_eq (List.cons_ne_nil q ps)
      rw [joinPieces_cons_cons, List.append_assoc, List.cons_append, cutDoubleColon_append hp]
      rw [hmore, List.cons_append] at ih ⊢
      rw [cutDoubleColon_colon hc, ih, Option.map_map, Option.map_map]
      simp [Function.comp_def]

/-! ### The run that is left out -/

theorem eq_replicate_append_of_leadingZeros (ps : List UInt16) :
    ∃ back, ps = List.replicate (leadingZeros ps) 0 ++ back := by
  refine ⟨ps.dropWhile (· == 0), ?_⟩
  have hzeros : ps.takeWhile (· == 0) = List.replicate (leadingZeros ps) 0 := by
    refine List.eq_replicate_iff.mpr ⟨rfl, fun p hp => ?_⟩
    simpa using List.mem_takeWhile_imp hp
  rw [← hzeros, List.takeWhile_append_dropWhile]

/-- A longest run of zeros is one: what it stands for is where it says. -/
theorem exists_longestZeros_eq (i : Nat) (ps : List UInt16) :
    (longestZeros i ps).2 = 0 ∨ ∃ front back,
      ps = front ++ List.replicate (longestZeros i ps).2 0 ++ back ∧
        (longestZeros i ps).1 = i + front.length := by
  induction ps generalizing i with
  | nil => exact Or.inl rfl
  | cons p ps ih =>
    rw [longestZeros]
    split
    · obtain ⟨back, hback⟩ := eq_replicate_append_of_leadingZeros (p :: ps)
      exact Or.inr ⟨[], back, hback, rfl⟩
    · rcases ih (i + 1) with hzero | ⟨front, back, hps, hstart⟩
      · exact Or.inl hzero
      · refine Or.inr ⟨p :: front, back, ?_, ?_⟩
        · rw [List.cons_append, List.cons_append, ← hps]
        · rw [hstart, List.length_cons]
          omega

/-- **The eight pieces of an address are read back.** -/
theorem ipv6?_ipv6Chars {ps : List UInt16} (h : ps.length = 8) : ipv6? (ipv6Chars ps) = some ps := by
  have hback (l : List UInt16) : (l.map UInt16.toNat).map UInt16.ofNat = l := by
    simp [List.map_map, Function.comp_def]
  rw [ipv6Chars]
  dsimp only
  by_cases hshort : (longestZeros 0 ps).2 < 2
  · have hcut : cutDoubleColon (joinPieces ps) = none := by
      rw [← List.append_nil (joinPieces ps), cutDoubleColon_joinPieces]
      rfl
    rw [if_pos hshort, ipv6?, hcut]
    simp [ipv6Group?_joinPieces, h, Function.comp_def]
  · rw [if_neg hshort]
    rcases exists_longestZeros_eq 0 ps with hzero | ⟨front, back, hps, hstart⟩
    · omega
    · generalize longestZeros 0 ps = run at hshort hps hstart
      obtain ⟨start, length⟩ := run
      dsimp only at hshort hps hstart ⊢
      rw [Nat.zero_add] at hstart
      subst hstart hps
      have htotal : front.length + length + back.length = 8 := by
        rw [← h, List.length_append, List.length_append, List.length_replicate]
      have htake : (front ++ List.replicate length 0 ++ back).take front.length = front := by simp
      have hdrop : (front ++ List.replicate length 0 ++ back).drop (front.length + length)
          = back := by
        rw [List.drop_append_of_le_length (by simp)]
        simp
      have hcut : cutDoubleColon (joinPieces front ++ ':' :: ':' :: joinPieces back)
          = some (joinPieces front, joinPieces back) := by
        rw [cutDoubleColon_joinPieces, cutDoubleColon]
        simp
      have hmissing : 8 - front.length - back.length = length := by omega
      rw [htake, hdrop, ipv6?, hcut]
      simp only [ipv6Group?_joinPieces, List.length_map, Option.bind_eq_bind, Option.bind_some,
        hmissing, if_pos (show front.length + back.length ≤ 7 by omega), List.map_append, hback,
        List.map_replicate]
      rfl

theorem length_of_ipv6? {cs : List Char} {ps : List UInt16} (h : ipv6? cs = some ps) :
    ps.length = 8 := by
  unfold ipv6? at h
  split at h
  · simp only [Option.bind_eq_bind, Option.bind_eq_some_iff, Option.ite_none_right_eq_some,
      Option.some.injEq] at h
    obtain ⟨pieces, -, hlength, rfl⟩ := h
    rw [List.length_map, hlength]
  · simp only [Option.bind_eq_bind, Option.bind_eq_some_iff, Option.ite_none_right_eq_some,
      Option.some.injEq] at h
    obtain ⟨front, -, back, -, hlength, rfl⟩ := h
    simp only [List.length_map, List.length_append, List.length_replicate]
    omega

/-! ## Domain names -/

theorem ne_of_isNameChar {c : Char} (h : isNameChar c = true) {sign : Char}
    (hsign : sign ∈ [':', '[', ']', '@', '%']) : c ≠ sign := by
  have hsigns : [':', '[', ']', '@', '%'].all (fun sign => !isNameChar sign) = true := by decide
  rintro rfl
  have hnot := List.all_eq_true.mp hsigns c hsign
  rw [h] at hnot
  cases hnot

/-- A name that was read is read as it is written. -/
theorem decodeLossy_decodeText {cs : List Char} (h : ∀ c ∈ cs, isNameChar c = true) :
    Utf8.decodeLossy (Percent.decodeText cs) = cs := by
  have hpercent : ∀ b ∈ Utf8.encode cs, b ≠ 0x25 := by
    intro b hb
    obtain ⟨c, hc, hb⟩ := List.mem_flatMap.mp hb
    exact Percent.ne_of_mem_utf8EncodeChar (ne_of_isNameChar (h c hc) (by decide)) hb
  have hkept := Percent.decode_append_of_ne hpercent []
  rw [List.append_nil] at hkept
  have hempty : Percent.decode [] = [] := rfl
  rw [Percent.decodeText, hkept, hempty, List.append_nil, Utf8.decodeLossy_encode]

/-! ## IPv4 -/

theorem ipv4Number?_digitsOf : ∀ n < 256, ipv4Number? (Text.digitsOf n) = some n := by
  decide +kernel

theorem isNameChar_of_mem_digitsOf {n : Nat} : ∀ c ∈ Text.digitsOf n, isNameChar c = true := by
  intro c hc
  have hdigit := Nat.isDigit_of_mem_toDigits (by omega) (Nat.le_refl 10) hc
  have hall : ∀ k < 0x80, (Char.ofNat k).isDigit = true → isNameChar (Char.ofNat k) = true := by
    decide +kernel
  have hascii : c.toNat ≤ 57 := (Char.isDigit_iff_toNat.mp hdigit).2
  have hname := hall c.toNat (by omega)
  rw [Char.ofNat_toNat] at hname
  exact hname hdigit

/-- The bytes of an address, the highest first. -/
def ipv4Bytes (address : UInt32) : List Nat :=
  [3, 2, 1, 0].map fun k => address.toNat / 256 ^ k % 256

theorem ipv4Chars_eq (address : UInt32) :
    ipv4Chars address = ['.'].intercalate ((ipv4Bytes address).map Text.digitsOf) := by
  simp [ipv4Chars, ipv4Bytes, List.intercalate, List.intersperse]

theorem splitAll_ipv4Chars (address : UInt32) :
    Text.splitAll (· == '.') (ipv4Chars address) = (ipv4Bytes address).map Text.digitsOf := by
  rw [ipv4Chars_eq]
  refine Text.splitAll_intercalate (fun l hl hdot => ?_) (by simp [ipv4Bytes])
  obtain ⟨n, -, rfl⟩ := List.mem_map.mp hl
  have hdigit := Nat.isDigit_of_mem_toDigits (by omega) (Nat.le_refl 10) hdot
  revert hdigit
  decide

theorem dropEmptyLast_digits (address : UInt32) :
    dropEmptyLast ((ipv4Bytes address).map Text.digitsOf) = (ipv4Bytes address).map Text.digitsOf := by
  have hne (n : Nat) : Text.digitsOf n ≠ [] := Nat.toDigits_ne_nil
  simp only [dropEmptyLast, ipv4Bytes, List.map_cons, List.map_nil, List.reverse_cons,
    List.reverse_nil, List.nil_append, List.cons_append]
  split
  · next h => exact absurd (List.cons.inj h).1 (hne _)
  · rfl

theorem ipv4OfNumbers?_ipv4Bytes (address : UInt32) :
    ipv4OfNumbers? (ipv4Bytes address) = some address := by
  have haddress := address.toNat_lt
  obtain ⟨n, hn⟩ : ∃ n, address.toNat = n := ⟨_, rfl⟩
  have hreverse : (ipv4Bytes address).reverse
      = [n % 256, n / 256 % 256, n / 65536 % 256, n / 16777216 % 256] := by
    simp [ipv4Bytes, hn]
  have hbytes : ¬ ((decide (3 < 3) || [n / 16777216 % 256, n / 65536 % 256, n / 256 % 256].any
      (255 < ·) || decide (Nat.pow 256 1 ≤ n % 256)) = true) := by
    rw [show Nat.pow 256 1 = 256 from rfl]
    simp only [List.any_cons, List.any_nil, Bool.or_eq_true, decide_eq_true_eq, Bool.false_eq_true,
      or_false]
    omega
  have hwhole : (((0 * 256 + n / 16777216 % 256) * 256 + n / 65536 % 256) * 256 + n / 256 % 256)
      * Nat.pow 256 1 + n % 256 = n := by
    rw [show Nat.pow 256 1 = 256 from rfl]
    omega
  rw [ipv4OfNumbers?, hreverse]
  refine (if_neg hbytes).trans (congrArg some ?_)
  show UInt32.ofNat ((((0 * 256 + n / 16777216 % 256) * 256 + n / 65536 % 256) * 256
    + n / 256 % 256) * Nat.pow 256 1 + n % 256) = address
  rw [hwhole, ← hn, UInt32.ofNat_toNat]

/-- **The four bytes of an address are read back.** -/
theorem ipv4?_ipv4Chars (address : UInt32) : ipv4? (ipv4Chars address) = some address := by
  have hnumbers : ((ipv4Bytes address).map Text.digitsOf).mapM ipv4Number?
      = some (ipv4Bytes address) := by
    have hbyte (k : Nat) : ipv4Number? (Text.digitsOf (address.toNat / 256 ^ k % 256))
        = some (address.toNat / 256 ^ k % 256) :=
      ipv4Number?_digitsOf _ (Nat.mod_lt _ (by decide))
    simp only [ipv4Bytes, List.map_cons, List.map_nil, List.mapM_cons, List.mapM_nil, hbyte]
    rfl
  rw [ipv4?, splitAll_ipv4Chars, dropEmptyLast_digits, hnumbers]
  refine (if_neg ?_).trans (ipv4OfNumbers?_ipv4Bytes address)
  simp [ipv4Bytes]

theorem endsInNumber_ipv4Chars (address : UInt32) : endsInNumber (ipv4Chars address) = true := by
  have hlast : ((ipv4Bytes address).map Text.digitsOf).getLast?
      = some (Text.digitsOf (address.toNat / 256 ^ 0 % 256)) := rfl
  have hdigits : (Text.digitsOf (address.toNat / 256 ^ 0 % 256)).all Char.isDigit = true :=
    List.all_eq_true.mpr fun c hc => Nat.isDigit_of_mem_toDigits (by omega) (Nat.le_refl 10) hc
  have hne : (Text.digitsOf (address.toNat / 256 ^ 0 % 256)).isEmpty = false := by
    simp [Text.digitsOf]
  rw [endsInNumber, splitAll_ipv4Chars, dropEmptyLast_digits, hlast]
  simp only [hne, hdigits, Bool.not_false, Bool.and_self, Bool.true_or]

theorem isNameChar_ipv4Chars (address : UInt32) :
    ∀ c ∈ ipv4Chars address, isNameChar c = true := by
  have dot : isNameChar '.' = true := by decide
  intro c hc
  simp only [ipv4Chars, List.append_assoc, List.cons_append, List.mem_append,
    List.mem_cons] at hc
  rcases hc with hc | rfl | hc | rfl | hc | rfl | hc
  · exact isNameChar_of_mem_digitsOf c hc
  · exact dot
  · exact isNameChar_of_mem_digitsOf c hc
  · exact dot
  · exact isNameChar_of_mem_digitsOf c hc
  · exact dot
  · exact isNameChar_of_mem_digitsOf c hc

/-- An address needs no tables to be a name. -/
theorem toAscii?_ipv4Chars [DomainNames] (address : UInt32) :
    DomainNames.toAscii? (ipv4Chars address) = some (ipv4Chars address) := by
  have hname := isNameChar_ipv4Chars address
  have hplain : isPlainName (ipv4Chars address) = true := by
    rw [isPlainName, map_toLower_eq_self hname, splitAll_ipv4Chars, Bool.and_eq_true,
      List.all_eq_true, List.all_eq_true]
    constructor
    · intro c hc
      have hc := hname c hc
      simp only [isNameChar, Bool.and_eq_true] at hc
      exact hc.1.1
    · intro label hlabel
      obtain ⟨n, -, rfl⟩ := List.mem_map.mp hlabel
      -- a number does not begin with a letter
      rw [Bool.not_eq_true', Bool.eq_false_iff]
      intro hprefix
      have hx : 'x' ∈ Text.digitsOf n :=
        (List.isPrefixOf_iff_prefix.mp hprefix).subset List.mem_cons_self
      have hdigit := Nat.isDigit_of_mem_toDigits (by omega) (Nat.le_refl 10) hx
      cases hdigit
  rw [DomainNames.toAscii?_plain hplain, lowerName?_eq_self hname]

/-! ## Hosts -/

/-- What a text is read as that is no address in brackets and holds what a domain name may. -/
theorem parse_of_isNameChar [DomainNames] {name : List Char} (h : ∀ c ∈ name, isNameChar c = true)
    (hascii : DomainNames.toAscii? name = some name) (hne : name ≠ []) :
    parse name = if endsInNumber name then
        match ipv4? name with
        | some address => .ok (.ipv4 address)
        | none => .error .invalidIpv4
      else .ok (.domain name) := by
  cases name with
  | nil => exact absurd rfl hne
  | cons c rest =>
    have hbracket : c ≠ '[' := ne_of_isNameChar (h c List.mem_cons_self) (by decide)
    have hname : DomainNames.toAscii? (Utf8.decodeLossy (Percent.decodeText (c :: rest)))
        = some (c :: rest) := by
      rw [decodeLossy_decodeText h, hascii]
    rw [parse]
    · split
      · next hnone => cases hname.symm.trans hnone
      · next hnil => cases hname.symm.trans hnil
      · next name _ hsome =>
        obtain rfl := Option.some.inj (hname.symm.trans hsome)
        rfl
    · rintro _ heq
      exact hbracket (List.cons.inj heq).1

theorem parse_cases [DomainNames] {cs : List Char} {host : Host} (h : parse cs = .ok host) :
    (∃ ps, host = .ipv6 ps ∧ ps.length = 8) ∨ (∃ address, host = .ipv4 address) ∨
      ∃ name, host = .domain name ∧ name ≠ [] ∧ (∀ c ∈ name, isNameChar c = true) ∧
        endsInNumber name = false ∧ DomainNames.toAscii? name = some name := by
  unfold parse at h
  split at h
  · unfold bracketed? at h
    split at h
    · split at h
      · next ps hps => exact Or.inl ⟨ps, (Except.ok.inj h).symm, length_of_ipv6? hps⟩
      · cases h
    · cases h
  · split at h
    · cases h
    · cases h
    · next name hnil hname =>
      split at h
      · split at h
        · next address _ => exact Or.inr (Or.inl ⟨address, (Except.ok.inj h).symm⟩)
        · cases h
      · next hnumber =>
        refine Or.inr (Or.inr ⟨name, (Except.ok.inj h).symm, ?_,
          DomainNames.isNameChar_of_toAscii? hname, by simpa using hnumber,
          DomainNames.toAscii?_again hname⟩)
        rintro rfl
        exact hnil rfl

/-- **A host that was read is read back from its text.** -/
theorem parse_chars [DomainNames] {cs : List Char} {host : Host} (h : parse cs = .ok host) :
    parse host.chars = .ok host := by
  rcases parse_cases h with
    ⟨ps, rfl, hlength⟩ | ⟨address, rfl⟩ | ⟨name, rfl, hne, hchars, hnumber, hascii⟩
  · have hlast : (ipv6Chars ps ++ [']']).getLast? = some ']' := List.getLast?_concat
    rw [chars, List.cons_append, parse, bracketed?, hlast]
    simp only [List.dropLast_concat, ipv6?_ipv6Chars hlength]
  · have hne : ipv4Chars address ≠ [] := by simp [ipv4Chars]
    rw [chars, parse_of_isNameChar (isNameChar_ipv4Chars address) (toAscii?_ipv4Chars address) hne,
      if_pos (endsInNumber_ipv4Chars address), ipv4?_ipv4Chars]
  · rw [chars, parse_of_isNameChar hchars hascii hne, if_neg (by simp [hnumber])]

theorem notMem_joinPieces {sign : Char} (h : sign ∈ ['[', ']', '@']) (ps : List UInt16) :
    sign ∉ joinPieces ps := by
  have hdigit : sign ∈ [':', '.', '[', ']', '@'] := List.mem_cons_of_mem _ (List.mem_cons_of_mem _ h)
  have hcolon : sign ≠ ':' := by
    rintro rfl
    revert h
    decide
  induction ps with
  | nil => simp [joinPieces]
  | cons p ps ih =>
    cases ps with
    | nil => simpa [joinPieces] using notMem_toDigits hdigit p.toNat
    | cons q ps =>
      rw [joinPieces_cons_cons, List.mem_append, List.mem_cons]
      rintro (hp | rfl | hrest)
      · exact notMem_toDigits hdigit p.toNat hp
      · exact hcolon rfl
      · exact ih hrest

theorem chars_cases [DomainNames] {cs : List Char} {host : Host} (h : parse cs = .ok host) :
    (∀ c ∈ host.chars, isNameChar c = true) ∨
      ∃ pieces, host.chars = '[' :: pieces ++ [']'] ∧ ∀ sign ∈ ['[', ']', '@'], sign ∉ pieces := by
  rcases parse_cases h with ⟨ps, rfl, -⟩ | ⟨address, rfl⟩ | ⟨name, rfl, -, hchars, -⟩
  · refine Or.inr ⟨ipv6Chars ps, rfl, fun sign hsign => ?_⟩
    have hcolon : sign ≠ ':' := by
      rintro rfl
      revert hsign
      decide
    rw [ipv6Chars]
    dsimp only
    split
    · exact notMem_joinPieces hsign ps
    · simp only [List.mem_append, List.mem_cons, not_or]
      exact ⟨notMem_joinPieces hsign _, hcolon, hcolon, notMem_joinPieces hsign _⟩
  · exact Or.inl (isNameChar_ipv4Chars address)
  · exact Or.inl hchars

end HttpService.Host
