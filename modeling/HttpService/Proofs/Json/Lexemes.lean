import Mathlib.Tactic.IntervalCases
import HttpService.Json.Lexeme
import HttpService.Json.Printer
import HttpService.Proofs.Success
import HttpService.Proofs.Text.Decoding
import HttpService.Proofs.Text.Percent
import HttpService.Proofs.Text.Splitting

/-!
# Reading a string or a number that was written

The reader of a string takes a character that was written in one step, if it is an escape, or byte
by byte (`exists_stringBody_escapeChar`), and so the whole string (`stringBody_encode`).  The reader
of a number takes the digits of a number that fits into 64 bits as that number
(`number_digitsOf`).
-/

namespace HttpService.Json

open Lexeme

/-! ## Strings -/

/-- Bytes that stand for themselves are taken one by one. -/
theorem stringBody_plain {bs : Bytes} (h : ∀ b ∈ bs, b ≠ 0x22 ∧ b ≠ 0x5C ∧ ¬ b < 0x20) (fuel : Nat)
    (acc rest : Bytes) :
    stringBody (fuel + bs.length) acc (bs ++ rest) = stringBody fuel (bs.reverse ++ acc) rest := by
  induction bs generalizing acc with
  | nil => rfl
  | cons b bs ih =>
    obtain ⟨⟨hquote, hslash, hcontrol⟩, hbs⟩ := List.forall_mem_cons.mp h
    have hcons : stringBody (fuel + (b :: bs).length) acc (b :: bs ++ rest)
        = stringBody (fuel + bs.length) (b :: acc) (bs ++ rest) := by
      show stringBody (fuel + bs.length + 1) acc (b :: (bs ++ rest)) = _
      rw [stringBody, if_neg hquote, if_neg hslash, if_neg hcontrol]
    rw [hcons, ih hbs]
    simp

theorem escaped_control {n : Nat} (hn : n < 0x20) (rest : Bytes) :
    ∃ more, Utf8.encode (escapeChar (Char.ofNat n)) = 0x5C :: more ∧
      escaped (more ++ rest) = .ok (String.utf8EncodeChar (Char.ofNat n), rest) := by
  interval_cases n <;> exact ⟨_, rfl, rfl⟩

/-- A character that is escaped is a control character or one of two signs, and its escape is read
back. -/
theorem escaped_escapeChar {c : Char} (hc : c = '"' ∨ c = '\\' ∨ c.toNat < 0x20) (rest : Bytes) :
    ∃ more, Utf8.encode (escapeChar c) = 0x5C :: more ∧
      escaped (more ++ rest) = .ok (String.utf8EncodeChar c, rest) := by
  rcases hc with rfl | rfl | hc
  · exact ⟨_, rfl, rfl⟩
  · exact ⟨_, rfl, rfl⟩
  · obtain ⟨more, hmore⟩ := escaped_control hc rest
    rw [Char.ofNat_toNat] at hmore
    exact ⟨more, hmore⟩

theorem escapeChar_of_not {c : Char} (hc : ¬ (c = '"' ∨ c = '\\' ∨ c.toNat < 0x20)) :
    escapeChar c = [c] := by
  simp only [not_or] at hc
  obtain ⟨hquote, hslash, hcontrol⟩ := hc
  have hne {d : Char} (hd : d.toNat < 0x20) : c ≠ d := by
    rintro rfl
    exact hcontrol hd
  rw [escapeChar, if_neg hquote, if_neg hslash, if_neg (hne (by decide)), if_neg (hne (by decide)),
    if_neg (hne (by decide)), if_neg (hne (by decide)), if_neg (hne (by decide)), if_neg hcontrol]

theorem plain_of_toNat {b : UInt8} (hquote : b.toNat ≠ 0x22) (hslash : b.toNat ≠ 0x5C)
    (hcontrol : 0x20 ≤ b.toNat) : b ≠ 0x22 ∧ b ≠ 0x5C ∧ ¬ b < 0x20 := by
  refine ⟨?_, ?_, ?_⟩
  · rintro rfl
    exact hquote rfl
  · rintro rfl
    exact hslash rfl
  · rw [UInt8.lt_iff_toNat_lt]
    exact Nat.not_lt.mpr hcontrol

theorem plain_utf8EncodeChar {c : Char} (hc : ¬ (c = '"' ∨ c = '\\' ∨ c.toNat < 0x20)) :
    ∀ b ∈ String.utf8EncodeChar c, b ≠ 0x22 ∧ b ≠ 0x5C ∧ ¬ b < 0x20 := by
  simp only [not_or, ← Char.toNat_inj] at hc
  obtain ⟨hquote, hslash, hcontrol⟩ := hc
  intro b hb
  by_cases hlow : c.toNat < 0x80
  · rw [Utf8.utf8EncodeChar_of_lt hlow, List.mem_singleton] at hb
    have hbyte : b.toNat = c.toNat := by
      rw [hb, UInt8.toNat_ofNat_of_lt' (Nat.lt_of_lt_of_le hlow (by decide))]
    rw [← hbyte] at hquote hslash hcontrol
    exact plain_of_toNat hquote hslash (Nat.le_of_not_lt hcontrol)
  · have hbyte := Utf8.le_of_mem_utf8EncodeChar (Nat.le_of_not_lt hlow) hb
    exact plain_of_toNat (by omega) (by omega) (by omega)

/-- A character that was written is taken in some steps, at most one for each byte. -/
theorem exists_stringBody_escapeChar (c : Char) (rest : Bytes) :
    ∃ steps ≤ (Utf8.encode (escapeChar c)).length, ∀ fuel acc,
      stringBody (fuel + steps) acc (Utf8.encode (escapeChar c) ++ rest)
        = stringBody fuel ((String.utf8EncodeChar c).reverse ++ acc) rest := by
  by_cases hc : c = '"' ∨ c = '\\' ∨ c.toNat < 0x20
  · obtain ⟨more, hmore, hescaped⟩ := escaped_escapeChar hc rest
    refine ⟨1, by simp [hmore], fun fuel acc => ?_⟩
    rw [hmore, List.cons_append, stringBody, if_neg (by decide), if_pos rfl, hescaped]
  · have hbytes : Utf8.encode (escapeChar c) = String.utf8EncodeChar c := by
      rw [escapeChar_of_not hc, Utf8.encode_cons]
      exact List.append_nil _
    rw [hbytes]
    exact ⟨_, Nat.le_refl _, fun fuel acc => stringBody_plain (plain_utf8EncodeChar hc) fuel acc rest⟩

/-- **A string that was written is read back.** -/
theorem stringBody_encode (cs done : List Char) (rest : Bytes) {fuel : Nat}
    (hfuel : (Utf8.encode (cs.flatMap escapeChar)).length < fuel) :
    stringBody fuel (Utf8.encode done).reverse
        (Utf8.encode (cs.flatMap escapeChar) ++ 0x22 :: rest)
      = .ok (String.ofList (done ++ cs), rest) := by
  induction cs generalizing done fuel with
  | nil =>
    obtain ⟨fuel, rfl⟩ : ∃ n, fuel = n + 1 := ⟨fuel - 1, by omega⟩
    show stringBody (fuel + 1) _ (0x22 :: rest) = _
    rw [stringBody, if_pos rfl, List.reverse_reverse, Utf8.decode?_encode, List.append_nil]
  | cons c cs ih =>
    rw [List.flatMap_cons, Utf8.encode_append] at hfuel ⊢
    rw [List.length_append] at hfuel
    obtain ⟨steps, hsteps, hread⟩ :=
      exists_stringBody_escapeChar c (Utf8.encode (cs.flatMap escapeChar) ++ 0x22 :: rest)
    have hacc : (String.utf8EncodeChar c).reverse ++ (Utf8.encode done).reverse
        = (Utf8.encode (done ++ [c])).reverse := by
      rw [Utf8.encode_append, List.reverse_append, Utf8.encode_cons]
      simp [Utf8.encode]
    obtain ⟨fuel, rfl⟩ : ∃ n, fuel = n + steps := ⟨fuel - steps, by omega⟩
    rw [List.append_assoc, hread, hacc, ih (done ++ [c]) (by omega), List.append_assoc,
      List.singleton_append]

/-- What stands behind the opening quote of a string that was written, and what follows it. -/
def stringTail (s : String) (rest : Bytes) : Bytes :=
  Utf8.encode (s.toList.flatMap escapeChar) ++ 0x22 :: rest

theorem encode_stringText (s : String) (rest : Bytes) :
    Utf8.encode (stringText s) ++ rest = 0x22 :: stringTail s rest := by
  rw [stringText, Utf8.encode_append, List.append_assoc]
  rfl

theorem stringBody_stringTail (s : String) (rest : Bytes) :
    stringBody ((stringTail s rest).length + 1) [] (stringTail s rest) = .ok (s, rest) := by
  have hfuel : (Utf8.encode (s.toList.flatMap escapeChar)).length
      < (stringTail s rest).length + 1 := by
    rw [stringTail, List.length_append]
    omega
  have hread := stringBody_encode s.toList [] rest hfuel
  rwa [List.nil_append, String.ofList_toList] at hread

/-! ## Numbers -/

def digitBytes (n : Nat) : Bytes :=
  Utf8.encode (Text.digitsOf n)

def digitByte (d : Nat) : UInt8 :=
  UInt8.ofNat (48 + d)

theorem digitBytes_of_lt {n : Nat} (hn : n < 10) : digitBytes n = [digitByte n] := by
  rw [digitBytes, Text.digitsOf, Nat.toDigits_of_lt_base hn]
  interval_cases n <;> rfl

theorem digitBytes_of_le {n : Nat} (hn : 10 ≤ n) :
    digitBytes n = digitBytes (n / 10) ++ [digitByte (n % 10)] := by
  have hlast := digitBytes_of_lt (Nat.mod_lt n (show 0 < 10 by decide))
  rw [digitBytes, Text.digitsOf, Nat.toDigits_of_lt_base (Nat.mod_lt n (by decide))] at hlast
  rw [digitBytes, Text.digitsOf, Nat.toDigits_of_base_le (by decide) hn, Utf8.encode_append, hlast]
  rfl

theorem toNat_digitByte {d : Nat} (hd : d < 10) : (digitByte d).toNat = 48 + d :=
  UInt8.toNat_ofNat_of_lt' (show 48 + d < 256 by omega)

theorem isDigit_digitByte {d : Nat} (hd : d < 10) : isDigit (digitByte d) = true := by
  interval_cases d <;> rfl

/-- The digits of a number; only those of zero begin with a zero. -/
theorem exists_digitBytes (n : Nat) :
    ∃ d ds, digitBytes n = digitByte d :: ds ∧ d < 10 ∧ (∀ b ∈ ds, isDigit b = true) ∧
      (d = 0 → n = 0) := by
  induction n using Nat.strongRecOn with
  | ind n ih =>
    by_cases hn : n < 10
    · exact ⟨n, [], digitBytes_of_lt hn, hn, nofun, id⟩
    · obtain ⟨d, ds, hds, hd, hall, hzero⟩ := ih (n / 10) (by omega)
      refine ⟨d, ds ++ [digitByte (n % 10)], ?_, hd, fun b hb => ?_, fun hd => ?_⟩
      · rw [digitBytes_of_le (by omega), hds]
        rfl
      · rcases List.mem_append.mp hb with hb | hb
        · exact hall b hb
        · rw [List.mem_singleton.mp hb]
          exact isDigit_digitByte (Nat.mod_lt n (by decide))
      · have := hzero hd
        omega

theorem appendDigits_cons (n : Nat) (d : UInt8) (rest : Bytes) :
    appendDigits n (d :: rest)
      = if n * 10 + (d.toNat - 48) ≤ maxWhole then appendDigits (n * 10 + (d.toNat - 48)) rest
        else (n, rest.length + 1) := rfl

theorem appendDigits_append {k m : Nat} {xs : Bytes} (h : appendDigits k xs = (m, 0)) (ys : Bytes) :
    appendDigits k (xs ++ ys) = appendDigits m ys := by
  induction xs generalizing k with
  | nil =>
    cases h
    rfl
  | cons x xs ih =>
    rw [appendDigits_cons] at h
    rw [List.cons_append, appendDigits_cons]
    split at h
    · next hle => rw [if_pos hle, ih h]
    · simp at h

/-- The digits of a number that fits are taken as that number. -/
theorem appendDigits_digitBytes {n : Nat} (hn : n ≤ maxWhole) :
    appendDigits 0 (digitBytes n) = (n, 0) := by
  induction n using Nat.strongRecOn with
  | ind n ih =>
    by_cases hlt : n < 10
    · have hvalue : 0 * 10 + (48 + n - 48) = n := by omega
      rw [digitBytes_of_lt hlt, appendDigits_cons, toNat_digitByte hlt, hvalue, if_pos hn]
      rfl
    · have hmod := Nat.mod_lt n (show 0 < 10 by decide)
      have hvalue : n / 10 * 10 + (48 + n % 10 - 48) = n := by omega
      rw [digitBytes_of_le (by omega), appendDigits_append (ih (n / 10) (by omega) (by omega)),
        appendDigits_cons, toNat_digitByte hmod, hvalue, if_pos hn]
      rfl

/-- What may stand behind a number: nothing that would go on with it. -/
def Stops (rest : Bytes) : Prop :=
  ∀ b ∈ rest.head?, isDigit b = false ∧ b ≠ 0x2E ∧ b ≠ 0x65 ∧ b ≠ 0x45

theorem fractionPart_of_stops {rest : Bytes} (h : Stops rest) :
    fractionPart rest = .ok (none, rest) := by
  unfold fractionPart
  split
  · exact absurd rfl (h _ rfl).2.1
  · rfl

theorem exponentPart_of_stops {rest : Bytes} (h : Stops rest) :
    exponentPart rest = .ok (none, rest) := by
  unfold exponentPart
  split
  · obtain ⟨-, -, hsmall, hlarge⟩ := h _ rfl
    rw [if_neg (by simp [hsmall, hlarge])]
  · rfl

theorem integerPart_digitBytes (n : Nat) {rest : Bytes} (h : Stops rest) :
    integerPart (digitBytes n ++ rest) = .ok (digitBytes n, rest) := by
  obtain ⟨d, ds, hds, hd, hall, hzero⟩ := exists_digitBytes n
  have hdigits : ∀ b ∈ digitBytes n, isDigit b = true := by
    rw [hds]
    exact List.forall_mem_cons.mpr ⟨isDigit_digitByte hd, hall⟩
  obtain ⟨htake, hdrop⟩ := Text.takeWhile_append hdigits fun b hb => (h b hb).1
  have hsome : someDigits (digitBytes n ++ rest) = .ok (digitBytes n, rest) := by
    rw [hds, List.cons_append] at htake hdrop ⊢
    rw [someDigits, if_pos (isDigit_digitByte hd), htake, hdrop]
  simp only [integerPart, bind_ok_iff]
  refine ⟨_, hsome, ?_⟩
  dsimp only
  split
  · next b bs heq =>
    have hzeros : digitBytes 0 = [48] := digitBytes_of_lt (by decide)
    have hd0 : d = 0 := by
      have hbyte := congrArg UInt8.toNat (List.cons.inj (hds.symm.trans heq)).1
      rw [toNat_digitByte hd] at hbyte
      exact Nat.add_left_cancel hbyte
    rw [hzero hd0, hzeros] at heq
    cases heq
  · rfl

/-- **A number that was written is read back.** -/
theorem number_digitBytes {n : Nat} (hn : n ≤ maxWhole) {rest : Bytes} (h : Stops rest) :
    Lexeme.number (digitBytes n ++ rest) = .ok (.whole n, rest) := by
  obtain ⟨d, ds, hds, hd, -⟩ := exists_digitBytes n
  have hnumeral : numeral (digitBytes n ++ rest)
      = .ok (⟨false, digitBytes n, none, none⟩, rest) := by
    unfold numeral
    split
    next negative bs hsign =>
    split at hsign
    · next r hminus =>
      rw [hds, List.cons_append] at hminus
      have hbyte := congrArg UInt8.toNat (List.cons.inj hminus).1
      rw [toNat_digitByte hd] at hbyte
      have hsign : (0x2D : UInt8).toNat = 45 := rfl
      omega
    · obtain ⟨rfl, rfl⟩ := Prod.mk.inj hsign
      simp only [bind_ok_iff]
      exact ⟨_, integerPart_digitBytes n h, _, fractionPart_of_stops h, _, exponentPart_of_stops h,
        rfl⟩
  have hvalue : Numeral.value ⟨false, digitBytes n, none, none⟩ = .ok (.whole n) := by
    simp [Numeral.value, appendDigits_digitBytes hn]
  simp only [Lexeme.number, bind_ok_iff]
  exact ⟨_, hnumeral, _, hvalue, rfl⟩

end HttpService.Json
