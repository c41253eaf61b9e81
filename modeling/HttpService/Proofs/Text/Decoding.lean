import HttpService.Text.Digits
import HttpService.Text.Utf8
import Mathlib.Data.List.Basic
import Mathlib.Data.Nat.Digits.Defs

/-!
# Texts read back

Encoding a text and decoding the bytes gives the text (`Utf8.decode?_encode`), and so do the digits
of a number (`natOfDigits_digitsOf`).

The walk `Utf8.scan` is followed one character at a time.  The first byte of a character begins a
sequence with the high bits of the character; every further byte lies in the bounds that the
sequence asks for and brings six bits more, until the last one completes it (`scan_more`,
`scan_last`).  That the second byte lies in its bounds is where overlong forms, surrogates and
numbers above the last code point are ruled out, so the cases of `scan_utf8EncodeChar` are those of
`lead`.

Bytes that are no text are read as well.  The bounds of every byte that continues a sequence lie
above ASCII, so a byte of ASCII stands for itself wherever it is (`scan_append_ascii`), and a reader
that looks for one may look before or after it decodes.
-/

namespace HttpService

namespace Utf8

theorem step_begun {s : Begun} {n : Nat} (hlow : s.low ≤ n) (hhigh : n ≤ s.high) :
    step (some s) n = match s.more with
      | 0 => ([some (Char.ofNat (s.bits * 64 + (n - 0x80)))], none)
      | more + 1 => ([], some ⟨s.bits * 64 + (n - 0x80), 0x80, 0xBF, more⟩) := by
  unfold step
  exact if_pos ⟨hlow, hhigh⟩

/-- The last byte of a sequence completes a character. -/
theorem scan_last {bits low high n : Nat} (hn : n < 256) (hlow : low ≤ n) (hhigh : n ≤ high)
    (rest : Bytes) :
    scan (some ⟨bits, low, high, 0⟩) (UInt8.ofNat n :: rest)
      = some (Char.ofNat (bits * 64 + (n - 0x80))) :: scan none rest := by
  rw [scan, UInt8.toNat_ofNat_of_lt' hn, step_begun hlow hhigh]
  rfl

/-- A byte before the last one brings six bits. -/
theorem scan_more {bits low high more n : Nat} (hn : n < 256) (hlow : low ≤ n) (hhigh : n ≤ high)
    (rest : Bytes) :
    scan (some ⟨bits, low, high, more + 1⟩) (UInt8.ofNat n :: rest)
      = scan (some ⟨bits * 64 + (n - 0x80), 0x80, 0xBF, more⟩) rest := by
  rw [scan, UInt8.toNat_ofNat_of_lt' hn, step_begun hlow hhigh]
  rfl

theorem scan_begun {n : Nat} {s : Begun} (hn : n < 256) (h : lead n = .begun s) (rest : Bytes) :
    scan none (UInt8.ofNat n :: rest) = scan (some s) rest := by
  rw [scan, UInt8.toNat_ofNat_of_lt' hn, step, start, h]
  rfl

/-! ## First bytes -/

theorem lead_two {v : Nat} (hlow : 0x80 ≤ v) (hhigh : v < 0x800) :
    lead (v / 64 % 32 + 192) = .begun ⟨v / 64, 0x80, 0xBF, 0⟩ := by
  have hbits : v / 64 % 32 + 192 - 0xC0 = v / 64 := by omega
  unfold lead
  rw [if_neg (by omega), if_neg (by omega), if_pos (by omega), hbits]

/-- The bounds of the second of three bytes leave out overlong forms and surrogates. -/
theorem lead_three {v : Nat} (hlow : 0x800 ≤ v) (hhigh : v < 0x10000)
    (hvalid : v < 0xD800 ∨ 0xDFFF < v) :
    ∃ low high, lead (v / 4096 % 16 + 224) = .begun ⟨v / 4096, low, high, 1⟩ ∧
      low ≤ v / 64 % 64 + 128 ∧ v / 64 % 64 + 128 ≤ high := by
  have hbits : v / 4096 % 16 + 224 - 0xE0 = v / 4096 := by omega
  unfold lead
  rw [if_neg (by omega), if_neg (by omega), if_neg (by omega)]
  by_cases hfirst : v / 4096 = 0
  · refine ⟨0xA0, 0xBF, ?_, by omega, by omega⟩
    rw [if_pos (by omega), hfirst]
  · by_cases hsurrogate : v / 4096 = 13
    · refine ⟨0x80, 0x9F, ?_, by omega, by omega⟩
      rw [if_neg (by omega), if_pos (by omega), hsurrogate]
    · refine ⟨0x80, 0xBF, ?_, by omega, by omega⟩
      rw [if_neg (by omega), if_neg (by omega), if_pos (by omega), hbits]

/-- The bounds of the second of four bytes leave out overlong forms and what is too large. -/
theorem lead_four {v : Nat} (hlow : 0x10000 ≤ v) (hhigh : v < 0x110000) :
    ∃ low high, lead (v / 262144 % 8 + 240) = .begun ⟨v / 262144, low, high, 2⟩ ∧
      low ≤ v / 4096 % 64 + 128 ∧ v / 4096 % 64 + 128 ≤ high := by
  have hbits : v / 262144 % 8 + 240 - 0xF0 = v / 262144 := by omega
  unfold lead
  rw [if_neg (by omega), if_neg (by omega), if_neg (by omega), if_neg (by omega),
    if_neg (by omega), if_neg (by omega)]
  by_cases hfirst : v / 262144 = 0
  · refine ⟨0x90, 0xBF, ?_, by omega, by omega⟩
    rw [if_pos (by omega), hfirst]
  · by_cases hlast : v / 262144 = 4
    · refine ⟨0x80, 0x8F, ?_, by omega, by omega⟩
      rw [if_neg (by omega), if_neg (by omega), if_pos (by omega), hlast]
    · refine ⟨0x80, 0xBF, ?_, by omega, by omega⟩
      rw [if_neg (by omega), if_pos (by omega), hbits]

/-! ## Characters and texts -/

theorem scan_utf8EncodeChar (c : Char) (rest : Bytes) :
    scan none (String.utf8EncodeChar c ++ rest) = some c :: scan none rest := by
  have hvalid : c.val.toNat < 0xD800 ∨ (0xDFFF < c.val.toNat ∧ c.val.toNat < 0x110000) := c.valid
  have hback : Char.ofNat c.val.toNat = c := Char.ofNat_toNat c
  generalize hv : c.val.toNat = v at hvalid hback
  unfold String.utf8EncodeChar
  rw [hv]
  dsimp only
  by_cases h1 : v ≤ 0x7F
  · have hlead : lead v = .complete c := by
      rw [lead, if_pos (by omega), hback]
    rw [if_pos h1, List.singleton_append, scan, UInt8.toNat_ofNat_of_lt' (show v < 256 by omega),
      step, start, hlead]
    rfl
  rw [if_neg h1]
  by_cases h2 : v ≤ 0x7FF
  · have hwhole : v / 64 * 64 + (v % 64 + 128 - 0x80) = v := by omega
    rw [if_pos h2, List.cons_append, List.singleton_append,
      scan_begun (by omega) (lead_two (by omega) (by omega)),
      scan_last (by omega) (by omega) (by omega), hwhole, hback]
  rw [if_neg h2]
  by_cases h3 : v ≤ 0xFFFF
  · obtain ⟨low, high, hlead, hlow, hhigh⟩ :=
      lead_three (v := v) (by omega) (by omega) (by omega)
    have hwhole : (v / 4096 * 64 + (v / 64 % 64 + 128 - 0x80)) * 64 + (v % 64 + 128 - 0x80) = v := by
      omega
    rw [if_pos h3, List.cons_append, List.cons_append, List.singleton_append,
      scan_begun (by omega) hlead, scan_more (by omega) hlow hhigh,
      scan_last (by omega) (by omega) (by omega), hwhole, hback]
  · obtain ⟨low, high, hlead, hlow, hhigh⟩ := lead_four (v := v) (by omega) (by omega)
    have hwhole : ((v / 262144 * 64 + (v / 4096 % 64 + 128 - 0x80)) * 64 +
        (v / 64 % 64 + 128 - 0x80)) * 64 + (v % 64 + 128 - 0x80) = v := by omega
    rw [if_neg h3, List.cons_append, List.cons_append, List.cons_append, List.singleton_append,
      scan_begun (by omega) hlead, scan_more (by omega) hlow hhigh,
      scan_more (by omega) (by omega) (by omega), scan_last (by omega) (by omega) (by omega),
      hwhole, hback]

theorem scan_encode (cs : List Char) : scan none (encode cs) = cs.map some := by
  induction cs with
  | nil => rfl
  | cons c cs ih =>
    have hcons : encode (c :: cs) = String.utf8EncodeChar c ++ encode cs := rfl
    rw [hcons, scan_utf8EncodeChar, ih, List.map_cons]

/-- **The bytes of a text are decoded to the text.** -/
theorem decode?_encode (cs : List Char) : decode? (encode cs) = some cs := by
  rw [decode?, scan_encode]
  induction cs with
  | nil => rfl
  | cons c cs ih => simp [ih]

theorem decodeLossy_encode (cs : List Char) : decodeLossy (encode cs) = cs := by
  rw [decodeLossy, scan_encode, List.map_map]
  exact List.map_id' cs

/-! ## Bytes of ASCII -/

theorem scan_cons (state : Option Begun) (b : UInt8) (rest : Bytes) :
    scan state (b :: rest)
      = (step state b.toNat).1 ++ scan (step state b.toNat).2 rest := by
  cases state <;> rfl

/-- The bounds of a begun sequence leave out ASCII. -/
theorem le_low_of_lead {n : Nat} {s : Begun} (h : lead n = .begun s) : 0x80 ≤ s.low := by
  unfold lead at h
  grind

theorem le_low_of_step {state : Option Begun} {n : Nat} :
    ∀ s ∈ (step state n).2, 0x80 ≤ s.low := by
  have hstart : ∀ s ∈ (start n).2, 0x80 ≤ s.low := by
    intro s hs
    unfold start at hs
    split at hs
    · cases hs
    · next hlead =>
      obtain rfl := Option.some.inj hs
      exact le_low_of_lead hlead
    · cases hs
  intro s hs
  cases state with
  | none => exact hstart s hs
  | some t =>
    unfold step at hs
    dsimp only at hs
    split at hs
    · split at hs
      · cases hs
      · obtain rfl := Option.some.inj hs
        exact Nat.le_refl _
    · exact hstart s hs

/-- **A byte of ASCII stands for itself**, whatever surrounds it: it ends a sequence that has begun
and is no part of one. -/
theorem scan_append_ascii {b : UInt8} (hb : b.toNat < 0x80) (front back : Bytes)
    {state : Option Begun} (hstate : ∀ s ∈ state, 0x80 ≤ s.low) :
    scan state (front ++ b :: back)
      = scan state front ++ some (Char.ofNat b.toNat) :: scan none back := by
  induction front generalizing state with
  | nil =>
    have hstart : start b.toNat = ([some (Char.ofNat b.toNat)], none) := by
      rw [start, show lead b.toNat = .complete (Char.ofNat b.toNat) from if_pos hb]
    rw [List.nil_append, scan_cons]
    cases state with
    | none =>
      show (start b.toNat).1 ++ scan (start b.toNat).2 back = _
      rw [hstart]
      rfl
    | some s =>
      have hlow : ¬ (s.low ≤ b.toNat ∧ b.toNat ≤ s.high) := fun h =>
        Nat.not_le_of_lt hb (Nat.le_trans (hstate s rfl) h.1)
      have hstep : step (some s) b.toNat = (none :: (start b.toNat).1, (start b.toNat).2) :=
        if_neg hlow
      rw [hstep, hstart]
      rfl
  | cons a front ih =>
    rw [List.cons_append, scan_cons, scan_cons, ih le_low_of_step, List.append_assoc]

theorem decodeLossy_append_ascii {b : UInt8} (hb : b.toNat < 0x80) (front back : Bytes) :
    decodeLossy (front ++ b :: back)
      = decodeLossy front ++ Char.ofNat b.toNat :: decodeLossy back := by
  rw [decodeLossy, scan_append_ascii hb front back (by simp), List.map_append]
  rfl

end Utf8

/-! ## Numbers -/

theorem Text.natOfDigits_eq (cs : List Char) : natOfDigits cs = Nat.ofDigitChars 10 cs 0 := by
  rw [natOfDigits, Nat.ofDigitChars_eq_foldl]
  simp only [Nat.mul_comm 10]
  rfl

/-- **The digits of a number stand for it.** -/
theorem Text.natOfDigits_digitsOf (n : Nat) : natOfDigits (digitsOf n) = n := by
  rw [natOfDigits_eq]
  exact Nat.ofDigitChars_ten_toDigits

/-- A character of a number is the digit of a number below the base. -/
theorem Text.exists_digitChar {b : Nat} (hb : 1 < b) {n : Nat} :
    ∀ c ∈ Nat.toDigits b n, ∃ k < b, c = k.digitChar := by
  induction n using Nat.base_induction b hb with
  | single m hm =>
    rw [Nat.toDigits_of_lt_base hm]
    exact fun c hc => ⟨m, hm, List.mem_singleton.mp hc⟩
  | digit m k hk hm ih =>
    rw [← Nat.toDigits_append_toDigits hb hm hk, Nat.toDigits_of_lt_base hk]
    intro c hc
    rcases List.mem_append.mp hc with hc | hc
    · exact ih c hc
    · exact ⟨k, hk, List.mem_singleton.mp hc⟩

end HttpService
