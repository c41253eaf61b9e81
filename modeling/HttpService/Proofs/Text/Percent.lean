import HttpService.Text.Percent
import Mathlib.Data.List.Basic

/-!
# The laws of percent encoding

Escaping a text changes how it is written and not what it stands for: as long as no `%` and no
hexadecimal digit is escaped, undoing the escapes of `encode escaped cs` gives what undoing the
escapes of `cs` gives (`decode_encode`).  An encoded text is made of the characters that stay and
of `escapeAlphabet` (`mem_encode`), so a class that avoids both is not met in it.

The proof of `decode_encode` takes the text apart where `decode` does: a `%` with two hexadecimal
digits after it is one step, any other character is one step.  What these steps are is said
apart from the program by `Undone`, and `decode_eq_iff` is that `decode` takes no others.
-/

namespace HttpService

/-! ## Bytes of characters -/

namespace Utf8

theorem encode_cons (c : Char) (cs : List Char) :
    encode (c :: cs) = String.utf8EncodeChar c ++ encode cs := rfl

theorem encode_append (as bs : List Char) : encode (as ++ bs) = encode as ++ encode bs := by
  simp [encode]

theorem length_encode (cs : List Char) : (encode cs).length = size cs := by
  induction cs with
  | nil => rfl
  | cons c cs ih => rw [encode_cons, size, List.length_append, ih, String.length_utf8EncodeChar]

theorem size_append (as bs : List Char) : size (as ++ bs) = size as + size bs := by
  simp only [← length_encode, encode_append, List.length_append]

theorem utf8EncodeChar_of_lt {c : Char} (h : c.toNat < 0x80) :
    String.utf8EncodeChar c = [UInt8.ofNat c.toNat] := by
  have h' : c.val.toNat ≤ 0x7f := Nat.le_of_lt_succ h
  simp only [String.utf8EncodeChar, h', if_true]
  rfl

theorem le_of_mem_utf8EncodeChar {c : Char} (h : 0x80 ≤ c.toNat) {b : UInt8}
    (hb : b ∈ String.utf8EncodeChar c) : 0x80 ≤ b.toNat := by
  have h' : ¬ c.val.toNat ≤ 0x7f := Nat.not_le_of_lt h
  unfold String.utf8EncodeChar at hb
  simp only [h', if_false] at hb
  split at hb
  · simp only [List.mem_cons, List.not_mem_nil, or_false] at hb
    rcases hb with rfl | rfl <;> simp only [UInt8.toNat_ofNat'] <;> omega
  · split at hb
    · simp only [List.mem_cons, List.not_mem_nil, or_false] at hb
      rcases hb with rfl | rfl | rfl <;> simp only [UInt8.toNat_ofNat'] <;> omega
    · simp only [List.mem_cons, List.not_mem_nil, or_false] at hb
      rcases hb with rfl | rfl | rfl | rfl <;> simp only [UInt8.toNat_ofNat'] <;> omega

theorem encode_eq_nil {cs : List Char} : encode cs = [] ↔ cs = [] := by
  cases cs with
  | nil => simp [encode]
  | cons c cs => simp [encode_cons, String.utf8EncodeChar_ne_nil]

theorem encode_eq_cons_of_lt {cs : List Char} {b : UInt8} {bs : Bytes} (hb : b.toNat < 0x80)
    (h : encode cs = b :: bs) :
    ∃ c rest, cs = c :: rest ∧ c.toNat = b.toNat ∧ encode rest = bs := by
  cases cs with
  | nil => simp [encode] at h
  | cons c rest =>
    rw [encode_cons] at h
    by_cases hc : c.toNat < 0x80
    · rw [utf8EncodeChar_of_lt hc, List.singleton_append, List.cons.injEq] at h
      obtain ⟨rfl, h⟩ := h
      exact ⟨c, rest, rfl, by simp only [UInt8.toNat_ofNat']; omega, h⟩
    · cases hx : String.utf8EncodeChar c with
      | nil => exact absurd hx String.utf8EncodeChar_ne_nil
      | cons x xs =>
        rw [hx, List.cons_append, List.cons.injEq] at h
        have := le_of_mem_utf8EncodeChar (Nat.le_of_not_lt hc) (b := x) (by rw [hx]; simp)
        rw [h.1] at this
        omega

/-- An ASCII byte of a text stands for a character of it. -/
theorem mem_of_mem_encode {c : Char} (hc : c.toNat < 0x80) {cs : List Char}
    (h : UInt8.ofNat c.toNat ∈ encode cs) : c ∈ cs := by
  obtain ⟨d, hd, hbyte⟩ := List.mem_flatMap.mp h
  by_cases hlow : d.toNat < 0x80
  · rw [utf8EncodeChar_of_lt hlow, List.mem_singleton, ← UInt8.toNat_inj] at hbyte
    simp only [UInt8.toNat_ofNat'] at hbyte
    obtain rfl : c = d := Char.toNat_inj.mp (by omega)
    exact hd
  · have := le_of_mem_utf8EncodeChar (Nat.le_of_not_lt hlow) hbyte
    simp only [UInt8.toNat_ofNat'] at this
    omega

end Utf8

namespace Percent

/-! ## What an encoded text is made of -/

def escapeAlphabet : List Char :=
  "%0123456789ABCDEF".toList

theorem upperHex_mem : ∀ n < 16, upperHex n ∈ escapeAlphabet := by
  decide

theorem mem_escape {b : UInt8} {d : Char} (h : d ∈ escape b) : d ∈ escapeAlphabet := by
  have hb := b.toNat_lt
  simp only [escape, List.mem_cons, List.not_mem_nil, or_false] at h
  rcases h with rfl | rfl | rfl
  · decide
  · exact upperHex_mem _ (by omega)
  · exact upperHex_mem _ (by omega)

/-- What a character is written as is the character itself, which is not escaped, or belongs to an
escape. -/
theorem mem_encodeChar {escaped : Char → Bool} {c d : Char} (h : d ∈ encodeChar escaped c) :
    (d = c ∧ d.toNat < 0x80 ∧ escaped d = false) ∨ d ∈ escapeAlphabet := by
  unfold encodeChar at h
  split at h
  · next hk =>
    simp only [Bool.and_eq_true, decide_eq_true_eq, Bool.not_eq_true'] at hk
    obtain rfl := List.mem_singleton.mp h
    exact Or.inl ⟨rfl, hk⟩
  · obtain ⟨b, -, hb⟩ := List.mem_flatMap.mp h
    exact Or.inr (mem_escape hb)

/-- A character of an encoded text stood in the text and is not escaped, or belongs to an
escape. -/
theorem mem_encode {escaped : Char → Bool} {cs : List Char} {d : Char}
    (h : d ∈ encode escaped cs) :
    (d ∈ cs ∧ d.toNat < 0x80 ∧ escaped d = false) ∨ d ∈ escapeAlphabet := by
  obtain ⟨c, hc, hd⟩ := List.mem_flatMap.mp h
  rcases mem_encodeChar hd with ⟨rfl, hkept⟩ | hmem
  · exact Or.inl ⟨hc, hkept⟩
  · exact Or.inr hmem

theorem encodeChar_ne_nil (escaped : Char → Bool) (c : Char) : encodeChar escaped c ≠ [] := by
  unfold encodeChar
  split
  · exact List.cons_ne_nil _ _
  · cases hbytes : String.utf8EncodeChar c with
    | nil => exact absurd hbytes String.utf8EncodeChar_ne_nil
    | cons b bs => exact List.cons_ne_nil _ _

/-- A class holds an encoded text when it holds what is kept of the text, and the characters of
escapes. -/
theorem forall_mem_encode {escaped p : Char → Bool} {cs : List Char}
    (hescapes : escapeAlphabet.all p = true)
    (hkept : ∀ c ∈ cs, c.toNat < 0x80 → escaped c = false → p c = true) :
    ∀ c ∈ encode escaped cs, p c = true := by
  intro c hc
  rcases mem_encode hc with ⟨hmem, hlt, hnot⟩ | hmem
  · exact hkept c hmem hlt hnot
  · exact List.all_eq_true.mp hescapes c hmem

theorem encode_eq_self {escaped : Char → Bool} {cs : List Char}
    (h : ∀ c ∈ cs, c.toNat < 0x80 ∧ escaped c = false) : encode escaped cs = cs := by
  induction cs with
  | nil => rfl
  | cons c cs ih =>
    rw [List.forall_mem_cons] at h
    have hc : encodeChar escaped c = [c] := by simp [encodeChar, h.1]
    rw [encode, List.flatMap_cons, hc, ← encode, ih h.2, List.singleton_append]

theorem encode_cons (escaped : Char → Bool) (c : Char) (cs : List Char) :
    encode escaped (c :: cs) = encodeChar escaped c ++ encode escaped cs := rfl

/-! ## Undoing escapes -/

def isHexDigit (c : Char) : Bool :=
  c.toNat < 0x80 && (hexValue? (UInt8.ofNat c.toNat)).isSome

theorem hexValue?_upperHex :
    ∀ n < 16, hexValue? (UInt8.ofNat (upperHex n).toNat) = some (UInt8.ofNat n) := by
  decide

theorem upperHex_lt : ∀ n < 16, (upperHex n).toNat < 0x80 := by
  decide

/-- The value of a byte above ASCII is no hexadecimal digit. -/
theorem hexValue?_eq_none {b : UInt8} (h : 0x80 ≤ b.toNat) : hexValue? b = none := by
  simp only [hexValue?, UInt8.le_iff_toNat_le]
  simp only [UInt8.reduceToNat]
  rw [if_neg (by omega), if_neg (by omega), if_neg (by omega)]

theorem decode_cons_of_ne {b : UInt8} (h : b ≠ 0x25) (rest : Bytes) :
    decode (b :: rest) = b :: decode rest := by
  rcases rest with _ | ⟨x, _ | ⟨y, more⟩⟩ <;> simp [decode, h]

/-- A `%` that no two hexadecimal digits follow stands for itself. -/
theorem decode_percent {rest : Bytes}
    (h : ∀ x y more, rest = x :: y :: more → hexValue? x = none ∨ hexValue? y = none) :
    decode (0x25 :: rest) = 0x25 :: decode rest := by
  rcases rest with _ | ⟨x, _ | ⟨y, more⟩⟩
  · rfl
  · rfl
  · rw [decode, if_pos rfl]
    rcases h x y more rfl with hx | hy
    · simp [hx]
    · cases hexValue? x <;> simp [hy]

theorem decode_hex {x y h l : UInt8} (hx : hexValue? x = some h) (hy : hexValue? y = some l)
    (more : Bytes) : decode (0x25 :: x :: y :: more) = (h * 16 + l) :: decode more := by
  rw [decode, if_pos rfl]
  simp [hx, hy]

/-- Bytes, and what they stand for: a `%` and two hexadecimal digits stand for the byte of that
number, any other `%` and any other byte for itself. -/
inductive Undone : Bytes → Bytes → Prop
  | nil : Undone [] []
  | escape {x y h l : UInt8} {bs out : Bytes} : hexValue? x = some h → hexValue? y = some l →
      Undone bs out → Undone (0x25 :: x :: y :: bs) ((h * 16 + l) :: out)
  | sign {bs out : Bytes} :
      (∀ x y more, bs = x :: y :: more → hexValue? x = none ∨ hexValue? y = none) →
      Undone bs out → Undone (0x25 :: bs) (0x25 :: out)
  | other {b : UInt8} {bs out : Bytes} : b ≠ 0x25 → Undone bs out → Undone (b :: bs) (b :: out)

theorem undone_decode (bs : Bytes) : Undone bs (decode bs) := by
  fun_induction decode bs with
  | case1 => exact .nil
  | case2 x y more h l hy hx ih => exact .escape hx hy ih
  | case3 x y more hnone ih =>
    refine .sign (fun x' y' more' heq => ?_) ih
    obtain ⟨rfl, rfl, -⟩ : x = x' ∧ y = y' ∧ more = more' := by simpa using heq
    cases hx : hexValue? x with
    | none => exact .inl rfl
    | some h =>
      cases hy : hexValue? y with
      | none => exact .inr rfl
      | some l => exact absurd hy (hnone h l hx)
  | case4 short hshort ih =>
    exact .sign (fun x y more heq => absurd heq (hshort x y more)) ih
  | case5 b rest hb ih => exact .other hb ih

/-- **Every escape is undone, and every `%` that begins none is left alone.** -/
theorem decode_eq_iff {bs out : Bytes} : decode bs = out ↔ Undone bs out := by
  constructor
  · rintro rfl
    exact undone_decode bs
  · intro h
    induction h with
    | nil => rfl
    | escape hx hy _ ih => rw [decode_hex hx hy, ih]
    | sign hdigits _ ih => rw [decode_percent hdigits, ih]
    | other hb _ ih => rw [decode_cons_of_ne hb, ih]

theorem decode_escape (b : UInt8) (rest : Bytes) :
    decode (Utf8.encode (escape b) ++ rest) = b :: decode rest := by
  have hb := b.toNat_lt
  have hhi : b.toNat / 16 < 16 := by omega
  have hlo : b.toNat % 16 < 16 := by omega
  simp only [escape, Utf8.encode_cons, Utf8.utf8EncodeChar_of_lt (upperHex_lt _ hhi),
    Utf8.utf8EncodeChar_of_lt (upperHex_lt _ hlo),
    Utf8.utf8EncodeChar_of_lt (show '%'.toNat < 0x80 by decide)]
  refine (decode_hex (hexValue?_upperHex _ hhi) (hexValue?_upperHex _ hlo) rest).trans ?_
  congr 1
  rw [← UInt8.toNat_inj]
  simp only [UInt8.toNat_add, UInt8.toNat_mul, UInt8.toNat_ofNat', UInt8.reduceToNat]
  omega

/-! ## Escaping is undone -/

/-- A way to write texts as bytes that shows at each place whether a hexadecimal digit stands
there. -/
structure ShowsHex (write : List Char → Bytes) : Prop where
  nil : write [] = []
  digit : ∀ c cs, isHexDigit c = true → write (c :: cs) = UInt8.ofNat c.toNat :: write cs
  other : ∀ c cs, isHexDigit c = false → ∃ b bs, write (c :: cs) = b :: bs ∧ hexValue? b = none

/-- A `%` stands for itself in the bytes of a text if it does so in the text. -/
theorem ShowsHex.decode_percent {write : List Char → Bytes} (hw : ShowsHex write) {cs : List Char}
    (h : ∀ x y more, cs = x :: y :: more → isHexDigit x = false ∨ isHexDigit y = false) :
    decode (0x25 :: write cs) = 0x25 :: decode (write cs) := by
  refine Percent.decode_percent fun x y more hxy => ?_
  cases cs with
  | nil => rw [hw.nil] at hxy; cases hxy
  | cons c cs =>
    cases hc : isHexDigit c with
    | false =>
      obtain ⟨b, bs, hb, hn⟩ := hw.other c cs hc
      rw [hb, List.cons.injEq] at hxy
      exact Or.inl (hxy.1 ▸ hn)
    | true =>
      rw [hw.digit c cs hc, List.cons.injEq] at hxy
      cases cs with
      | nil => rw [hw.nil] at hxy; cases hxy.2
      | cons d ds =>
        have hd : isHexDigit d = false := (h c d ds rfl).resolve_left (by simp [hc])
        obtain ⟨b, bs, hb, hn⟩ := hw.other d ds hd
        rw [hb, List.cons.injEq] at hxy
        exact Or.inr (hxy.2.1 ▸ hn)

theorem showsHex_encode : ShowsHex Utf8.encode where
  nil := rfl
  digit c cs h := by
    simp only [isHexDigit, Bool.and_eq_true, decide_eq_true_eq] at h
    rw [Utf8.encode_cons, Utf8.utf8EncodeChar_of_lt h.1, List.singleton_append]
  other c cs h := by
    rw [Utf8.encode_cons]
    by_cases hc : c.toNat < 0x80
    · refine ⟨_, _, by rw [Utf8.utf8EncodeChar_of_lt hc, List.singleton_append], ?_⟩
      simpa [isHexDigit, hc] using h
    · cases hx : String.utf8EncodeChar c with
      | nil => exact absurd hx String.utf8EncodeChar_ne_nil
      | cons x xs =>
        refine ⟨x, _, rfl, hexValue?_eq_none ?_⟩
        exact Utf8.le_of_mem_utf8EncodeChar (Nat.le_of_not_lt hc) (by rw [hx]; simp)

variable {escaped : Char → Bool}

theorem encodeChar_of_isHexDigit (hhex : ∀ c, isHexDigit c = true → escaped c = false) {c : Char}
    (h : isHexDigit c = true) : encodeChar escaped c = [c] := by
  have hc := h
  simp only [isHexDigit, Bool.and_eq_true, decide_eq_true_eq] at hc
  simp [encodeChar, hc.1, hhex c h]

theorem showsHex_encode_encode (hhex : ∀ c, isHexDigit c = true → escaped c = false) :
    ShowsHex fun cs => Utf8.encode (encode escaped cs) where
  nil := rfl
  digit c cs h := by
    rw [encode_cons, encodeChar_of_isHexDigit hhex h, List.singleton_append,
      showsHex_encode.digit _ _ h]
  other c cs h := by
    rw [encode_cons]
    unfold encodeChar
    split
    · exact showsHex_encode.other _ _ h
    · cases hx : String.utf8EncodeChar c with
      | nil => exact absurd hx String.utf8EncodeChar_ne_nil
      | cons x xs => exact showsHex_encode.other '%' _ (by decide)

theorem decode_flatMap_escape (bs rest : Bytes) :
    decode (Utf8.encode (bs.flatMap escape) ++ rest) = bs ++ decode rest := by
  induction bs with
  | nil => rfl
  | cons b bs ih =>
    rw [List.flatMap_cons, Utf8.encode_append, List.append_assoc, decode_escape, ih,
      List.cons_append]

/-- Bytes of which none is a `%` stand for themselves. -/
theorem decode_append_of_ne {bs : Bytes} (h : ∀ b ∈ bs, b ≠ 0x25) (rest : Bytes) :
    decode (bs ++ rest) = bs ++ decode rest := by
  induction bs with
  | nil => rfl
  | cons b bs ih =>
    rw [List.forall_mem_cons] at h
    rw [List.cons_append, decode_cons_of_ne h.1, ih h.2, List.cons_append]

/-- The bytes of a character other than `%` hold none. -/
theorem ne_of_mem_utf8EncodeChar {c : Char} (hc : c ≠ '%') {b : UInt8}
    (hb : b ∈ String.utf8EncodeChar c) : b ≠ 0x25 := by
  rintro rfl
  by_cases h : c.toNat < 0x80
  · rw [Utf8.utf8EncodeChar_of_lt h, List.mem_singleton, ← UInt8.toNat_inj] at hb
    simp only [UInt8.toNat_ofNat', UInt8.reduceToNat] at hb
    exact hc (Char.toNat_inj.mp (show c.toNat = 37 by omega))
  · have := Utf8.le_of_mem_utf8EncodeChar (Nat.le_of_not_lt h) hb
    simp at this

/-- **Escaping does not change what a text stands for**, if no `%` and no hexadecimal digit is
escaped. -/
theorem decode_encode (hpercent : escaped '%' = false)
    (hhex : ∀ c, isHexDigit c = true → escaped c = false) :
    ∀ cs, decodeText (encode escaped cs) = decodeText cs
  | [] => rfl
  | c :: cs => by
    unfold decodeText
    by_cases hc : c = '%'
    · subst hc
      have hkeep : encodeChar escaped '%' = ['%'] := by simp [encodeChar, hpercent]
      have hraw : ∀ l, Utf8.encode ('%' :: l) = 0x25 :: Utf8.encode l := fun _ => rfl
      rw [encode_cons, hkeep, List.singleton_append, hraw, hraw]
      by_cases hp : ∃ x y more, cs = x :: y :: more ∧ isHexDigit x = true ∧ isHexDigit y = true
      · obtain ⟨x, y, more, rfl, hx, hy⟩ := hp
        have ih := decode_encode hpercent hhex more
        unfold decodeText at ih
        have hvx := hx
        have hvy := hy
        simp only [isHexDigit, Bool.and_eq_true, Option.isSome_iff_exists] at hvx hvy
        obtain ⟨-, h, hh⟩ := hvx
        obtain ⟨-, l, hl⟩ := hvy
        have hw := showsHex_encode_encode hhex
        rw [hw.digit _ _ hx, hw.digit _ _ hy, showsHex_encode.digit _ _ hx,
          showsHex_encode.digit _ _ hy, decode_hex hh hl, decode_hex hh hl, ih]
      · have hno : ∀ x y more, cs = x :: y :: more →
            isHexDigit x = false ∨ isHexDigit y = false := by
          intro x y more he
          by_contra hn
          simp only [not_or, Bool.not_eq_false] at hn
          exact hp ⟨x, y, more, he, hn⟩
        have ih := decode_encode hpercent hhex cs
        unfold decodeText at ih
        rw [(showsHex_encode_encode hhex).decode_percent hno,
          showsHex_encode.decode_percent hno, ih]
    · have ih := decode_encode hpercent hhex cs
      unfold decodeText at ih
      rw [encode_cons, Utf8.encode_append, Utf8.encode_cons,
        decode_append_of_ne (fun b hb => ne_of_mem_utf8EncodeChar hc hb), ← ih]
      unfold encodeChar
      split
      · rw [show Utf8.encode [c] = String.utf8EncodeChar c from List.append_nil _]
        exact decode_append_of_ne (fun b hb => ne_of_mem_utf8EncodeChar hc hb) _
      · exact decode_flatMap_escape _ _

/-- **A text whose every `%` is escaped comes back.** -/
theorem decodeText_encode_of_percent (hpercent : escaped '%' = true) (cs : List Char) :
    decodeText (encode escaped cs) = Utf8.encode cs := by
  unfold decodeText
  induction cs with
  | nil => rfl
  | cons c cs ih =>
    rw [encode_cons, Utf8.encode_append, Utf8.encode_cons, ← ih]
    unfold encodeChar
    split
    · next hkept =>
      have hc : c ≠ '%' := by
        rintro rfl
        simp [hpercent] at hkept
      rw [show Utf8.encode [c] = String.utf8EncodeChar c from List.append_nil _]
      exact decode_append_of_ne (fun b hb => ne_of_mem_utf8EncodeChar hc hb) _
    · exact decode_flatMap_escape _ _

end Percent

end HttpService
