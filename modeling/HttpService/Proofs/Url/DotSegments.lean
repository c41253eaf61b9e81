import HttpService.Proofs.Text.Percent
import HttpService.Template.Traversal
import HttpService.Url.Parser

/-!
# Dot segments

A URL reader knows a dot segment by its spelling, a template by what it decodes to.  The two agree:
`isSingleDot_iff` and `isDoubleDot_iff` say that the spellings are exactly the texts that decode to
one dot and to two, so `isTraversalSegment` is the union of both (`isTraversalSegment_eq`).  Since
escaping keeps what a text stands for, it keeps the dot segments too.
-/

namespace HttpService

/-! ## Small letters -/

theorem toLower_cases (c : Char) :
    c.toLower = c ∨ (0x41 ≤ c.toNat ∧ c.toNat ≤ 0x5A ∧ c.toLower.toNat = c.toNat + 0x20) := by
  unfold Char.toLower
  split
  · next h =>
    have hlow : 0x41 ≤ c.toNat := h.1
    have hhigh : c.val.toNat ≤ 0x5A := h.2
    refine Or.inr ⟨hlow, hhigh, ?_⟩
    show (c.val + 32).toNat = c.val.toNat + 32
    rw [UInt32.toNat_add]
    simp only [UInt32.reduceToNat]
    omega
  · exact Or.inl rfl

/-- What is no small letter comes from itself only. -/
theorem toLower_eq_iff {d : Char} (hd : d.toNat < 0x41) {c : Char} : c.toLower = d ↔ c = d := by
  constructor
  · intro h
    rcases toLower_cases c with hc | ⟨hlow, -, hc⟩
    · exact hc.symm.trans h
    · rw [h] at hc
      omega
  · rintro rfl
    rcases toLower_cases c with hc | ⟨hlow, -, -⟩
    · exact hc
    · omega

theorem toLower_eq_e_iff {c : Char} : c.toLower = 'e' ↔ c = 'e' ∨ c = 'E' := by
  constructor
  · intro h
    rcases toLower_cases c with hc | ⟨-, -, hc⟩
    · exact Or.inl (hc.symm.trans h)
    · rw [h] at hc
      exact Or.inr (Char.toNat_inj.mp (show c.toNat = 69 from by
        have : 'e'.toNat = 101 := rfl
        omega))
  · rintro (rfl | rfl) <;> rfl

/-! ## Decoding to dots -/

namespace Percent

theorem decode_eq_nil {bs : Bytes} : decode bs = [] ↔ bs = [] := by
  rcases bs with _ | ⟨b, rest⟩
  · simp [decode]
  · simp only [reduceCtorEq, iff_false]
    by_cases hb : b = 0x25
    · subst hb
      rcases rest with _ | ⟨x, _ | ⟨y, more⟩⟩
      · simp [decode]
      · simp [decode]
      · rw [decode, if_pos rfl]
        cases hexValue? x <;> cases hexValue? y <;> simp
    · rw [decode_cons_of_ne hb]
      simp

/-- The three runs of hexadecimal digits, each with its values. -/
theorem hexValue?_eq_some {b v : UInt8} (h : hexValue? b = some v) :
    (48 ≤ b.toNat ∧ b.toNat ≤ 57 ∧ v.toNat = b.toNat - 48) ∨
      (65 ≤ b.toNat ∧ b.toNat ≤ 70 ∧ v.toNat = b.toNat - 55) ∨
      (97 ≤ b.toNat ∧ b.toNat ≤ 102 ∧ v.toNat = b.toNat - 87) := by
  have sub : ∀ k : UInt8, k ≤ b → (b - k).toNat = b.toNat - k.toNat := UInt8.toNat_sub_of_le b
  unfold hexValue? at h
  split at h
  · next hb =>
    obtain rfl := Option.some.inj h
    exact Or.inl ⟨hb.1, hb.2, sub 48 hb.1⟩
  · split at h
    · next hb =>
      obtain rfl := Option.some.inj h
      exact Or.inr (Or.inl ⟨hb.1, hb.2, sub 55 (UInt8.le_trans (by decide) hb.1)⟩)
    · split at h
      · next hb =>
        obtain rfl := Option.some.inj h
        exact Or.inr (Or.inr ⟨hb.1, hb.2, sub 87 (UInt8.le_trans (by decide) hb.1)⟩)
      · cases h

theorem hex_dot {x y h l : UInt8} (hx : hexValue? x = some h) (hy : hexValue? y = some l)
    (hdot : h * 16 + l = 0x2E) : x = 0x32 ∧ (y = 0x45 ∨ y = 0x65) := by
  have hx := hexValue?_eq_some hx
  have hy := hexValue?_eq_some hy
  simp only [← UInt8.toNat_inj, UInt8.toNat_add, UInt8.toNat_mul, UInt8.reduceToNat] at hdot ⊢
  omega

/-- A decoded text that starts with a dot was written with a dot, or with its escape. -/
theorem decode_eq_dot_cons {bs out : Bytes} (h : decode bs = 0x2E :: out) :
    (∃ rest, bs = 0x2E :: rest ∧ decode rest = out) ∨
      ∃ y rest, bs = 0x25 :: 0x32 :: y :: rest ∧ (y = 0x45 ∨ y = 0x65) ∧ decode rest = out := by
  rcases bs with _ | ⟨b, rest⟩
  · simp [decode] at h
  · by_cases hb : b = 0x25
    · subst hb
      rcases rest with _ | ⟨x, _ | ⟨y, more⟩⟩
      · simp [decode] at h
      · simp [decode] at h
      · cases hx : hexValue? x with
        | none =>
          rw [decode_percent (by rintro _ _ _ ⟨⟩; exact Or.inl hx)] at h
          simp at h
        | some v =>
          cases hy : hexValue? y with
          | none =>
            rw [decode_percent (by rintro _ _ _ ⟨⟩; exact Or.inr hy)] at h
            simp at h
          | some w =>
            rw [decode_hex hx hy, List.cons.injEq] at h
            obtain ⟨rfl, hy'⟩ := hex_dot hx hy h.1
            exact Or.inr ⟨y, more, rfl, hy', h.2⟩
    · rw [decode_cons_of_ne hb, List.cons.injEq] at h
      obtain ⟨rfl, h⟩ := h
      exact Or.inl ⟨rest, rfl, h⟩

theorem decodeText_eq_nil {cs : List Char} : decodeText cs = [] ↔ cs = [] := by
  rw [decodeText, decode_eq_nil, Utf8.encode_eq_nil]

end Percent

/-! ## Dots as they are spelled -/

namespace Url

/-- A text that begins with a dot, written as it is or escaped, and what follows the dot. -/
def BeginsWithDot (s rest : List Char) : Prop :=
  s = '.' :: rest ∨ s = '%' :: '2' :: 'e' :: rest ∨ s = '%' :: '2' :: 'E' :: rest

theorem BeginsWithDot.decodeText {s rest : List Char} (h : BeginsWithDot s rest) :
    Percent.decodeText s = 0x2E :: Percent.decodeText rest := by
  rcases h with rfl | rfl | rfl
  · exact Percent.decode_cons_of_ne (b := 0x2E) (by decide) (Utf8.encode rest)
  · rfl
  · rfl

theorem exists_beginsWithDot {s : List Char} {out : Bytes}
    (h : Percent.decodeText s = 0x2E :: out) :
    ∃ rest, BeginsWithDot s rest ∧ Percent.decodeText rest = out := by
  rcases Percent.decode_eq_dot_cons h with ⟨rest, hb, hd⟩ | ⟨y, rest, hb, hy, hd⟩
  · obtain ⟨c, tail, rfl, hc, rfl⟩ := Utf8.encode_eq_cons_of_lt (by decide) hb
    obtain rfl : c = '.' := Char.toNat_inj.mp hc
    exact ⟨tail, Or.inl rfl, hd⟩
  · obtain ⟨c, _, rfl, hc, h2⟩ := Utf8.encode_eq_cons_of_lt (by decide) hb
    obtain rfl : c = '%' := Char.toNat_inj.mp hc
    obtain ⟨d, _, rfl, hc, h3⟩ := Utf8.encode_eq_cons_of_lt (by decide) h2
    obtain rfl : d = '2' := Char.toNat_inj.mp hc
    rcases hy with rfl | rfl
    · obtain ⟨e, tail, rfl, hc, rfl⟩ := Utf8.encode_eq_cons_of_lt (by decide) h3
      obtain rfl : e = 'E' := Char.toNat_inj.mp hc
      exact ⟨tail, Or.inr (Or.inr rfl), hd⟩
    · obtain ⟨e, tail, rfl, hc, rfl⟩ := Utf8.encode_eq_cons_of_lt (by decide) h3
      obtain rfl : e = 'e' := Char.toNat_inj.mp hc
      exact ⟨tail, Or.inr (Or.inl rfl), hd⟩

theorem BeginsWithDot.map_toLower {s rest : List Char} (h : BeginsWithDot s rest) :
    s.map Char.toLower = '.' :: rest.map Char.toLower ∨
      s.map Char.toLower = '%' :: '2' :: 'e' :: rest.map Char.toLower := by
  rcases h with rfl | rfl | rfl
  · exact Or.inl rfl
  · exact Or.inr rfl
  · exact Or.inr rfl

theorem beginsWithDot_of_map_toLower {s m : List Char}
    (h : s.map Char.toLower = '.' :: m ∨ s.map Char.toLower = '%' :: '2' :: 'e' :: m) :
    ∃ rest, BeginsWithDot s rest ∧ rest.map Char.toLower = m := by
  simp only [List.map_eq_cons_iff] at h
  rcases h with ⟨a, t, rfl, ha, rfl⟩ | ⟨a, _, rfl, ha, b, _, rfl, hb, c, t, rfl, hc, rfl⟩
  · obtain rfl := (toLower_eq_iff (by decide)).mp ha
    exact ⟨t, Or.inl rfl, rfl⟩
  · obtain rfl := (toLower_eq_iff (by decide)).mp ha
    obtain rfl := (toLower_eq_iff (by decide)).mp hb
    rcases toLower_eq_e_iff.mp hc with rfl | rfl
    · exact ⟨t, Or.inr (Or.inl rfl), rfl⟩
    · exact ⟨t, Or.inr (Or.inr rfl), rfl⟩

/-! ## Dot segments -/

/-- **A single dot segment is a text that decodes to a dot.** -/
theorem isSingleDot_iff {s : List Char} :
    isSingleDot s = true ↔ Percent.decodeText s = [0x2E] := by
  simp only [isSingleDot, Bool.or_eq_true, beq_iff_eq,
    show "%2e".toList = ['%', '2', 'e'] from rfl]
  constructor
  · intro h
    obtain ⟨rest, hd, hr⟩ := beginsWithDot_of_map_toLower h
    rw [hd.decodeText, List.map_eq_nil_iff.mp hr]
    rfl
  · intro h
    obtain ⟨rest, hd, hr⟩ := exists_beginsWithDot h
    obtain rfl := Percent.decodeText_eq_nil.mp hr
    exact hd.map_toLower

/-- **A double dot segment is a text that decodes to two dots.** -/
theorem isDoubleDot_iff {s : List Char} :
    isDoubleDot s = true ↔ Percent.decodeText s = [0x2E, 0x2E] := by
  simp only [isDoubleDot, Bool.or_eq_true, beq_iff_eq,
    show ".%2e".toList = ['.', '%', '2', 'e'] from rfl,
    show "%2e.".toList = ['%', '2', 'e', '.'] from rfl,
    show "%2e%2e".toList = ['%', '2', 'e', '%', '2', 'e'] from rfl]
  constructor
  · intro h
    have front : ∃ m, (m = ['.'] ∨ m = ['%', '2', 'e']) ∧
        (s.map Char.toLower = '.' :: m ∨ s.map Char.toLower = '%' :: '2' :: 'e' :: m) := by
      rcases h with ((h | h) | h) | h
      · exact ⟨_, Or.inl rfl, Or.inl h⟩
      · exact ⟨_, Or.inr rfl, Or.inl h⟩
      · exact ⟨_, Or.inl rfl, Or.inr h⟩
      · exact ⟨_, Or.inr rfl, Or.inr h⟩
    obtain ⟨m, hm, hs⟩ := front
    obtain ⟨rest, hd, rfl⟩ := beginsWithDot_of_map_toLower hs
    obtain ⟨last, hd', hl⟩ := beginsWithDot_of_map_toLower hm
    rw [hd.decodeText, hd'.decodeText, List.map_eq_nil_iff.mp hl]
    rfl
  · intro h
    obtain ⟨rest, hd, hr⟩ := exists_beginsWithDot h
    obtain ⟨last, hd', hl⟩ := exists_beginsWithDot hr
    obtain rfl := Percent.decodeText_eq_nil.mp hl
    rcases hd.map_toLower with h1 | h1 <;> rcases hd'.map_toLower with h2 | h2 <;>
      simp [h1, h2]

/-- The traversal segments are the dot segments. -/
theorem isTraversalSegment_eq (s : List Char) :
    Template.isTraversalSegment s = (isSingleDot s || isDoubleDot s) := by
  rw [Bool.eq_iff_iff]
  simp only [Template.isTraversalSegment, Bool.or_eq_true, beq_iff_eq, isSingleDot_iff,
    isDoubleDot_iff]

/-! ## Escaping keeps dot segments -/

theorem inPath_eq_false_of_isHexDigit {c : Char} (h : Percent.isHexDigit c = true) :
    inPath c = false := by
  simp only [Percent.isHexDigit, Bool.and_eq_true, decide_eq_true_eq,
    Option.isSome_iff_exists] at h
  obtain ⟨hc, v, hv⟩ := h
  have hv := Percent.hexValue?_eq_some hv
  simp only [UInt8.toNat_ofNat'] at hv
  have ne : ∀ d : Char, d.toNat < 48 ∨ (58 ≤ d.toNat ∧ d.toNat < 65) ∨ 96 = d.toNat ∨
      103 ≤ d.toNat → c ≠ d := by
    rintro d hd rfl
    omega
  simp [inPath, inFragment, Percent.isControl, ne, show c.toNat ≠ 127 by omega,
    show ¬ c.toNat < 32 by omega]

theorem decodeText_encode_inPath (s : List Char) :
    Percent.decodeText (Percent.encode inPath s) = Percent.decodeText s :=
  Percent.decode_encode (by decide) (fun _ => inPath_eq_false_of_isHexDigit) s

theorem isSingleDot_encode (s : List Char) :
    isSingleDot (Percent.encode inPath s) = isSingleDot s := by
  rw [Bool.eq_iff_iff, isSingleDot_iff, isSingleDot_iff, decodeText_encode_inPath]

theorem isDoubleDot_encode (s : List Char) :
    isDoubleDot (Percent.encode inPath s) = isDoubleDot s := by
  rw [Bool.eq_iff_iff, isDoubleDot_iff, isDoubleDot_iff, decodeText_encode_inPath]

end Url

end HttpService
