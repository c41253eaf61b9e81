import HttpService.Proofs.Text.Decoding
import HttpService.Proofs.Text.Percent
import HttpService.Proofs.Text.Splitting
import HttpService.Url.FormPairs

/-!
# Pairs read back

`FormPairs.read` is the reader of the URL standard for form-encoded pairs.  It parts the bytes at
each `&`, leaves out what is empty, parts the rest at its first `=`, and puts a space for each `+`
before it undoes the escapes.  What was encoded comes back (`read_encode`), and a query that is
continued with more pairs is read as the query and then the pairs (`read_append`).

A literal query is escaped before it is sent, so it does not stay the text that the author wrote.
It is read as if it did, because none of the signs of the form is escaped (`read_escaped`).  Since a
`+` counts as a space this is more than undoing escapes: the proof escapes those spaces once more,
and then both texts are escaped alike.
-/

namespace HttpService.FormPairs

/-! ## The reader -/

def spaceOfPlus (b : UInt8) : UInt8 :=
  if b = 0x2B then 0x20 else b

def readText (bytes : Bytes) : String :=
  String.ofList (Utf8.decodeLossy (Percent.decode (bytes.map spaceOfPlus)))

/-- A name and a value, with the first `=` between them; without one there is only a name. -/
def readPair (bytes : Bytes) : String × String :=
  let (name, value) := (Text.cut (· == 0x3D) bytes).getD (bytes, [])
  (readText name, readText value)

def read (bytes : Bytes) : List (String × String) :=
  ((Text.splitAll (· == 0x26) bytes).filter fun p => !p.isEmpty).map readPair

/-- Pairs are read one after another. -/
theorem read_append (front back : Bytes) :
    read (front ++ 0x26 :: back) = read front ++ read back := by
  rw [read, Text.splitAll_append_cons rfl, List.filter_append, List.map_append, read, read]

/-! ## Reading the bytes of a text -/

/-- A sign of ASCII is one byte, and no other character has that byte in it. -/
theorem utf8EncodeChar_sign {sign : Char} (hsign : sign.toNat < 0x80) :
    (∀ c : Char, (c == sign) = true →
      ∃ b, String.utf8EncodeChar c = [b] ∧ (b == UInt8.ofNat sign.toNat) = true) ∧
    ∀ c : Char, (c == sign) = false →
      ∀ b ∈ String.utf8EncodeChar c, (b == UInt8.ofNat sign.toNat) = false := by
  constructor
  · intro c hc
    obtain rfl := eq_of_beq hc
    exact ⟨_, Utf8.utf8EncodeChar_of_lt hsign, beq_self_eq_true _⟩
  · intro c hc b hb
    rw [beq_eq_false_iff_ne] at hc ⊢
    rintro rfl
    have hmem : sign ∈ [c] := Utf8.mem_of_mem_encode hsign (List.mem_flatMap.mpr ⟨c, by simp, hb⟩)
    exact hc (List.mem_singleton.mp hmem).symm

theorem splitAll_encode {sign : Char} (hsign : sign.toNat < 0x80) (cs : List Char) :
    Text.splitAll (· == UInt8.ofNat sign.toNat) (Utf8.encode cs)
      = (Text.splitAll (· == sign) cs).map Utf8.encode :=
  Text.splitAll_flatMap (utf8EncodeChar_sign hsign).1 (utf8EncodeChar_sign hsign).2 cs

theorem cut_encode {sign : Char} (hsign : sign.toNat < 0x80) (cs : List Char) :
    Text.cut (· == UInt8.ofNat sign.toNat) (Utf8.encode cs)
      = (Text.cut (· == sign) cs).map fun p => (Utf8.encode p.1, Utf8.encode p.2) :=
  Text.cut_flatMap (utf8EncodeChar_sign hsign).1 (utf8EncodeChar_sign hsign).2 cs

/-- A character of a text in which a plus sign stands for a space. -/
def spaced (c : Char) : Char :=
  if c = '+' then ' ' else c

theorem spaced_of_ne {c : Char} (h : c ≠ '+') : spaced c = c :=
  if_neg h

theorem map_spaceOfPlus_encode (cs : List Char) :
    (Utf8.encode cs).map spaceOfPlus = Utf8.encode (cs.map spaced) := by
  induction cs with
  | nil => rfl
  | cons c cs ih =>
    rw [Utf8.encode_cons, List.map_append, ih, List.map_cons, Utf8.encode_cons]
    congr 1
    by_cases hc : c = '+'
    · subst hc
      decide
    · have hplus : '+'.toNat < 0x80 := by decide
      rw [spaced_of_ne hc]
      refine (List.map_congr_left fun b hb => ?_).trans (List.map_id' _)
      exact if_neg (by simpa using (utf8EncodeChar_sign hplus).2 c (by simpa using hc) b hb)

theorem readText_encode (cs : List Char) :
    readText (Utf8.encode cs)
      = String.ofList (Utf8.decodeLossy (Percent.decodeText (cs.map spaced))) := by
  rw [readText, map_spaceOfPlus_encode, Percent.decodeText]

def halves (cs : List Char) : List Char × List Char :=
  (Text.cut (· == '=') cs).getD (cs, [])

theorem readPair_encode (cs : List Char) :
    readPair (Utf8.encode cs)
      = (readText (Utf8.encode (halves cs).1), readText (Utf8.encode (halves cs).2)) := by
  have hsign : '='.toNat < 0x80 := by decide
  have hcut : Text.cut (· == 0x3D) (Utf8.encode cs)
      = (Text.cut (· == '=') cs).map fun p => (Utf8.encode p.1, Utf8.encode p.2) :=
    cut_encode hsign cs
  rw [readPair, hcut, halves]
  cases Text.cut (· == '=') cs with
  | none => rfl
  | some p => rfl

theorem read_encode_text (cs : List Char) :
    read (Utf8.encode cs) = ((Text.splitAll (· == '&') cs).filter fun p => !p.isEmpty).map
      fun p => readPair (Utf8.encode p) := by
  have hsign : '&'.toNat < 0x80 := by decide
  have hsplit : Text.splitAll (· == 0x26) (Utf8.encode cs)
      = (Text.splitAll (· == '&') cs).map Utf8.encode :=
    splitAll_encode hsign cs
  have hempty (p : List Char) : (Utf8.encode p).isEmpty = p.isEmpty := by
    rw [Bool.eq_iff_iff, List.isEmpty_iff, List.isEmpty_iff, Utf8.encode_eq_nil]
  rw [read, hsplit, List.filter_map, List.map_map]
  simp only [Function.comp_def, hempty]

/-! ## Escaped queries -/

/-- A class of characters that can be escaped in a written query: it holds the space, and no sign of
a form or of an escape. -/
structure Escapable (escaped : Char → Bool) : Prop where
  space : escaped ' ' = true
  sign : ∀ c ∈ ['&', '=', '+', '%'], escaped c = false
  hex : ∀ c, Percent.isHexDigit c = true → escaped c = false

section Escaped

variable {escaped : Char → Bool} (h : Escapable escaped)
include h

/-- A sign that is kept stands for itself, and no escape brings another one. -/
theorem Escapable.encodeChar_sign {sign : Char} (hsign : sign ∈ ['&', '=']) :
    (∀ c : Char, (c == sign) = true →
      ∃ d, Percent.encodeChar escaped c = [d] ∧ (d == sign) = true) ∧
    ∀ c : Char, (c == sign) = false →
      ∀ d ∈ Percent.encodeChar escaped c, (d == sign) = false := by
  have hlow : sign.toNat < 0x80 ∧ sign ∉ Percent.escapeAlphabet := by
    simp only [List.mem_cons, List.not_mem_nil, or_false] at hsign
    rcases hsign with rfl | rfl <;> decide
  have hkept : escaped sign = false :=
    h.sign sign (List.mem_append_left ['+', '%'] hsign)
  constructor
  · intro c hc
    obtain rfl := eq_of_beq hc
    exact ⟨c, by simp [Percent.encodeChar, hlow.1, hkept], beq_self_eq_true c⟩
  · intro c hc d hd
    rw [beq_eq_false_iff_ne] at hc ⊢
    rintro rfl
    rcases Percent.mem_encodeChar hd with hmem | hmem
    · exact hc hmem.1.symm
    · exact hlow.2 hmem

theorem splitAll_escaped (cs : List Char) :
    Text.splitAll (· == '&') (Percent.encode escaped cs)
      = (Text.splitAll (· == '&') cs).map (Percent.encode escaped) :=
  Text.splitAll_flatMap (h.encodeChar_sign (by simp)).1 (h.encodeChar_sign (by simp)).2 cs

theorem halves_escaped (cs : List Char) :
    halves (Percent.encode escaped cs)
      = (Percent.encode escaped (halves cs).1, Percent.encode escaped (halves cs).2) := by
  have hmem : '=' ∈ ['&', '='] := by simp
  have hcut := Text.cut_flatMap (h.encodeChar_sign hmem).1 (h.encodeChar_sign hmem).2 cs
  rw [halves, halves, Percent.encode, hcut]
  cases Text.cut (· == '=') cs with
  | none => rfl
  | some p => rfl

/-- Once the spaces that stand for a `+` are escaped too, it makes no difference which of the two is
done first. -/
theorem encode_map_spaced (cs : List Char) :
    Percent.encode (· == ' ') ((Percent.encode escaped cs).map spaced)
      = Percent.encode escaped (cs.map spaced) := by
  induction cs with
  | nil => rfl
  | cons c cs ih =>
    rw [Percent.encode_cons, List.map_append, List.map_cons, Percent.encode_cons escaped, ← ih,
      Percent.encode, List.flatMap_append]
    congr 1
    by_cases hplus : c = '+'
    · subst hplus
      have hkept : Percent.encodeChar escaped '+' = ['+'] := by
        simp [Percent.encodeChar, h.sign '+' (by simp)]
      have hspace : Percent.encodeChar escaped ' ' = (String.utf8EncodeChar ' ').flatMap
          Percent.escape := by
        simp [Percent.encodeChar, h.space]
      rw [hkept, show spaced '+' = ' ' from rfl, hspace]
      decide
    · -- Neither step finds anything to do in what is kept or in an escape.
      have hescapes : Percent.escapeAlphabet.all
          (fun d => decide (d ≠ '+' ∧ d.toNat < 0x80 ∧ (d == ' ') = false)) = true := by decide
      have hall : ∀ d ∈ Percent.encodeChar escaped c,
          d ≠ '+' ∧ d.toNat < 0x80 ∧ (d == ' ') = false := by
        intro d hd
        rcases Percent.mem_encodeChar hd with ⟨rfl, hlow, hkept⟩ | hmem
        · refine ⟨hplus, hlow, beq_eq_false_iff_ne.mpr ?_⟩
          rintro rfl
          simp [h.space] at hkept
        · exact of_decide_eq_true (List.all_eq_true.mp hescapes d hmem)
      have hmap : (Percent.encodeChar escaped c).map spaced = Percent.encodeChar escaped c :=
        (List.map_congr_left fun d hd => spaced_of_ne (hall d hd).1).trans (List.map_id' _)
      rw [hmap, spaced_of_ne hplus]
      exact Percent.encode_eq_self fun d hd => (hall d hd).2

theorem readText_escaped (cs : List Char) :
    readText (Utf8.encode (Percent.encode escaped cs)) = readText (Utf8.encode cs) := by
  have hspace : ∀ c, Percent.isHexDigit c = true → (c == ' ') = false := by
    intro c hc
    rw [beq_eq_false_iff_ne]
    rintro rfl
    cases hc
  rw [readText_encode, readText_encode, ← Percent.decode_encode (by decide) hspace,
    encode_map_spaced h, Percent.decode_encode (h.sign '%' (by simp)) h.hex]

/-- **A query is read the same whether it is escaped or not.** -/
theorem read_escaped (cs : List Char) :
    read (Utf8.encode (Percent.encode escaped cs)) = read (Utf8.encode cs) := by
  have hempty (p : List Char) : (Percent.encode escaped p).isEmpty = p.isEmpty := by
    cases p with
    | nil => rfl
    | cons c p => simp [Percent.encode_cons, Percent.encodeChar_ne_nil]
  have hpair (p : List Char) :
      readPair (Utf8.encode (Percent.encode escaped p)) = readPair (Utf8.encode p) := by
    rw [readPair_encode, readPair_encode, halves_escaped h, readText_escaped h, readText_escaped h]
  rw [read_encode_text, read_encode_text, splitAll_escaped h, List.filter_map, List.map_map]
  simp only [Function.comp_def, hempty, hpair]

end Escaped

/-! ## Encoded pairs -/

/-- What is escaped in a name or a value, apart from the space. -/
def inText (c : Char) : Bool :=
  !isPlain c && c != ' '

theorem map_spaced_encodeText (s : String) :
    (encodeText s).map spaced = Percent.encode inText s.toList := by
  unfold encodeText
  induction s.toList with
  | nil => rfl
  | cons c cs ih =>
    rw [List.flatMap_cons, List.map_append, ih, Percent.encode_cons]
    congr 1
    unfold encodeChar
    split
    · next hc =>
      subst hc
      decide
    · next hc =>
      have hclass : Percent.encodeChar inText c = Percent.encodeChar (fun d => !isPlain d) c := by
        simp [Percent.encodeChar, inText, hc]
      have hescapes : '+' ∉ Percent.escapeAlphabet := by decide
      rw [hclass]
      refine (List.map_congr_left fun d hd => spaced_of_ne ?_).trans (List.map_id' _)
      rcases Percent.mem_encodeChar hd with ⟨-, -, hplain⟩ | hmem
      · rintro rfl
        revert hplain
        decide
      · exact fun hd => hescapes (hd ▸ hmem)

/-- **A name or a value comes back.** -/
theorem readText_encodeText (s : String) : readText (Utf8.encode (encodeText s)) = s := by
  rw [readText_encode, map_spaced_encodeText, Percent.decodeText_encode_of_percent (by decide),
    Utf8.decodeLossy_encode, String.ofList_toList]

/-- No sign of a form comes from a name or a value. -/
theorem sign_notMem_encodeText {sign : Char} (hsign : sign ∈ ['&', '=']) (s : String) :
    sign ∉ encodeText s := by
  intro hmem
  obtain ⟨c, -, hc⟩ := List.mem_flatMap.mp hmem
  have hother : sign ≠ '+' ∧ isPlain sign = false ∧ sign ∉ Percent.escapeAlphabet := by
    simp only [List.mem_cons, List.not_mem_nil, or_false] at hsign
    rcases hsign with rfl | rfl <;> decide
  unfold encodeChar at hc
  split at hc
  · exact hother.1 (List.mem_singleton.mp hc)
  · rcases Percent.mem_encodeChar hc with ⟨-, -, hplain⟩ | hmem
    · simp [hother.2.1] at hplain
    · exact hother.2.2 hmem

theorem readPair_encodePair (p : String × String) : readPair (Utf8.encode (encodePair p)) = p := by
  have hname : ∀ c ∈ encodeText p.1, (c == '=') = false := by
    intro c hc
    rw [beq_eq_false_iff_ne]
    rintro rfl
    exact sign_notMem_encodeText (by simp) _ hc
  have hhalves : halves (encodePair p) = (encodeText p.1, encodeText p.2) := by
    have hcut : Text.cut (· == '=') (encodePair p) = some (encodeText p.1, encodeText p.2) :=
      Text.cut_append_cons rfl hname _
    rw [halves, hcut]
    rfl
  rw [readPair_encode, hhalves, readText_encodeText, readText_encodeText]

/-- **Encoded pairs come back.** -/
theorem read_encode (pairs : List (String × String)) :
    read (Utf8.encode (encode pairs)) = pairs := by
  by_cases hnil : pairs = []
  · subst hnil
    rfl
  · have hsign : ∀ l ∈ pairs.map encodePair, '&' ∉ l := by
      intro l hl
      obtain ⟨p, -, rfl⟩ := List.mem_map.mp hl
      simp [encodePair, sign_notMem_encodeText]
    have hfull : ∀ l ∈ pairs.map encodePair, (!l.isEmpty) = true := by
      intro l hl
      obtain ⟨p, -, rfl⟩ := List.mem_map.mp hl
      simp [encodePair]
    rw [read_encode_text, encode, Text.splitAll_intercalate hsign (by simpa using hnil),
      List.filter_eq_self.mpr hfull, List.map_map]
    exact (List.map_congr_left fun p _ => readPair_encodePair p).trans (List.map_id' _)

end HttpService.FormPairs
