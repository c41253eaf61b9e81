import HttpService.Json.Reader
import HttpService.Proofs.Json.Lexemes

/-!
# Reading a document that was written

Both forms of a text, the compact one and the one over several lines, are instances of one layout
(`Layout.chars`): they differ in the blanks between the signs.  A tree that is `Stored` under an
outline, which means that the outline names all its members, its numbers fit and it is not too
deep, is read back from its text in any layout (`parseAs_layout`).

The proof goes along `Stored`.  For arrays and objects it uses that each item, or member, is read
back whatever follows it (`items_layout`, `members_layout`).
-/

namespace HttpService.Json

open Lexeme

/-! ## Layouts -/

/-- The blanks of a text: those before an item of some level, and those behind a colon. -/
structure Layout where
  gap : Nat → List Char
  colon : List Char
  gap_blank : ∀ level, ∀ c ∈ gap level, c = '\n' ∨ c = ' '
  colon_blank : ∀ c ∈ colon, c = '\n' ∨ c = ' '

namespace Layout

mutual

/-- The text of a value whose first line stands at `level`. -/
def chars (l : Layout) (level : Nat) : Json → List Char
  | .null => ['n', 'u', 'l', 'l']
  | .bool b => boolText b
  | .number n => numberText n
  | .string s => stringText s
  | .array [] => ['[', ']']
  | .array items => '[' :: itemChars l (level + 1) items ++ l.gap level ++ [']']
  | .object [] => ['\x7b', '\x7d']
  | .object members => '\x7b' :: memberChars l (level + 1) members ++ l.gap level ++ ['\x7d']

def itemChars (l : Layout) (level : Nat) : List Json → List Char
  | [] => []
  | [j] => l.gap level ++ chars l level j
  | j :: rest => l.gap level ++ chars l level j ++ ',' :: itemChars l level rest

def memberChars (l : Layout) (level : Nat) : List (String × Json) → List Char
  | [] => []
  | [(n, j)] => l.gap level ++ stringText n ++ ':' :: (l.colon ++ chars l level j)
  | (n, j) :: rest =>
    l.gap level ++ stringText n ++ ':' :: (l.colon ++ chars l level j) ++
      ',' :: memberChars l level rest

end

def tight : Layout where
  gap _ := []
  colon := []
  gap_blank := nofun
  colon_blank := nofun

/-- A line for every item and member. -/
def lines : Layout where
  gap := newLine
  colon := [' ']
  gap_blank level c hc := by
    rcases List.mem_cons.mp hc with rfl | hc
    · exact .inl rfl
    · exact .inr (List.eq_of_mem_replicate hc)
  colon_blank c hc := .inr (List.mem_singleton.mp hc)

mutual

theorem chars_tight (level : Nat) : ∀ j : Json, tight.chars level j = compactChars j
  | .null | .bool _ | .number _ | .string _ | .array [] | .object [] => rfl
  | .array (j :: items) =>
    (congrArg (fun cs => '[' :: cs ++ [] ++ [']']) (itemChars_tight (level + 1) (j :: items))).trans
      (by rw [List.append_nil]; rfl)
  | .object (m :: members) =>
    (congrArg (fun cs => '\x7b' :: cs ++ [] ++ ['\x7d'])
      (memberChars_tight (level + 1) (m :: members))).trans (by rw [List.append_nil]; rfl)

theorem itemChars_tight (level : Nat) : ∀ js : List Json, tight.itemChars level js = compactItems js
  | [] => rfl
  | [j] => chars_tight level j
  | j :: j' :: rest =>
    congrArg₂ (fun cs ds => cs ++ ',' :: ds) (chars_tight level j) (itemChars_tight level (j' :: rest))

theorem memberChars_tight (level : Nat) :
    ∀ ms : List (String × Json), tight.memberChars level ms = compactMembers ms
  | [] => rfl
  | [(n, j)] => congrArg (fun cs => stringText n ++ ':' :: cs) (chars_tight level j)
  | (n, j) :: m :: rest =>
    congrArg₂ (fun cs ds => stringText n ++ ':' :: cs ++ ',' :: ds) (chars_tight level j)
      (memberChars_tight level (m :: rest))

end

mutual

theorem chars_lines (level : Nat) : ∀ j : Json, lines.chars level j = prettyChars level j
  | .null | .bool _ | .number _ | .string _ | .array [] | .object [] => rfl
  | .array (j :: items) =>
    congrArg (fun cs => '[' :: cs ++ newLine level ++ [']']) (itemChars_lines (level + 1) (j :: items))
  | .object (m :: members) =>
    congrArg (fun cs => '\x7b' :: cs ++ newLine level ++ ['\x7d'])
      (memberChars_lines (level + 1) (m :: members))

theorem itemChars_lines (level : Nat) :
    ∀ js : List Json, lines.itemChars level js = prettyItems level js
  | [] => rfl
  | [j] => congrArg (newLine level ++ ·) (chars_lines level j)
  | j :: j' :: rest =>
    congrArg₂ (fun cs ds => newLine level ++ cs ++ ',' :: ds) (chars_lines level j)
      (itemChars_lines level (j' :: rest))

theorem memberChars_lines (level : Nat) :
    ∀ ms : List (String × Json), lines.memberChars level ms = prettyMembers level ms
  | [] => rfl
  | [(n, j)] =>
    congrArg (fun cs => newLine level ++ stringText n ++ ':' :: ' ' :: cs) (chars_lines level j)
  | (n, j) :: m :: rest =>
    congrArg₂ (fun cs ds => newLine level ++ stringText n ++ ':' :: ' ' :: cs ++ ',' :: ds)
      (chars_lines level j) (memberChars_lines level (m :: rest))

end

end Layout

/-! ## What is read back -/

/-- A tree that an outline wants all of, with at most `depth` arrays and objects inside one another,
whose numbers are whole and fit into 64 bits. -/
inductive Stored : Nat → Outline → Json → Prop
  | null {depth : Nat} {outline : Outline} : Stored depth outline .null
  | bool {depth : Nat} {outline : Outline} (b : Bool) : Stored depth outline (.bool b)
  | nat {depth : Nat} {outline : Outline} {n : Nat} (hn : n ≤ maxWhole) :
    Stored depth outline (.nat n)
  | string {depth : Nat} {outline : Outline} (s : String) : Stored depth outline (.string s)
  | array {depth : Nat} {outline : Outline} {items : List Json}
      (h : ∀ i (hi : i < items.length), Stored depth (outline.item i) items[i]) :
    Stored (depth + 1) outline (.array items)
  | object {depth : Nat} {outline : Outline} {ms : List (String × Json)}
      (hnodup : (ms.map Prod.fst).Nodup) (hwanted : ∀ m ∈ ms, (outline.member? m.1).isSome = true)
      (h : ∀ m ∈ ms, Stored depth ((outline.member? m.1).getD .whole) m.2) :
    Stored (depth + 1) outline (.object ms)

namespace Layout

theorem skipSpace_append {cs : List Char} (h : ∀ c ∈ cs, c = '\n' ∨ c = ' ') (bytes : Bytes) :
    skipSpace (Utf8.encode cs ++ bytes) = skipSpace bytes := by
  induction cs with
  | nil => rfl
  | cons c cs ih =>
    obtain ⟨hc, hcs⟩ := List.forall_mem_cons.mp h
    rw [← ih hcs]
    rcases hc with rfl | rfl
    · rfl
    · rfl

theorem skipSpace_cons {b : UInt8} (h : isSpace b = false) (bytes : Bytes) :
    skipSpace (b :: bytes) = b :: bytes := by
  rw [skipSpace, List.dropWhile_cons_of_neg (by simp [h])]

theorem chars_nat (l : Layout) (level n : Nat) : l.chars level (.nat n) = Text.digitsOf n := by
  show Text.signed ((n : Int) < 0) (Text.digitsOf (n : Int).natAbs) = _
  rw [Int.natAbs_natCast, Text.signed, if_neg (by simp)]

/-- Every text begins with a sign of its own, which is no blank and closes nothing. -/
theorem exists_encode_chars (l : Layout) (level : Nat) {depth : Nat} {outline : Outline} {j : Json}
    (h : Stored depth outline j) :
    ∃ b bs, Utf8.encode (l.chars level j) = b :: bs ∧ isSpace b = false ∧ b ≠ 0x5D := by
  cases h with
  | null => exact ⟨_, _, rfl, by decide, by decide⟩
  | bool b => cases b <;> exact ⟨_, _, rfl, by decide, by decide⟩
  | @nat _ _ n hn =>
    obtain ⟨d, ds, hds, hd, -⟩ := exists_digitBytes n
    rw [chars_nat]
    refine ⟨_, _, hds, ?_⟩
    interval_cases d <;> decide
  | string s => exact ⟨_, _, rfl, by decide, by decide⟩
  | @array _ _ items _ => cases items <;> exact ⟨_, _, rfl, by decide, by decide⟩
  | @object _ _ ms _ _ _ => cases ms <;> exact ⟨_, _, rfl, by decide, by decide⟩

end Layout

namespace Reader

variable {depth : Nat} {outline : Outline}

theorem value_null (rest : Bytes) :
    value depth outline (Utf8.encode ['n', 'u', 'l', 'l'] ++ rest) = .ok (.null, rest) := by
  cases depth <;> rfl

theorem value_bool (b : Bool) (rest : Bytes) :
    value depth outline (Utf8.encode (boolText b) ++ rest) = .ok (.bool b, rest) := by
  cases b <;> cases depth <;> rfl

theorem value_string (s : String) (rest : Bytes) :
    value depth outline (Utf8.encode (stringText s) ++ rest) = .ok (.string s, rest) := by
  have hvalue (bytes : Bytes) : value depth outline (0x22 :: bytes)
      = (stringBody (bytes.length + 1) [] bytes).map fun r => (.string r.1, r.2) := by
    cases depth <;> rfl
  rw [encode_stringText, hvalue, stringBody_stringTail]
  rfl

theorem value_number {n : Nat} (hn : n ≤ maxWhole) {rest : Bytes} (hrest : Stops rest) :
    value depth outline (digitBytes n ++ rest) = .ok (.nat n, rest) := by
  obtain ⟨d, ds, hds, hd, -⟩ := exists_digitBytes n
  have hvalue : value depth outline (digitByte d :: (ds ++ rest))
      = (Lexeme.number (digitByte d :: (ds ++ rest))).map fun r => (.number r.1, r.2) := by
    interval_cases d <;> cases depth <;> rfl
  rw [← List.cons_append, ← hds] at hvalue
  rw [hvalue, number_digitBytes hn hrest]
  rfl

theorem value_array_nil (rest : Bytes) :
    value (depth + 1) outline (0x5B :: 0x5D :: rest) = .ok (.array [], rest) := rfl

theorem value_array {bytes : Bytes} {c : UInt8} {more : Bytes} (h : skipSpace bytes = c :: more)
    (hc : c ≠ 0x5D) :
    value (depth + 1) outline (0x5B :: bytes)
      = items (fun place => value depth (outline.item place)) (bytes.length + 1) 0 []
          (c :: more) := by
  have hopen : skipSpace (0x5B :: bytes) = 0x5B :: bytes := rfl
  have hdigit : isDigit 0x5B = false := by decide
  rw [value]
  simp [hopen, hdigit, h, hc]

theorem value_object_nil (rest : Bytes) :
    value (depth + 1) outline (0x7B :: 0x7D :: rest) = .ok (.object [], rest) := rfl

theorem value_object {bytes : Bytes} {c : UInt8} {more : Bytes} (h : skipSpace bytes = c :: more)
    (hc : c ≠ 0x7D) :
    value (depth + 1) outline (0x7B :: bytes)
      = members (fun name => member (value depth) (outline.member? name)) (bytes.length + 1) []
          (c :: more) := by
  have hopen : skipSpace (0x7B :: bytes) = 0x7B :: bytes := rfl
  have hdigit : isDigit 0x7B = false := by decide
  rw [value]
  simp [hopen, hdigit, h, hc]

theorem value_congr {bytes bytes' : Bytes} (h : skipSpace bytes = skipSpace bytes') :
    value depth outline bytes = value depth outline bytes' := by
  rw [value.eq_def, value.eq_def depth outline bytes']
  dsimp only
  rw [h]

/-! ### Items -/

section Items

variable {item : Nat → Bytes → Except Fault (Json × Bytes)} {fuel place : Nat} {acc : List Json}
  {bytes r more : Bytes} {j : Json}

theorem items_last (hitem : item place bytes = .ok (j, r)) (hr : skipSpace r = 0x5D :: more) :
    items item (fuel + 1) place acc bytes = .ok (.array (j :: acc).reverse, more) := by
  rw [items]
  simp [hitem, hr]

theorem items_more {c : UInt8} (hitem : item place bytes = .ok (j, 0x2C :: r))
    (hr : skipSpace r = c :: more) (hc : c ≠ 0x5D) :
    items item (fuel + 1) place acc bytes
      = items item fuel (place + 1) (j :: acc) (c :: more) := by
  have hcomma : skipSpace (0x2C :: r) = 0x2C :: r := rfl
  rw [items]
  simp [hitem, ok_bind, hcomma, hr, hc]

end Items

/-! ### Members -/

section Members

variable {read : String → Bytes → Except Fault (Option Json × Bytes)} {fuel : Nat}
  {acc : List (String × Json)} {n : String} {bytes r more : Bytes} {j : Json}

theorem members_last (hcolon : skipSpace bytes = 0x3A :: r)
    (hmember : read n r = .ok (some j, more)) {rest : Bytes} (hmore : skipSpace more = 0x7D :: rest) :
    members read (fuel + 1) acc (0x22 :: stringTail n bytes)
      = .ok (.object ((n, j) :: acc).reverse, rest) := by
  rw [members]
  simp [stringBody_stringTail, hcolon, hmember, hmore]

theorem members_more (hcolon : skipSpace bytes = 0x3A :: r) {rest : Bytes}
    (hmember : read n r = .ok (some j, 0x2C :: rest)) :
    members read (fuel + 1) acc (0x22 :: stringTail n bytes)
      = members read fuel ((n, j) :: acc) (skipSpace rest) := by
  have hcomma : skipSpace (0x2C :: rest) = 0x2C :: rest := rfl
  rw [members]
  simp [stringBody_stringTail, ok_bind, hcolon, hmember, hcomma]

end Members

end Reader

namespace Layout

variable (l : Layout)

/-- What stands behind the first item. -/
def moreItems (level : Nat) : List Json → List Char
  | [] => []
  | j :: items => ',' :: l.itemChars level (j :: items)

theorem itemChars_cons (level : Nat) (j : Json) (items : List Json) :
    l.itemChars level (j :: items)
      = l.gap level ++ (l.chars level j ++ l.moreItems level items) := by
  cases items <;> simp [itemChars, moreItems]

theorem encode_itemChars (level : Nat) (j : Json) (items : List Json) (close : Bytes) :
    Utf8.encode (l.itemChars level (j :: items)) ++ close
      = Utf8.encode (l.gap level) ++ (Utf8.encode (l.chars level j) ++
          (Utf8.encode (l.moreItems level items) ++ close)) := by
  rw [itemChars_cons]
  simp only [Utf8.encode_append, List.append_assoc]

theorem length_le_moreItems (level : Nat) (items : List Json) :
    items.length ≤ (Utf8.encode (l.moreItems level items)).length := by
  induction items with
  | nil => exact Nat.zero_le _
  | cons j items ih =>
    have h := congrArg List.length (l.encode_itemChars level j items [])
    simp only [List.append_nil, List.length_append] at h
    show _ ≤ (0x2C :: Utf8.encode (l.itemChars level (j :: items))).length
    simp only [List.length_cons]
    omega

/-- A value that is read back whatever stops it, and that begins with a sign of its own. -/
structure ReadBack (read : Bytes → Except Fault (Json × Bytes)) (text : Bytes) (j : Json) : Prop where
  begins : ∃ b bs, text = b :: bs ∧ isSpace b = false ∧ b ≠ 0x5D
  reads : ∀ rest, Stops rest → read (text ++ rest) = .ok (j, rest)

theorem skipSpace_text {read : Bytes → Except Fault (Json × Bytes)} {text : Bytes} {j : Json}
    (h : ReadBack read text j) (rest : Bytes) :
    ∃ b bs, skipSpace (text ++ rest) = b :: bs ∧ b :: bs = text ++ rest ∧ b ≠ 0x5D := by
  obtain ⟨b, bs, rfl, hspace, hclose⟩ := h.begins
  exact ⟨b, bs ++ rest, skipSpace_cons hspace _, rfl, hclose⟩

/-- The items of an array are read back when each of them is. -/
theorem items_layout {item : Nat → Bytes → Except Fault (Json × Bytes)} {level : Nat}
    {close rest : Bytes} (hclose : skipSpace close = 0x5D :: rest) (hstops : Stops close)
    (j : Json) (js : List Json) (place fuel : Nat) (acc : List Json) (hfuel : js.length < fuel)
    (hj : ReadBack (item place) (Utf8.encode (l.chars level j)) j)
    (hjs : ∀ i (hi : i < js.length),
      ReadBack (item (place + 1 + i)) (Utf8.encode (l.chars level js[i])) js[i]) :
    Reader.items item fuel place acc
        (Utf8.encode (l.chars level j) ++ (Utf8.encode (l.moreItems level js) ++ close))
      = .ok (.array (acc.reverse ++ j :: js), rest) := by
  induction js generalizing j place fuel acc with
  | nil =>
    obtain ⟨fuel, rfl⟩ : ∃ n, fuel = n + 1 := ⟨fuel - 1, by omega⟩
    rw [moreItems]
    show Reader.items item (fuel + 1) place acc (Utf8.encode (l.chars level j) ++ close) = _
    rw [Reader.items_last (hj.reads close hstops) hclose, List.reverse_cons]
  | cons j' js ih =>
    obtain ⟨fuel, rfl⟩ : ∃ n, fuel = n + 1 := ⟨fuel - 1, by omega⟩
    have hj' : ReadBack (item (place + 1)) (Utf8.encode (l.chars level j')) j' :=
      hjs 0 (Nat.zero_lt_succ _)
    let next := Utf8.encode (l.chars level j') ++ (Utf8.encode (l.moreItems level js) ++ close)
    obtain ⟨b, bs, hskip, hnext, hb⟩ :=
      skipSpace_text hj' (Utf8.encode (l.moreItems level js) ++ close)
    have htail : Utf8.encode (l.moreItems level (j' :: js)) ++ close
        = 0x2C :: (Utf8.encode (l.gap level) ++ next) :=
      congrArg (0x2C :: ·) (l.encode_itemChars level j' js close)
    have hcomma : Stops (0x2C :: (Utf8.encode (l.gap level) ++ next)) := by
      rintro _ ⟨⟩
      decide
    have hgap : skipSpace (Utf8.encode (l.gap level) ++ next) = b :: bs :=
      (skipSpace_append (l.gap_blank level) next).trans hskip
    rw [htail, Reader.items_more (hj.reads _ hcomma) hgap hb, hnext]
    refine (ih j' (place + 1) fuel (j :: acc) (by simpa using hfuel) hj' fun i hi => ?_).trans ?_
    · have h := hjs (i + 1) (Nat.succ_lt_succ hi)
      rwa [show place + 1 + (i + 1) = place + 1 + 1 + i by omega] at h
    · rw [List.reverse_cons, List.append_assoc, List.singleton_append]

/-- What stands behind the first member. -/
def moreMembers (level : Nat) : List (String × Json) → List Char
  | [] => []
  | m :: ms => ',' :: l.memberChars level (m :: ms)

theorem memberChars_cons (level : Nat) (n : String) (j : Json) (ms : List (String × Json)) :
    l.memberChars level ((n, j) :: ms)
      = l.gap level ++ (stringText n ++
          ':' :: (l.colon ++ (l.chars level j ++ l.moreMembers level ms))) := by
  cases ms <;> simp [memberChars, moreMembers]

/-- The bytes of a member from its name on, and what follows it. -/
def memberBytes (level : Nat) (n : String) (j : Json) (rest : Bytes) : Bytes :=
  0x22 :: stringTail n (0x3A :: (Utf8.encode l.colon ++ (Utf8.encode (l.chars level j) ++ rest)))

theorem length_lt_memberBytes (level : Nat) (n : String) (j : Json) (rest : Bytes) :
    rest.length < (l.memberBytes level n j rest).length := by
  simp only [memberBytes, stringTail, List.length_cons, List.length_append]
  omega

theorem encode_memberChars (level : Nat) (n : String) (j : Json) (ms : List (String × Json))
    (close : Bytes) :
    Utf8.encode (l.memberChars level ((n, j) :: ms)) ++ close
      = Utf8.encode (l.gap level) ++
          l.memberBytes level n j (Utf8.encode (l.moreMembers level ms) ++ close) := by
  rw [memberChars_cons]
  simp only [Utf8.encode_append, List.append_assoc]
  rw [encode_stringText, Utf8.encode_cons, Utf8.encode_append, Utf8.encode_append]
  simp only [List.append_assoc]
  rfl

theorem length_le_moreMembers (level : Nat) (ms : List (String × Json)) :
    ms.length ≤ (Utf8.encode (l.moreMembers level ms)).length := by
  induction ms with
  | nil => exact Nat.zero_le _
  | cons m ms ih =>
    obtain ⟨n, j⟩ := m
    have h := congrArg List.length (l.encode_memberChars level n j ms [])
    have hmember := l.length_lt_memberBytes level n j (Utf8.encode (l.moreMembers level ms) ++ [])
    simp only [List.append_nil, List.length_append] at h hmember
    show _ ≤ (0x2C :: Utf8.encode (l.memberChars level ((n, j) :: ms))).length
    simp only [List.length_cons]
    omega

theorem members_layout {read : String → Bytes → Except Fault (Option Json × Bytes)} {level : Nat}
    {close rest : Bytes} (hclose : skipSpace close = 0x7D :: rest) (hstops : Stops close)
    (n : String) (j : Json) (ms : List (String × Json)) (fuel : Nat) (acc : List (String × Json))
    (hfuel : ms.length < fuel)
    (h : ∀ m ∈ (n, j) :: ms, ∀ rest, Stops rest →
      read m.1 (Utf8.encode l.colon ++ (Utf8.encode (l.chars level m.2) ++ rest))
        = .ok (some m.2, rest)) :
    Reader.members read fuel acc
        (l.memberBytes level n j (Utf8.encode (l.moreMembers level ms) ++ close))
      = .ok (.object (acc.reverse ++ (n, j) :: ms), rest) := by
  have hcolon (bytes : Bytes) : skipSpace (0x3A :: bytes) = 0x3A :: bytes := rfl
  induction ms generalizing n j fuel acc with
  | nil =>
    obtain ⟨fuel, rfl⟩ : ∃ n, fuel = n + 1 := ⟨fuel - 1, by omega⟩
    have hread := h (n, j) List.mem_cons_self close hstops
    rw [moreMembers]
    show Reader.members read (fuel + 1) acc (l.memberBytes level n j close) = _
    rw [memberBytes, Reader.members_last (hcolon _) hread hclose, List.reverse_cons]
  | cons m ms ih =>
    obtain ⟨n', j'⟩ := m
    obtain ⟨fuel, rfl⟩ : ∃ n, fuel = n + 1 := ⟨fuel - 1, by omega⟩
    obtain ⟨hj, hms⟩ := List.forall_mem_cons.mp h
    let next := l.memberBytes level n' j' (Utf8.encode (l.moreMembers level ms) ++ close)
    have htail : Utf8.encode (l.moreMembers level ((n', j') :: ms)) ++ close
        = 0x2C :: (Utf8.encode (l.gap level) ++ next) :=
      congrArg (0x2C :: ·) (l.encode_memberChars level n' j' ms close)
    have hcomma : Stops (0x2C :: (Utf8.encode (l.gap level) ++ next)) := by
      rintro _ ⟨⟩
      decide
    have hgap : skipSpace (Utf8.encode (l.gap level) ++ next) = next :=
      skipSpace_append (l.gap_blank level) next
    rw [htail, memberBytes, Reader.members_more (hcolon _) (hj _ hcomma), hgap]
    refine (ih n' j' fuel ((n, j) :: acc) (by simpa using hfuel) hms).trans ?_
    rw [List.reverse_cons, List.append_assoc, List.singleton_append]

/-! ### Arrays and objects -/

/-- What stands behind the last item or member: blanks, and the sign that closes. -/
def closing (level : Nat) (sign : UInt8) (rest : Bytes) : Bytes :=
  Utf8.encode (l.gap level) ++ sign :: rest

theorem skipSpace_closing (level : Nat) {sign : UInt8} (h : isSpace sign = false) (rest : Bytes) :
    skipSpace (l.closing level sign rest) = sign :: rest :=
  (skipSpace_append (l.gap_blank level) _).trans (skipSpace_cons h rest)

theorem stops_closing (level : Nat) {sign : UInt8} (h : Stops [sign]) (rest : Bytes) :
    Stops (l.closing level sign rest) := by
  unfold closing
  cases hgap : l.gap level with
  | nil =>
    rintro _ ⟨⟩
    exact h sign rfl
  | cons c cs =>
    have hc := l.gap_blank level c (by simp [hgap])
    rcases hc with rfl | rfl <;>
    · rintro _ ⟨⟩
      decide

theorem encode_array (level : Nat) (j : Json) (js : List Json) (rest : Bytes) :
    Utf8.encode (l.chars level (.array (j :: js))) ++ rest
      = 0x5B :: (Utf8.encode (l.itemChars (level + 1) (j :: js)) ++ l.closing level 0x5D rest) := by
  show Utf8.encode ('[' :: _ ++ _ ++ _) ++ rest = _
  rw [List.cons_append, List.cons_append, Utf8.encode_cons]
  simp only [Utf8.encode_append, List.append_assoc]
  rfl

theorem encode_object (level : Nat) (m : String × Json) (ms : List (String × Json))
    (rest : Bytes) :
    Utf8.encode (l.chars level (.object (m :: ms))) ++ rest
      = 0x7B :: (Utf8.encode (l.memberChars (level + 1) (m :: ms)) ++
          l.closing level 0x7D rest) := by
  show Utf8.encode ('\x7b' :: _ ++ _ ++ _) ++ rest = _
  rw [List.cons_append, List.cons_append, Utf8.encode_cons]
  simp only [Utf8.encode_append, List.append_assoc]
  rfl

theorem value_array_layout {depth : Nat} {outline : Outline} (level : Nat) (j : Json)
    (js : List Json) (rest : Bytes)
    (h : ∀ i (hi : i < (j :: js).length), ReadBack (Reader.value depth (outline.item i))
      (Utf8.encode (l.chars (level + 1) (j :: js)[i])) (j :: js)[i]) :
    Reader.value (depth + 1) outline (Utf8.encode (l.chars level (.array (j :: js))) ++ rest)
      = .ok (.array (j :: js), rest) := by
  have hclose := l.skipSpace_closing level (show isSpace 0x5D = false by decide) rest
  have hstops : Stops (l.closing level 0x5D rest) :=
    l.stops_closing level (by rintro _ ⟨⟩; decide) rest
  have hfirst : ReadBack (Reader.value depth (outline.item 0))
      (Utf8.encode (l.chars (level + 1) j)) j := h 0 (Nat.zero_lt_succ _)
  obtain ⟨b, bs, hskip, hnext, hb⟩ := skipSpace_text hfirst
    (Utf8.encode (l.moreItems (level + 1) js) ++ l.closing level 0x5D rest)
  rw [encode_array, l.encode_itemChars, Reader.value_array
    ((skipSpace_append (l.gap_blank _) _).trans hskip) hb, hnext]
  refine (l.items_layout hclose hstops j js 0 _ [] ?_ hfirst fun i hi => ?_).trans rfl
  · have := l.length_le_moreItems (level + 1) js
    simp only [List.length_append]
    omega
  · have hplace : 0 + 1 + i = i + 1 := by omega
    rw [hplace]
    exact h (i + 1) (Nat.succ_lt_succ hi)

theorem value_object_layout {depth : Nat} {outline : Outline} (level : Nat) (n : String)
    (j : Json) (ms : List (String × Json)) (rest : Bytes)
    (h : ∀ m ∈ (n, j) :: ms, ∃ wanted, outline.member? m.1 = some wanted ∧
      ∀ r, Stops r → Reader.value depth wanted (Utf8.encode (l.chars (level + 1) m.2) ++ r)
        = .ok (m.2, r)) :
    Reader.value (depth + 1) outline
        (Utf8.encode (l.chars level (.object ((n, j) :: ms))) ++ rest)
      = .ok (.object ((n, j) :: ms), rest) := by
  have hclose := l.skipSpace_closing level (show isSpace 0x7D = false by decide) rest
  have hstops : Stops (l.closing level 0x7D rest) :=
    l.stops_closing level (by rintro _ ⟨⟩; decide) rest
  let first := l.memberBytes (level + 1) n j
    (Utf8.encode (l.moreMembers (level + 1) ms) ++ l.closing level 0x7D rest)
  have hskip : skipSpace (Utf8.encode (l.gap (level + 1)) ++ first) = first :=
    (skipSpace_append (l.gap_blank _) _).trans rfl
  rw [encode_object, l.encode_memberChars]
  refine (Reader.value_object hskip (by decide)).trans
    ((l.members_layout hclose hstops n j ms _ [] ?_ fun m hm r hr => ?_).trans rfl)
  · have := l.length_le_moreMembers (level + 1) ms
    have hfirst : _ < first.length := l.length_lt_memberBytes (level + 1) n j _
    simp only [List.length_append] at hfirst ⊢
    omega
  · obtain ⟨wanted, hwanted, hread⟩ := h m hm
    show Reader.member (Reader.value depth) (outline.member? m.1) _ = _
    rw [hwanted]
    show Except.map _ (Reader.value depth wanted _) = _
    rw [Reader.value_congr (skipSpace_append l.colon_blank _), hread r hr]
    rfl

/-- **A tree that is stored under an outline is read back from its text in any layout.** -/
theorem value_layout {depth : Nat} {outline : Outline} {j : Json} (h : Stored depth outline j) :
    ∀ level rest, Stops rest →
      Reader.value depth outline (Utf8.encode (l.chars level j) ++ rest) = .ok (j, rest) := by
  induction h with
  | null => exact fun _ rest _ => Reader.value_null rest
  | bool b => exact fun _ rest _ => Reader.value_bool b rest
  | nat hn =>
    intro level rest hrest
    rw [chars_nat]
    exact Reader.value_number hn hrest
  | string s => exact fun _ rest _ => Reader.value_string s rest
  | @array depth outline items h ih =>
    intro level rest _
    cases items with
    | nil => exact Reader.value_array_nil rest
    | cons j js =>
      -- the reader looks for the closing sign before each item, so it matters how an item begins
      refine l.value_array_layout level j js rest fun i hi => ?_
      exact ⟨l.exists_encode_chars (level + 1) (h i hi), ih i hi (level + 1)⟩
  | @object depth outline ms _ hwanted _ ih =>
    intro level rest _
    cases ms with
    | nil => exact Reader.value_object_nil rest
    | cons m ms =>
      refine l.value_object_layout level m.1 m.2 ms rest fun m hm => ?_
      obtain ⟨wanted, hwanted⟩ := Option.isSome_iff_exists.mp (hwanted m hm)
      have hread := ih m hm (level + 1)
      rw [hwanted] at hread
      exact ⟨wanted, hwanted, hread⟩

theorem parseAs_layout {outline : Outline} {j : Json} (h : Stored Reader.maxDepth outline j) :
    parseAs outline (Utf8.encode (l.chars 0 j)) = .ok j := by
  have hread := l.value_layout h 0 [] nofun
  rw [List.append_nil] at hread
  rw [parseAs, hread]
  rfl

end Layout

theorem parseAs_compact {outline : Outline} {j : Json} (h : Stored Reader.maxDepth outline j) :
    parseAs outline (Utf8.encode (compact j).toList) = .ok j := by
  rw [compact, String.toList_ofList, ← Layout.chars_tight 0]
  exact Layout.tight.parseAs_layout h

theorem parseAs_pretty {outline : Outline} {j : Json} (h : Stored Reader.maxDepth outline j) :
    parseAs outline (Utf8.encode (pretty j).toList) = .ok j := by
  rw [pretty, String.toList_ofList, ← Layout.chars_lines 0]
  exact Layout.lines.parseAs_layout h

end HttpService.Json
