import HttpService.Json.Record
import HttpService.Proofs.Success

/-!
# Reading what was written as a record

A record is written with some of its fields, in one order, and may come back with its members in
another order, as in an object that keeps its names sorted (`Rearranges`).  What reads a record
looks its fields up by name, so the order makes no difference.

`Reads read j a` says that `a` is read from `j` and from every rearrangement of it.  Such facts are
put together field by field: `Agrees` ties the members that came back to the fields that were
written, and its lemmas say what each kind of field gives.
-/

namespace HttpService.Json

/-! ## Rearrangements -/

/-- A tree and the same tree with the members of its objects in another order. -/
inductive Rearranges : Json → Json → Prop
  | null : Rearranges .null .null
  | bool (b : Bool) : Rearranges (.bool b) (.bool b)
  | number (n : JsonNumber) : Rearranges (.number n) (.number n)
  | string (s : String) : Rearranges (.string s) (.string s)
  | array {items items' : List Json} (h : List.Forall₂ Rearranges items items') :
    Rearranges (.array items) (.array items')
  | object {ms ms' : List (String × Json)} (hnodup : (ms'.map Prod.fst).Nodup)
      (hnames : ∀ n, ms'.lookup n = none ↔ ms.lookup n = none)
      (h : ∀ n j j', ms.lookup n = some j → ms'.lookup n = some j' → Rearranges j j') :
    Rearranges (.object ms) (.object ms')

/-- A value is read from a tree in whatever order the members of its objects stand. -/
def Reads {α : Type} (read : Json → Option α) (j : Json) (a : α) : Prop :=
  ∀ j', Rearranges j j' → read j' = some a

variable {α β : Type}

theorem Rearranges.eq_null {j : Json} (h : Rearranges j .null) : j = .null := by
  cases h
  rfl

theorem reads_string (s : String) : Reads asString? (.string s) s := by
  rintro _ ⟨⟩
  rfl

theorem reads_bool (b : Bool) : Reads asBool? (.bool b) b := by
  rintro _ ⟨⟩
  rfl

theorem reads_uInt32 (n : UInt32) : Reads asUInt32? (.nat n.toNat) n := by
  rintro _ ⟨⟩
  have hlt : (n.toNat : Int) < UInt32.size := Int.ofNat_lt.mpr n.toNat_lt_size
  simp only [asUInt32?]
  rw [if_pos ⟨Int.natCast_nonneg _, hlt⟩, Int.toNat_natCast, UInt32.ofNat_toNat]

theorem reads_name (holdsNothing : Json → Bool) (s : String) :
    Reads (asName? holdsNothing) (.string s) s := by
  rintro _ ⟨⟩
  rfl

theorem reads_list {read : Json → Option α} {write : α → Json} {l : List α}
    (h : ∀ a ∈ l, Reads read (write a) a) : Reads (asList? read) (.array (l.map write)) l := by
  rintro _ (_ | _ | _ | _ | hitems | _)
  rename_i items
  rw [asList?]
  refine mapM_eq_some_iff.mpr ?_
  induction l generalizing items with
  | nil =>
    cases hitems
    exact .nil
  | cons a l ih =>
    obtain ⟨ha, hl⟩ := List.forall_mem_cons.mp h
    cases hitems with
    | cons hj hrest => exact .cons (ha _ hj) (ih hl hrest)

/-! ## Fields -/

/-- The members of a record, from all its fields; some of them may be left out. -/
def present (fields : List (String × Option Json)) : List (String × Json) :=
  fields.filterMap fun f => f.2.map fun j => (f.1, j)

/-- A list as a field: left out when it is empty. -/
def listValue (write : α → Json) (l : List α) : Option Json :=
  if l.isEmpty then none else some (.array (l.map write))

theorem names_present_sublist (fields : List (String × Option Json)) :
    ((present fields).map Prod.fst).Sublist (fields.map Prod.fst) := by
  induction fields with
  | nil => exact .slnil
  | cons f fields ih =>
    obtain ⟨n, v⟩ := f
    cases v with
    | none => exact ih.cons n
    | some j => exact ih.cons_cons n

theorem lookup_eq_none_of_not_mem {ms : List (String × β)} {n : String}
    (h : n ∉ ms.map Prod.fst) : ms.lookup n = none := by
  rw [List.lookup_eq_none_iff]
  intro m hm
  rw [bne_iff_ne]
  rintro rfl
  exact h (List.mem_map_of_mem hm)

theorem lookup_present {fields : List (String × Option Json)} (hnodup : (fields.map Prod.fst).Nodup)
    (n : String) : (present fields).lookup n = (fields.lookup n).join := by
  induction fields with
  | nil => rfl
  | cons f fields ih =>
    obtain ⟨m, v⟩ := f
    rw [List.map_cons, List.nodup_cons] at hnodup
    by_cases hn : n = m
    · subst hn
      cases v with
      | none =>
        show (present fields).lookup n = _
        rw [ih hnodup.2, lookup_eq_none_of_not_mem hnodup.1, List.lookup_cons_self]
        rfl
      | some j =>
        show ((n, j) :: present fields).lookup n = _
        rw [List.lookup_cons_self, List.lookup_cons_self]
        rfl
    · have hne : (n == m) = false := beq_eq_false_iff_ne.mpr hn
      cases v with
      | none =>
        show (present fields).lookup n = _
        rw [ih hnodup.2, List.lookup_cons, hne]
      | some j =>
        show ((m, j) :: present fields).lookup n = _
        rw [List.lookup_cons, hne, List.lookup_cons, hne]
        exact ih hnodup.2

/-- The members that came back for some fields that were written. -/
structure Agrees (fields : List (String × Option Json)) (ms : List (String × Json)) : Prop where
  nodup : (ms.map Prod.fst).Nodup
  absent : ∀ n, (fields.lookup n).join = none → ms.lookup n = none
  found : ∀ n j, fields.lookup n = some (some j) → ∃ j', ms.lookup n = some j' ∧ Rearranges j j'

theorem agrees_of_rearranges {fields : List (String × Option Json)}
    (hnodup : (fields.map Prod.fst).Nodup) {j : Json} (h : Rearranges (.object (present fields)) j) :
    ∃ ms, j = .object ms ∧ Agrees fields ms := by
  cases h with
  | @object _ ms hms hnames h =>
    refine ⟨ms, rfl, hms, fun n hn => ?_, fun n j hj => ?_⟩
    · rw [hnames, lookup_present hnodup, hn]
    · have hlookup : (present fields).lookup n = some j := by
        rw [lookup_present hnodup, hj]
        rfl
      cases hn : ms.lookup n with
      | none =>
        rw [hnames, hlookup] at hn
        cases hn
      | some j' => exact ⟨j', rfl, h n j j' hlookup hn⟩

/-- A record is read when its members are, in whatever order they stand. -/
theorem reads_record {fields : List (String × Option Json)} (hnodup : (fields.map Prod.fst).Nodup)
    {read : Json → Option α} {a : α} (h : ∀ ms, Agrees fields ms → read (.object ms) = some a) :
    Reads read (.object (present fields)) a := by
  intro j hj
  obtain ⟨ms, rfl, hms⟩ := agrees_of_rearranges hnodup hj
  exact h ms hms

namespace Agrees

variable {fields : List (String × Option Json)} {ms : List (String × Json)}

/-- No name stands twice, so the members are those of a record. -/
theorem asRecord? (h : Agrees fields ms) (names : List String) :
    Json.asRecord? names (.object ms) = some ms := by
  have hnodup : ((ms.map Prod.fst).filter (names.contains ·)).Nodup := h.nodup.filter _
  rw [Json.asRecord?, if_pos hnodup]

theorem required (h : Agrees fields ms) {n : String} {j : Json} {read : Json → Option α} {a : α}
    (hfield : fields.lookup n = some (some j)) (hread : Reads read j a) :
    Json.required ms n read = some a := by
  obtain ⟨j', hj', hrearranges⟩ := h.found n j hfield
  rw [Json.required, hj']
  exact hread j' hrearranges

theorem withDefault (h : Agrees fields ms) {n : String} {j : Json} {read : Json → Option α}
    {a default : α} (hfield : fields.lookup n = some (some j)) (hread : Reads read j a) :
    Json.withDefault ms n default read = some a := by
  obtain ⟨j', hj', hrearranges⟩ := h.found n j hfield
  rw [Json.withDefault, hj']
  exact hread j' hrearranges

theorem withDefault_listValue (h : Agrees fields ms) {n : String} {read : Json → Option α}
    {write : α → Json} {l : List α} (hfield : fields.lookup n = some (listValue write l))
    (hread : ∀ a ∈ l, Reads read (write a) a) :
    Json.withDefault ms n [] (asList? read) = some l := by
  cases l with
  | nil =>
    rw [Json.withDefault, h.absent n (by rw [hfield]; rfl)]
  | cons a l => exact h.withDefault hfield (reads_list hread)

/-- A value that may be left out is read back, unless it is written as null. -/
theorem optional (h : Agrees fields ms) {n : String} {read : Json → Option α} {write : α → Json}
    {v : Option α} (hfield : fields.lookup n = some (v.map write))
    (hread : ∀ a ∈ v, write a ≠ .null ∧ Reads read (write a) a) :
    Json.optional ms n read = some v := by
  cases v with
  | none => rw [Json.optional, h.absent n (by rw [hfield]; rfl)]
  | some a =>
    obtain ⟨hnull, ha⟩ := hread a rfl
    obtain ⟨j', hj', hrearranges⟩ := h.found n (write a) hfield
    rw [Json.optional, hj']
    have hread' : read j' = some a := ha j' hrearranges
    cases j' with
    | null => exact absurd hrearranges.eq_null hnull
    | _ =>
      show Option.map some (read _) = _
      rw [hread']
      rfl

end Agrees

/-! ## Alternatives -/

theorem filter_eq_of_lookup {ms : List (String × Json)} (hnodup : (ms.map Prod.fst).Nodup)
    {n : String} {j : Json} (h : ms.lookup n = some j) : ms.filter (·.1 = n) = [(n, j)] := by
  induction ms with
  | nil => cases h
  | cons m ms ih =>
    obtain ⟨m, k⟩ := m
    rw [List.map_cons, List.nodup_cons] at hnodup
    by_cases hn : n = m
    · subst hn
      rw [List.lookup_cons_self] at h
      obtain rfl := Option.some.inj h
      rw [List.filter_cons_of_pos (by simp)]
      refine congrArg ((n, k) :: ·) (List.filter_eq_nil_iff.mpr fun m hm => ?_)
      rw [decide_eq_true_eq]
      intro hname
      exact hnodup.1 (List.mem_map.mpr ⟨m, hm, hname⟩)
    · rw [List.lookup_cons, beq_eq_false_iff_ne.mpr hn] at h
      rw [List.filter_cons_of_neg (by simpa using Ne.symm hn)]
      exact ih hnodup.2 h

theorem lookup_filter_ne (ms : List (String × Json)) (tag n : String) :
    (ms.filter (·.1 ≠ tag)).lookup n = if n = tag then none else ms.lookup n := by
  induction ms with
  | nil => simp
  | cons m ms ih =>
    obtain ⟨m, j⟩ := m
    by_cases hm : m = tag
    · subst hm
      rw [List.filter_cons_of_neg (by simp), ih]
      by_cases hn : n = m
      · rw [if_pos hn, if_pos hn]
      · rw [if_neg hn, if_neg hn, List.lookup_cons, beq_eq_false_iff_ne.mpr hn]
    · rw [List.filter_cons_of_pos (by simpa using hm), List.lookup_cons, List.lookup_cons, ih]
      by_cases hn : n = m
      · subst hn
        simp [hm]
      · rw [beq_eq_false_iff_ne.mpr hn]

/-- The tag of an alternative is found, and what is left are its own fields. -/
theorem Agrees.asTagged? {fields : List (String × Option Json)} {ms : List (String × Json)}
    {tag t : String} (h : Agrees ((tag, some (.string t)) :: fields) ms)
    (htag : tag ∉ fields.map Prod.fst) :
    ∃ rest, Json.asTagged? tag (.object ms) = some (t, .object rest) ∧ Agrees fields rest := by
  obtain ⟨_, hlookup, ⟨⟩⟩ := h.found tag (.string t) List.lookup_cons_self
  have hnone : fields.lookup tag = none := lookup_eq_none_of_not_mem htag
  have hother {n : String} (hn : n ≠ tag) :
      ((tag, some (.string t)) :: fields).lookup n = fields.lookup n := by
    rw [List.lookup_cons, beq_eq_false_iff_ne.mpr hn]
  refine ⟨ms.filter (·.1 ≠ tag), ?_, ?_, fun n hn => ?_, fun n j hj => ?_⟩
  · simp only [Json.asTagged?, filter_eq_of_lookup h.nodup hlookup]
  · exact h.nodup.sublist (List.filter_sublist.map Prod.fst)
  · rw [lookup_filter_ne]
    split
    · rfl
    · next hne => exact h.absent n (by rw [hother hne, hn])
  · have hne : n ≠ tag := by
      rintro rfl
      rw [hnone] at hj
      cases hj
    rw [lookup_filter_ne, if_neg hne]
    exact h.found n j (by rw [hother hne, hj])

/-- An alternative is read by its tag when its own fields are. -/
theorem reads_tagged {tag t : String} {fields : List (String × Option Json)}
    (hnodup : (tag :: fields.map Prod.fst).Nodup) {read : Json → Option α} {a : α}
    (h : ∀ j rest, asTagged? tag j = some (t, .object rest) → Agrees fields rest →
      read j = some a) :
    Reads read (.object (present ((tag, some (.string t)) :: fields))) a := by
  have hnames : (((tag, some (.string t)) :: fields).map Prod.fst).Nodup := hnodup
  refine reads_record hnames fun ms hms => ?_
  obtain ⟨rest, hrest, hagrees⟩ := hms.asTagged? (List.nodup_cons.mp hnodup).1
  exact h _ rest hrest hagrees

/-- An alternative with its payload beside its tag is read when the payload is. -/
theorem reads_adjacent {holdsNothing : Json → Bool} {tag payload t : String} {v : Option Json}
    (hne : tag ≠ payload) {read : Json → Option α} {a : α}
    (h : ∀ j v', asAdjacent? tag payload (asName? holdsNothing) j = some (t, v') →
      Option.Rel Rearranges v v' → read j = some a) :
    Reads read (.object (present [(tag, some (.string t)), (payload, v)])) a := by
  refine reads_record (by simpa using hne) fun ms hms => ?_
  have htag : Json.required ms tag (asName? holdsNothing) = some t :=
    hms.required List.lookup_cons_self (reads_name holdsNothing t)
  have hpayload : [(tag, some (.string t)), (payload, v)].lookup payload = some v := by
    rw [List.lookup_cons, beq_eq_false_iff_ne.mpr hne.symm, List.lookup_cons_self]
  refine h _ (ms.lookup payload) ?_ ?_
  · simp [asAdjacent?, hms.asRecord?, htag]
  · cases v with
    | none =>
      rw [hms.absent payload (by rw [hpayload]; rfl)]
      exact .none
    | some j =>
      obtain ⟨j', hj', hrearranges⟩ := hms.found payload j hpayload
      rw [hj']
      exact .some hrearranges

/-! ## What was read -/

section Read

variable {P : α → Prop} {read : Json → Option α} (hread : ∀ j a, read j = some a → P a)
include hread

theorem of_required {fields : List (String × Json)} {name : String} {a : α}
    (h : required fields name read = some a) : P a := by
  obtain ⟨j, -, hj⟩ := Option.bind_eq_some_iff.mp h
  exact hread j a hj

theorem of_withDefault {fields : List (String × Json)} {name : String} {a default : α}
    (hdefault : P default) (h : withDefault fields name default read = some a) : P a := by
  unfold withDefault at h
  split at h
  · cases h
    exact hdefault
  · exact hread _ a h

theorem of_asList? {j : Json} {l : List α} (h : asList? read j = some l) : ∀ a ∈ l, P a := by
  unfold asList? at h
  split at h
  · have hall := mapM_eq_some_iff.mp h
    clear h
    induction hall with
    | nil => nofun
    | cons hj _ ih => exact List.forall_mem_cons.mpr ⟨hread _ _ hj, ih⟩
  · cases h

end Read

end HttpService.Json
