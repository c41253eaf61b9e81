import Mathlib.Data.List.Pairwise
import HttpService.Proofs.Json.Records
import HttpService.Proofs.Json.Rereading

/-!
# Values that are kept as JSON

A value is restored (`Restores`) when it is read back from every form in which it may have been
kept: the tree that was written, that tree in normal form, and the text of either, compact or over
several lines.  It is enough that the tree is `Stored`, which concerns the text, and that reading
does not mind the order of members (`Kept.restores`).

The normal form of a stored tree is stored and is a rearrangement of it, since no name stands twice
in its objects.
-/

namespace HttpService.Json

/-! ## Members in ascending order -/

section Members

variable {α β : Type}

theorem mem_insertMember {name : String} {v : α} {m : String × α} {ms : List (String × α)}
    (h : m ∈ insertMember name v ms) : m = (name, v) ∨ m ∈ ms := by
  induction ms with
  | nil => exact .inl (List.mem_singleton.mp h)
  | cons m' ms ih =>
    obtain ⟨n, w⟩ := m'
    rw [insertMember] at h
    split at h
    · exact List.mem_cons.mp h
    · split at h
      · exact (List.mem_cons.mp h).imp_right (List.mem_cons_of_mem _)
      · rcases List.mem_cons.mp h with rfl | h
        · exact .inr List.mem_cons_self
        · exact (ih h).imp_right (List.mem_cons_of_mem _)

theorem pairwise_insertMember (name : String) (v : α) {ms : List (String × α)}
    (h : ms.Pairwise (·.1 < ·.1)) : (insertMember name v ms).Pairwise (·.1 < ·.1) := by
  induction ms with
  | nil => exact List.pairwise_singleton _ _
  | cons m ms ih =>
    obtain ⟨n, w⟩ := m
    obtain ⟨hn, hms⟩ := List.pairwise_cons.mp h
    rw [insertMember]
    by_cases hlt : name < n
    · rw [if_pos hlt]
      exact List.pairwise_cons.mpr ⟨List.forall_mem_cons.mpr
        ⟨hlt, fun m hm => String.lt_trans hlt (hn m hm)⟩, h⟩
    · rw [if_neg hlt]
      by_cases heq : name = n
      · rw [if_pos heq, heq]
        exact List.pairwise_cons.mpr ⟨hn, hms⟩
      · rw [if_neg heq]
        refine List.pairwise_cons.mpr ⟨fun m hm => ?_, ih hms⟩
        rcases mem_insertMember hm with rfl | hm
        · exact Decidable.byContradiction fun hge => heq (String.le_antisymm hge hlt)
        · exact hn m hm

theorem lookup_insertMember (name : String) (v : α) (ms : List (String × α)) (n : String) :
    (insertMember name v ms).lookup n = if n = name then some v else ms.lookup n := by
  induction ms with
  | nil =>
    rw [insertMember, List.lookup_cons]
    by_cases hn : n = name
    · rw [if_pos hn, beq_iff_eq.mpr hn]
    · rw [if_neg hn, beq_eq_false_iff_ne.mpr hn]
  | cons m ms ih =>
    obtain ⟨k, w⟩ := m
    rw [insertMember]
    by_cases hn : n = name
    · subst hn
      rw [if_pos rfl]
      by_cases hlt : n < k
      · rw [if_pos hlt, List.lookup_cons_self]
      · rw [if_neg hlt]
        by_cases heq : n = k
        · rw [if_pos heq, List.lookup_cons_self]
        · rw [if_neg heq, List.lookup_cons, beq_eq_false_iff_ne.mpr heq, ih, if_pos rfl]
    · rw [if_neg hn]
      by_cases hlt : name < k
      · rw [if_pos hlt, List.lookup_cons, beq_eq_false_iff_ne.mpr hn]
      · rw [if_neg hlt]
        by_cases heq : name = k
        · subst heq
          rw [if_pos rfl, List.lookup_cons, List.lookup_cons, beq_eq_false_iff_ne.mpr hn]
        · rw [if_neg heq, List.lookup_cons, List.lookup_cons, ih, if_neg hn]

theorem mem_sortMembers {m : String × α} {ms : List (String × α)} :
    m ∈ sortMembers ms → m ∈ ms := by
  have hfold (acc : List (String × α)) :
      m ∈ ms.foldl (fun acc m => insertMember m.1 m.2 acc) acc → m ∈ acc ∨ m ∈ ms := by
    induction ms generalizing acc with
    | nil => exact .inl
    | cons m' ms ih =>
      intro h
      rcases ih _ h with h | h
      · rcases mem_insertMember h with rfl | h
        · exact .inr List.mem_cons_self
        · exact .inl h
      · exact .inr (List.mem_cons_of_mem _ h)
  exact fun h => (hfold [] h).resolve_left List.not_mem_nil

theorem nodup_sortMembers (ms : List (String × α)) : ((sortMembers ms).map Prod.fst).Nodup := by
  have hfold (acc : List (String × α)) (h : acc.Pairwise (·.1 < ·.1)) :
      (ms.foldl (fun acc m => insertMember m.1 m.2 acc) acc).Pairwise (·.1 < ·.1) := by
    induction ms generalizing acc with
    | nil => exact h
    | cons m ms ih => exact ih _ (pairwise_insertMember m.1 m.2 h)
  exact List.pairwise_map.mpr ((hfold [] .nil).imp String.ne_of_lt)

/-- What a name stands for does not depend on the order. -/
theorem lookup_sortMembers {ms : List (String × α)} (h : (ms.map Prod.fst).Nodup) (n : String) :
    (sortMembers ms).lookup n = ms.lookup n := by
  have hfold (acc : List (String × α)) :
      (ms.foldl (fun acc m => insertMember m.1 m.2 acc) acc).lookup n
        = (ms.lookup n).or (acc.lookup n) := by
    induction ms generalizing acc with
    | nil => rfl
    | cons m ms ih =>
      obtain ⟨k, v⟩ := m
      obtain ⟨hk, hms⟩ := List.nodup_cons.mp h
      rw [List.foldl_cons, ih hms, lookup_insertMember, List.lookup_cons]
      by_cases hn : n = k
      · subst hn
        rw [if_pos rfl, lookup_eq_none_of_not_mem hk, beq_self_eq_true]
        rfl
      · rw [if_neg hn, beq_eq_false_iff_ne.mpr hn]
  exact (hfold []).trans Option.or_none

theorem lookup_map_snd (f : α → β) (ms : List (String × α)) (n : String) :
    (ms.map fun m => (m.1, f m.2)).lookup n = (ms.lookup n).map f := by
  induction ms with
  | nil => rfl
  | cons m ms ih =>
    obtain ⟨k, v⟩ := m
    rw [List.map_cons, List.lookup_cons, List.lookup_cons]
    cases n == k
    · exact ih
    · rfl

theorem mem_of_lookup {ms : List (String × α)} {n : String} {v : α} (h : ms.lookup n = some v) :
    (n, v) ∈ ms := by
  obtain ⟨before, after, rfl, -⟩ := List.lookup_eq_some_iff.mp h
  exact List.mem_append_right _ List.mem_cons_self

end Members

theorem normalItems_eq_map : ∀ js : List Json, normalItems js = js.map normal
  | [] => rfl
  | j :: js => congrArg (j.normal :: ·) (normalItems_eq_map js)

theorem normalMembers_eq_map :
    ∀ ms : List (String × Json), normalMembers ms = ms.map fun m => (m.1, m.2.normal)
  | [] => rfl
  | (n, j) :: ms => congrArg ((n, j.normal) :: ·) (normalMembers_eq_map ms)

theorem names_normalMembers (ms : List (String × Json)) :
    (normalMembers ms).map Prod.fst = ms.map Prod.fst := by
  rw [normalMembers_eq_map, List.map_map]
  rfl

/-! ## The normal form of a stored tree -/

theorem Stored.normal {depth : Nat} {outline : Outline} {j : Json} (h : Stored depth outline j) :
    Stored depth outline j.normal := by
  induction h with
  | null => exact .null
  | bool b => exact .bool b
  | nat hn => exact .nat hn
  | string s => exact .string s
  | array _ ih =>
    rw [Json.normal, normalItems_eq_map]
    refine .array fun i hi => ?_
    rw [List.getElem_map]
    exact ih i _
  | @object _ _ ms _ hwanted _ ih =>
    rw [Json.normal]
    have hmem (m : String × Json) (hm : m ∈ sortMembers (normalMembers ms)) :
        ∃ m' ∈ ms, (m'.1, m'.2.normal) = m := by
      have hm := mem_sortMembers hm
      rwa [normalMembers_eq_map, List.mem_map] at hm
    refine .object (nodup_sortMembers _) (fun m hm => ?_) fun m hm => ?_
    · obtain ⟨m', hm', rfl⟩ := hmem m hm
      exact hwanted m' hm'
    · obtain ⟨m', hm', rfl⟩ := hmem m hm
      exact ih m' hm'

theorem Stored.rearranges {depth : Nat} {outline : Outline} {j : Json}
    (h : Stored depth outline j) : Rearranges j j := by
  induction h with
  | null => exact .null
  | bool b => exact .bool b
  | nat => exact .number _
  | string s => exact .string s
  | array _ ih => exact .array (List.forall₂_iff_get.mpr ⟨rfl, fun i hi _ => ih i hi⟩)
  | object hnodup _ _ ih =>
    refine .object hnodup (fun _ => Iff.rfl) fun n j j' hj hj' => ?_
    obtain rfl := Option.some.inj (hj.symm.trans hj')
    exact ih _ (mem_of_lookup hj)

theorem Stored.rearranges_normal {depth : Nat} {outline : Outline} {j : Json}
    (h : Stored depth outline j) : Rearranges j j.normal := by
  induction h with
  | null => exact .null
  | bool b => exact .bool b
  | nat => exact .number _
  | string s => exact .string s
  | @array _ _ items _ ih =>
    rw [Json.normal, normalItems_eq_map]
    exact .array (List.forall₂_map_right_iff.mpr (List.forall₂_iff_get.mpr
      ⟨rfl, fun i hi _ => ih i hi⟩))
  | @object _ _ ms hnodup _ _ ih =>
    have hlookup (n : String) :
        (sortMembers (normalMembers ms)).lookup n = (ms.lookup n).map Json.normal := by
      rw [lookup_sortMembers (by rwa [names_normalMembers]), normalMembers_eq_map, lookup_map_snd]
    rw [Json.normal]
    refine .object (nodup_sortMembers _) (fun n => ?_) fun n j j' hj hj' => ?_
    · rw [hlookup, Option.map_eq_none_iff]
    · rw [hlookup, hj] at hj'
      obtain rfl := Option.some.inj hj'
      exact ih _ (mem_of_lookup hj)

/-! ## What is kept -/

variable {α : Type}

/-- A tree that stands for a value: the value is read from it in whatever order the members stand,
and at most `k` arrays and objects stand inside one another in it. -/
structure Kept (read : Json → Option α) (k : Nat) (outline : Outline) (j : Json) (a : α) :
    Prop where
  reads : Reads read j a
  stored : ∀ depth, Stored (depth + k) outline j

/-- A value is read back from the tree that is written for it, from that tree in normal form, and
from the text of either. -/
structure Restores (write : α → Json) (read : Json → Option α) (outline : Outline) (a : α) :
    Prop where
  tree : read (write a) = some a
  sorted : read (write a).normal = some a
  text : ∀ layout ∈ [compact, pretty], ∀ j ∈ [write a, (write a).normal],
    ∃ j', parseAs outline (Utf8.encode (layout j).toList) = .ok j' ∧ read j' = some a

theorem Kept.restores {write : α → Json} {read : Json → Option α} {k : Nat} {outline : Outline}
    {a : α} (h : Kept read k outline (write a) a) (hk : k ≤ Reader.maxDepth) :
    Restores write read outline a := by
  have hstored : Stored Reader.maxDepth outline (write a) := by
    have := h.stored (Reader.maxDepth - k)
    rwa [Nat.sub_add_cancel hk] at this
  have hparse {layout : Json → String} (hlayout : layout ∈ [compact, pretty]) {j : Json}
      (hj : Stored Reader.maxDepth outline j) :
      parseAs outline (Utf8.encode (layout j).toList) = .ok j := by
    rcases List.mem_pair.mp hlayout with rfl | rfl
    · exact parseAs_compact hj
    · exact parseAs_pretty hj
  have htree := h.reads _ hstored.rearranges
  have hsorted := h.reads _ hstored.rearranges_normal
  refine ⟨htree, hsorted, fun layout hlayout j hj => ?_⟩
  rcases List.mem_pair.mp hj with rfl | rfl
  · exact ⟨_, hparse hlayout hstored, htree⟩
  · exact ⟨_, hparse hlayout hstored.normal, hsorted⟩

/-! ## Records that are kept -/

variable {depth k : Nat} {outline : Outline} {read : Json → Option α} {a : α}

/-- A field that an outline wants and whose value, if there is one, is stored. -/
def Wanted (depth : Nat) (outline : Outline) (field : String × Option Json) : Prop :=
  ∀ j ∈ field.2, ∃ o, outline.member? field.1 = some o ∧ Stored depth o j

theorem Wanted.value {n : String} {o : Outline} {j : Json} (ho : outline.member? n = some o)
    (h : Stored depth o j) : Wanted depth outline (n, some j) := by
  rintro _ ⟨⟩
  exact ⟨o, ho, h⟩

theorem Wanted.option {n : String} {o : Outline} {write : α → Json} {v : Option α}
    (ho : outline.member? n = some o) (h : ∀ a ∈ v, Stored depth o (write a)) :
    Wanted depth outline (n, v.map write) := by
  intro j hj
  obtain ⟨a, ha, rfl⟩ := Option.map_eq_some_iff.mp hj
  exact ⟨o, ho, h a ha⟩

theorem stored_list {write : α → Json} {l : List α}
    (h : ∀ a ∈ l, ∀ place, Stored depth (outline.item place) (write a)) :
    Stored (depth + 1) outline (.array (l.map write)) := by
  refine .array fun i hi => ?_
  rw [List.getElem_map]
  exact h _ (List.getElem_mem _) i

theorem Wanted.list {n : String} {o : Outline} {write : α → Json} {l : List α}
    (ho : outline.member? n = some o)
    (h : ∀ a ∈ l, ∀ place, Stored depth (o.item place) (write a)) :
    Wanted (depth + 1) outline (n, listValue write l) := by
  intro j hj
  rw [listValue] at hj
  split at hj
  · cases hj
  · obtain rfl := Option.some.inj hj
    exact ⟨o, ho, stored_list h⟩

theorem stored_record {fields : List (String × Option Json)} (hnodup : (fields.map Prod.fst).Nodup)
    (h : fields.Forall (Wanted depth outline)) :
    Stored (depth + 1) outline (.object (present fields)) := by
  have hwanted : ∀ m ∈ present fields,
      ∃ o, outline.member? m.1 = some o ∧ Stored depth o m.2 := by
    intro m hm
    obtain ⟨⟨n, v⟩, hf, hv⟩ := List.mem_filterMap.mp hm
    obtain ⟨j, hj, rfl⟩ := Option.map_eq_some_iff.mp hv
    exact List.forall_iff_forall_mem.mp h _ hf j hj
  refine .object (hnodup.sublist (names_present_sublist fields)) (fun m hm => ?_) fun m hm => ?_
  all_goals obtain ⟨o, ho, hstored⟩ := hwanted m hm
  · rw [ho]
    rfl
  · rw [ho]
    exact hstored

theorem kept_record (fields : List (String × Option Json)) (hnodup : (fields.map Prod.fst).Nodup)
    (hwanted : ∀ depth, fields.Forall (Wanted (depth + k) outline))
    (h : ∀ ms, Agrees fields ms → read (.object ms) = some a) :
    Kept read (k + 1) outline (.object (present fields)) a where
  reads := reads_record hnodup h
  stored depth := stored_record hnodup (hwanted depth)

theorem kept_tagged (tag t : String) (fields : List (String × Option Json))
    (hnodup : (tag :: fields.map Prod.fst).Nodup)
    (hwanted : ∀ depth, fields.Forall (Wanted (depth + k) .whole))
    (h : ∀ j rest, asTagged? tag j = some (t, .object rest) → Agrees fields rest →
      read j = some a) :
    Kept read (k + 1) .whole (.object (present ((tag, some (.string t)) :: fields))) a where
  reads := reads_tagged hnodup h
  stored depth := stored_record hnodup
    ((List.forall_cons _ _ _).mpr ⟨.value rfl (.string t), hwanted depth⟩)

theorem kept_adjacent (holdsNothing : Json → Bool) (tag payload t : String) (v : Option Json)
    (hne : tag ≠ payload) (hwanted : ∀ depth, ∀ j ∈ v, Stored (depth + k) .whole j)
    (h : ∀ j v', asAdjacent? tag payload (asName? holdsNothing) j = some (t, v') →
      Option.Rel Rearranges v v' → read j = some a) :
    Kept read (k + 1) .whole (.object (present [(tag, some (.string t)), (payload, v)])) a where
  reads := reads_adjacent hne h
  stored depth := stored_record (by simpa using hne)
    ⟨.value rfl (.string t), fun j hj => ⟨.whole, rfl, hwanted depth j hj⟩⟩

end HttpService.Json
