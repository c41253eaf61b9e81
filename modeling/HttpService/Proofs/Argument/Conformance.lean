import HttpService.Proofs.Argument.Faults
import HttpService.Proofs.Validation.TypeUse

/-!
# Arguments of a type

The values that an argument of a declared type may have (`TypeExpr.Conforms`).  The one value that
cannot be written as JSON or as a text is a stream, and a type that is accepted as an argument of
another type, or in a position without streams, has no value with a stream in it
(`Conforms.not_holdsStream`).
-/

namespace HttpService

namespace Argument

/-! ## Kinds of values -/

/-- A boolean, a number or a string. -/
inductive IsScalar : Argument → Prop
  | bool (b : Bool) : IsScalar (.bool b)
  | int (n : Int64) : IsScalar (.int n)
  | float (x : Binary64) : IsScalar (.float x)
  | string (s : String) : IsScalar (.string s)

/-- A value that is sent as it is: a stream, bytes or a string. -/
inductive IsRaw : Argument → Prop
  | stream (s : ByteSource) : IsRaw (.stream s)
  | bytes (content : Bytes) : IsRaw (.bytes content)
  | string (s : String) : IsRaw (.string s)

/-- A value with a stream somewhere in it. -/
inductive HoldsStream : Argument → Prop
  | stream (s : ByteSource) : HoldsStream (.stream s)
  | item {items : List Argument} {a : Argument} :
      a ∈ items → HoldsStream a → HoldsStream (.list items)
  | entry {entries : List (String × Argument)} {e : String × Argument} :
      e ∈ entries → HoldsStream e.2 → HoldsStream (.map entries)

theorem IsScalar.not_holdsStream {a : Argument} (h : a.IsScalar) : ¬ a.HoldsStream := by
  cases h <;> nofun

theorem IsScalar.of_mem_elements {a : Argument} (h : a.IsScalar) :
    ∀ x ∈ a.elements, x.IsScalar := by
  intro x hx
  cases h <;> (obtain rfl := List.mem_singleton.mp hx; constructor)

theorem not_holdsStream_list {items : List Argument} :
    ¬ (list items).HoldsStream ↔ ∀ a ∈ items, ¬ a.HoldsStream := by
  constructor
  · exact fun h a ha hstream => h (.item ha hstream)
  · rintro h (_ | ⟨ha, hstream⟩)
    exact h _ ha hstream

theorem not_holdsStream_elements {a : Argument} (h : ¬ a.HoldsStream) :
    ∀ x ∈ a.elements, ¬ x.HoldsStream := by
  intro x hx
  cases a with
  | null => cases hx
  | list items => exact not_holdsStream_list.mp h x hx
  | _ =>
    obtain rfl := List.mem_singleton.mp hx
    exact h

theorem not_holdsStream_map {entries : List (String × Argument)} :
    ¬ (map entries).HoldsStream ↔ ∀ e ∈ entries, ¬ e.2.HoldsStream := by
  constructor
  · exact fun h e he hstream => h (.entry he hstream)
  · rintro h (_ | _ | ⟨he, hstream⟩)
    exact h _ he hstream

/-! ## Writing a value without a stream -/

mutual

theorem exists_toJson (parameter : String) :
    ∀ {a : Argument}, ¬ a.HoldsStream → ∃ j, a.toJson parameter = .ok j
  | .list items, h => by
    obtain ⟨js, hjs⟩ := exists_toItems parameter (not_holdsStream_list.mp h)
    exact ⟨.array js, by rw [toJson, hjs]; rfl⟩
  | .map entries, h => by
    obtain ⟨js, hjs⟩ := exists_toMembers parameter (not_holdsStream_map.mp h)
    exact ⟨.ofEntries js, by rw [toJson, hjs]; rfl⟩
  | .stream s, h => absurd (.stream s) h
  | .null, _ | .bool _, _ | .int _, _ | .float _, _ | .string _, _ | .bytes _, _ => by
    exact ⟨_, rfl⟩

theorem exists_toItems (parameter : String) :
    ∀ {items : List Argument}, (∀ a ∈ items, ¬ a.HoldsStream) →
      ∃ js, toItems parameter items = .ok js
  | [], _ => ⟨[], rfl⟩
  | a :: rest, h => by
    rw [List.forall_mem_cons] at h
    obtain ⟨j, hj⟩ := exists_toJson parameter h.1
    obtain ⟨js, hjs⟩ := exists_toItems parameter h.2
    exact ⟨j :: js, by rw [toItems, hj, ok_bind, hjs]; rfl⟩

theorem exists_toMembers (parameter : String) :
    ∀ {entries : List (String × Argument)}, (∀ e ∈ entries, ¬ e.2.HoldsStream) →
      ∃ js, toMembers parameter entries = .ok js
  | [], _ => ⟨[], rfl⟩
  | (n, a) :: rest, h => by
    rw [List.forall_mem_cons] at h
    obtain ⟨j, hj⟩ := exists_toJson parameter h.1
    obtain ⟨js, hjs⟩ := exists_toMembers parameter h.2
    exact ⟨(n, j) :: js, by rw [toMembers, hj, ok_bind, hjs]; rfl⟩

end

theorem exists_toText (parameter : String) {a : Argument} (h : ¬ a.HoldsStream) :
    ∃ text, a.toText parameter = .ok text := by
  cases a with
  | list items =>
    obtain ⟨j, hj⟩ := exists_toJson parameter h
    exact ⟨some j.compact, by rw [toText, hj]; rfl⟩
  | map entries =>
    obtain ⟨j, hj⟩ := exists_toJson parameter h
    exact ⟨some j.compact, by rw [toText, hj]; rfl⟩
  | stream s => exact absurd (.stream s) h
  | _ => exact ⟨_, rfl⟩

end Argument

theorem exists_textPairs (parameter : String) {values : List (String × Argument)}
    (h : ∀ v ∈ values, ¬ v.2.HoldsStream) : ∃ pairs, textPairs parameter values = .ok pairs := by
  induction values with
  | nil => exact ⟨[], rfl⟩
  | cons v rest ih =>
    rw [List.forall_mem_cons] at h
    obtain ⟨text, htext⟩ := Argument.exists_toText parameter h.1
    obtain ⟨pairs, hpairs⟩ := ih h.2
    exact ⟨_, by rw [textPairs, htext, ok_bind, hpairs]; rfl⟩

/-! ## Values of a type -/

namespace TypeExpr

/-- The values of a type: null if it is nullable, and otherwise what its family says.  A type
that is not built in says nothing of its values, but that they are no streams. -/
inductive Conforms : TypeExpr → Argument → Prop
  | null {t : TypeExpr} (hnullable : t.nullable = true) : Conforms t .null
  | string {t : TypeExpr} (hname : t.name = stringName) (s : String) : Conforms t (.string s)
  | scalar {t : TypeExpr} {a : Argument} (hfamily : t.family? = some .scalar)
      (hname : t.name ≠ stringName) (ha : a.IsScalar) : Conforms t a
  | bytes {t : TypeExpr} (hfamily : t.family? = some .primitiveArray) (content : Bytes) :
      Conforms t (.bytes content)
  | scalars {t : TypeExpr} {items : List Argument} (hfamily : t.family? = some .primitiveArray)
      (hitems : ∀ a ∈ items, a.IsScalar) : Conforms t (.list items)
  | collection {t element : TypeExpr} {items : List Argument}
      (hfamily : t.family? = some .collection) (harguments : t.arguments = [element])
      (hitems : ∀ a ∈ items, Conforms element a) : Conforms t (.list items)
  | map {t key value : TypeExpr} {entries : List (String × Argument)}
      (hfamily : t.family? = some .map) (harguments : t.arguments = [key, value])
      (hentries : ∀ e ∈ entries, Conforms value e.2) : Conforms t (.map entries)
  | pair {t first second : TypeExpr} {a b : Argument} (hfamily : t.family? = some .pair)
      (harguments : t.arguments = [first, second]) (ha : Conforms first a)
      (hb : Conforms second b) : Conforms t (.list [a, b])
  | triple {t first second third : TypeExpr} {a b c : Argument}
      (hfamily : t.family? = some .triple) (harguments : t.arguments = [first, second, third])
      (ha : Conforms first a) (hb : Conforms second b) (hc : Conforms third c) :
      Conforms t (.list [a, b, c])
  | multiValueMap {t : TypeExpr} {entries : List (String × Argument)}
      (hfamily : t.family? = some .multiValueMap)
      (hentries : ∀ e ∈ entries, e.2.IsScalar ∨
        ∃ items, e.2 = .list items ∧ ∀ a ∈ items, a.IsScalar) : Conforms t (.map entries)
  | byteStream {t : TypeExpr} {a : Argument} (hfamily : t.family? = some .byteStream)
      (ha : a.IsRaw) : Conforms t a
  | other {t : TypeExpr} {a : Argument}
      (hfamily : t.family? = none ∨ t.family? = some .unit ∨ t.family? = some .result)
      (hnull : a ≠ .null) (ha : ¬ a.HoldsStream) : Conforms t a

/-! ## Types that are accepted -/

variable {serializable : List String} {root : TypeExpr} {position : Position} {top : Bool}

/-- **A value of an accepted type holds no stream**, unless the type is that of streams. -/
theorem Conforms.not_holdsStream {t : TypeExpr} {a : Argument} (h : t.Conforms a) {top : Bool}
    (hwalk : walk serializable root position top t = [])
    (hplain : t.family? ≠ some .byteStream) : ¬ a.HoldsStream := by
  induction h generalizing top with
  | null => nofun
  | string => nofun
  | scalar _ _ ha => exact ha.not_holdsStream
  | bytes => nofun
  | scalars _ hitems =>
    exact Argument.not_holdsStream_list.mpr fun a ha => (hitems a ha).not_holdsStream
  | collection _ harguments _ ih =>
    obtain ⟨hinner, hplain⟩ := inner_of_walk hwalk _ (by rw [harguments]; exact .head _)
    exact Argument.not_holdsStream_list.mpr fun a ha => ih a ha hinner hplain
  | map _ harguments _ ih =>
    obtain ⟨hinner, hplain⟩ := inner_of_walk hwalk _ (by rw [harguments]; exact .tail _ (.head _))
    exact Argument.not_holdsStream_map.mpr fun e he => ih e he hinner hplain
  | pair _ harguments _ _ iha ihb =>
    have hinner := inner_of_walk hwalk
    simp only [harguments, List.forall_mem_cons] at hinner
    obtain ⟨⟨hfirst, hfirstPlain⟩, ⟨hsecond, hsecondPlain⟩, -⟩ := hinner
    simp [Argument.not_holdsStream_list, iha hfirst hfirstPlain, ihb hsecond hsecondPlain]
  | triple _ harguments _ _ _ iha ihb ihc =>
    have hinner := inner_of_walk hwalk
    simp only [harguments, List.forall_mem_cons] at hinner
    obtain ⟨⟨hfirst, hfirstPlain⟩, ⟨hsecond, hsecondPlain⟩, ⟨hthird, hthirdPlain⟩, -⟩ := hinner
    simp [Argument.not_holdsStream_list, iha hfirst hfirstPlain, ihb hsecond hsecondPlain,
      ihc hthird hthirdPlain]
  | multiValueMap _ hentries =>
    refine Argument.not_holdsStream_map.mpr fun e he => ?_
    rcases hentries e he with hscalar | ⟨items, hitems, hscalars⟩
    · exact hscalar.not_holdsStream
    · rw [hitems]
      exact Argument.not_holdsStream_list.mpr fun a ha => (hscalars a ha).not_holdsStream
  | byteStream hfamily => exact absurd hfamily hplain
  | other _ _ ha => exact ha

/-! ## Inversion -/

theorem family?_of_string {t : TypeExpr} (h : t.name = stringName) : t.family? = some .scalar := by
  apply family?_of_mem_names
  rw [h]
  decide

theorem isByteStream_iff {t : TypeExpr} : t.isByteStream = true ↔ t.family? = some .byteStream := by
  rw [isByteStream, beq_iff_eq, family?_eq_some_iff, Family.names, List.mem_singleton]

theorem Conforms.eq_string {t : TypeExpr} {a : Argument} (h : t.Conforms a)
    (hstring : t.isString = true) (hnullable : t.nullable = false) : ∃ s, a = .string s := by
  have hname : t.name = stringName := by
    simp only [isString, Bool.and_eq_true, beq_iff_eq] at hstring
    exact hstring.1
  have hscalar := family?_of_string hname
  cases h <;> simp_all

theorem Conforms.isScalar {t : TypeExpr} {a : Argument} (h : t.Conforms a)
    (hfamily : t.family? = some .scalar) (hnull : a ≠ .null) : a.IsScalar := by
  cases h with
  | string _ s => exact .string s
  | scalar _ _ ha => exact ha
  | null => exact absurd rfl hnull
  | _ => simp_all

theorem Conforms.isRaw {t : TypeExpr} {a : Argument} (h : t.Conforms a)
    (hfamily : t.family? = some .byteStream) (hnull : a ≠ .null) : a.IsRaw := by
  cases h with
  | byteStream _ ha => exact ha
  | null => exact absurd rfl hnull
  | string hname => simp [family?_of_string hname] at hfamily
  | _ => simp_all

theorem Conforms.elements {t : TypeExpr} {a : Argument} (h : t.Conforms a)
    (hfamily : t.family? = some .collection) :
    ∀ x ∈ a.elements, ∃ element, t.arguments = [element] ∧ element.Conforms x := by
  cases h with
  | collection _ harguments hitems => exact fun x hx => ⟨_, harguments, hitems x hx⟩
  | null => nofun
  | string hname => simp [family?_of_string hname] at hfamily
  | _ => simp_all

theorem Conforms.eq_pair {t : TypeExpr} {a : Argument} (h : t.Conforms a)
    (hfamily : t.family? = some .pair) (hnull : a ≠ .null) :
    ∃ first second x y, t.arguments = [first, second] ∧ a = .list [x, y] ∧ first.Conforms x ∧
      second.Conforms y := by
  cases h with
  | pair _ harguments hx hy => exact ⟨_, _, _, _, harguments, rfl, hx, hy⟩
  | null => exact absurd rfl hnull
  | string hname => simp [family?_of_string hname] at hfamily
  | _ => simp_all

/-! ## Entries -/

/-- A pair whose first type is that of texts stands for an entry. -/
theorem Conforms.exists_entry {t : TypeExpr} {a : Argument} (h : t.Conforms a)
    (hfamily : t.family? = some .pair) (hnull : a ≠ .null)
    (hkey : ∀ key ∈ t.arguments[0]?, key.isString = true ∧ key.nullable = false)
    (parameter : String) :
    ∃ e value, a.entry parameter = .ok e ∧ t.arguments[1]? = some value ∧ value.Conforms e.2 := by
  obtain ⟨first, second, x, y, harguments, rfl, hx, hy⟩ := h.eq_pair hfamily hnull
  obtain ⟨hstring, hnullable⟩ := hkey first (by simp [harguments])
  obtain ⟨k, rfl⟩ := hx.eq_string hstring hnullable
  exact ⟨(k, y), second, rfl, by simp [harguments], hy⟩

/-- **A value of a map shape has entries**, as soon as no null stands among its pairs, and each
value among them is one of the shape's type, if it has one, and otherwise a simple one. -/
theorem Conforms.exists_entries {t : TypeExpr} {a : Argument} (h : t.Conforms a) {shape : MapShape}
    (hshape : t.mapShape? = some shape)
    (hkey : ∀ key ∈ shape.key, key.isString = true ∧ key.nullable = false)
    (hnull : shape.kind = .pairList → .null ∉ a.elements) (parameter : String) :
    ∃ es, a.entries shape.kind parameter = .ok es ∧
      ∀ e ∈ es, shape.value = none ∧ e.2.IsScalar ∨
        ∃ value, shape.value = some value ∧ value.Conforms e.2 := by
  unfold mapShape? at hshape
  cases h with
  | null => exact ⟨[], by cases shape.kind <;> rfl, nofun⟩
  | @collection _ element items hfamily harguments hitems =>
    simp only [hfamily, harguments, List.getElem?_cons_zero] at hshape
    split at hshape
    · next hpair =>
      obtain rfl := Option.some.inj hshape
      have hentry : ∀ a ∈ items, ∃ e value, a.entry parameter = .ok e ∧
          element.arguments[1]? = some value ∧ value.Conforms e.2 := fun a ha =>
        (hitems a ha).exists_entry hpair (fun h => hnull rfl (h ▸ ha)) hkey parameter
      obtain ⟨es, hes⟩ := exists_mapM_iff.mpr fun a ha =>
        (hentry a ha).imp fun e he => he.choose_spec.1
      refine ⟨es, hes, fun e he => ?_⟩
      obtain ⟨a, ha, hstep⟩ := exists_of_mem_mapM hes he
      obtain ⟨e', value, he', hvalue, hconforms⟩ := hentry a ha
      obtain rfl := Except.ok.inj (he'.symm.trans hstep)
      exact .inr ⟨value, hvalue, hconforms⟩
    · cases hshape
  | map hfamily harguments hentries =>
    simp only [hfamily, harguments, Option.some.injEq] at hshape
    subst hshape
    exact ⟨_, rfl, fun e he => .inr ⟨_, rfl, hentries e he⟩⟩
  | multiValueMap hfamily hentries =>
    simp only [hfamily, Option.some.injEq] at hshape
    subst hshape
    refine ⟨_, rfl, fun e he => .inl ⟨rfl, ?_⟩⟩
    obtain ⟨entry, hentry, he⟩ := List.mem_flatMap.mp he
    obtain ⟨x, hx, rfl⟩ := List.mem_map.mp he
    rcases hentries entry hentry with hscalar | ⟨items, hitems, hscalars⟩
    · exact hscalar.of_mem_elements x hx
    · rw [hitems] at hx
      exact hscalars x hx
  | string hname => simp [family?_of_string hname] at hshape
  | other hfamily => rcases hfamily with hfamily | hfamily | hfamily <;> simp [hfamily] at hshape
  | _ => simp_all

/-- The value type of a map shape is accepted with the type, and it is no byte stream. -/
theorem inner_of_mapShape {t : TypeExpr} {shape : MapShape} (hshape : t.mapShape? = some shape)
    (hwalk : walk serializable root position top t = []) :
    ∀ value ∈ shape.value, walk serializable root position false value = [] ∧
      value.family? ≠ some .byteStream := by
  have hinner := inner_of_walk hwalk
  intro value hvalue
  unfold mapShape? at hshape
  split at hshape
  · obtain rfl := Option.some.inj hshape
    exact hinner value (List.mem_of_getElem? hvalue)
  · obtain rfl := Option.some.inj hshape
    cases hvalue
  · split at hshape
    · next pair hpair =>
      split at hshape
      · obtain rfl := Option.some.inj hshape
        have hpair := hinner pair (List.mem_of_getElem? hpair)
        exact inner_of_walk hpair.1 value (List.mem_of_getElem? hvalue)
      · cases hshape
    · cases hshape
  · cases hshape

end TypeExpr

end HttpService
