import Mathlib.Data.List.FinRange
import Mathlib.Data.List.NodupEquivFin
import HttpService.Proofs.Validation.Analysis
import HttpService.Proofs.Validation.Masking
import HttpService.Proofs.Validation.WellFormed

/-!
# Every parameter has its slot

The places of an endpoint that a parameter fills are its slots: the placeholders of the path, the
URL, the queries, the headers that are not written out, the body, the form fields and the parts.
The steps of a check take the bindings of the parameters apart, each step those of one kind, and a
content has room for the bindings of one kind only.  Still no binding is lost: whatever has no room
is reported (`slots_content?`), so the slots of an endpoint are the bound parameters, sorted by the
kind of slot (`slots_endpoint`).

Sorting by kind is a bijection of positions that keeps the order within each kind
(`exists_equiv_sorted`), and so the parameters of every function that becomes an endpoint
correspond to its slots one to one (`ServiceDecl.lowers_of_service`).
-/

namespace HttpService

/-! ## Sorting by kind -/

section Sorting

variable {α κ : Type} [DecidableEq κ]

/-- The elements of a list by their kinds, in the given order of the kinds. -/
def sortedBy (kind : α → κ) (kinds : List κ) (l : List α) : List α :=
  kinds.flatMap fun k => l.filter fun a => kind a = k

theorem sortedBy_map {β : Type} (kind : α → κ) (kinds : List κ) (f : β → α) (l : List β) :
    sortedBy kind kinds (l.map f) = (sortedBy (fun b => kind (f b)) kinds l).map f := by
  unfold sortedBy
  rw [List.map_flatMap]
  simp only [List.filter_map]
  rfl

theorem mem_sortedBy {kind : α → κ} {kinds : List κ} {l : List α} {a : α} :
    a ∈ sortedBy kind kinds l ↔ a ∈ l ∧ kind a ∈ kinds := by
  simp only [sortedBy, List.mem_flatMap, List.mem_filter, decide_eq_true_eq]
  constructor
  · rintro ⟨k, hk, ha, rfl⟩
    exact ⟨ha, hk⟩
  · rintro ⟨ha, hk⟩
    exact ⟨_, hk, ha, rfl⟩

/-- What holds of any two elements of one kind, and of any two of different kinds, in the order in
which they are sorted, holds of any two. -/
theorem pairwise_sortedBy {R : α → α → Prop} {kind : α → κ} {kinds : List κ} {l : List α}
    (hkinds : kinds.Nodup) (hl : l.Pairwise fun a b => kind a = kind b → R a b)
    (hne : ∀ a b, kind a ≠ kind b → R a b) : (sortedBy kind kinds l).Pairwise R := by
  refine List.pairwise_flatMap.mpr ⟨fun k _ => ?_, ?_⟩
  · refine (hl.filter fun a => kind a = k).imp_of_mem fun ha hb hR => hR ?_
    simp only [List.mem_filter, decide_eq_true_eq] at ha hb
    rw [ha.2, hb.2]
  · refine hkinds.imp fun hk a ha b hb => hne a b ?_
    simp only [List.mem_filter, decide_eq_true_eq] at ha hb
    rw [ha.2, hb.2]
    exact hk

/-- **Sorting by kind is a bijection of positions that keeps the order within each kind.** -/
theorem exists_equiv_sorted (kind : α → κ) {kinds : List κ} {l : List α} (hkinds : kinds.Nodup)
    (hall : ∀ a ∈ l, kind a ∈ kinds) :
    ∃ σ : Fin l.length ≃ Fin (sortedBy kind kinds l).length,
      (∀ i, (sortedBy kind kinds l)[σ i] = l[i]) ∧
        ∀ i j, i < j → kind l[i] = kind l[j] → σ i < σ j := by
  -- The positions are sorted instead of the elements, since these may repeat.
  let positions := sortedBy (fun i => kind (l.get i)) kinds (List.finRange l.length)
  have hsorted : sortedBy kind kinds l = positions.map l.get := by
    rw [← sortedBy_map, List.map_get_finRange]
  have hnodup : positions.Nodup :=
    pairwise_sortedBy hkinds ((List.nodup_finRange _).imp (by intro i j h _; exact h))
      fun i j hij hk => hij (congrArg (fun i => kind (l.get i)) hk)
  have hmem (i : Fin l.length) : i ∈ positions :=
    mem_sortedBy.mpr ⟨List.mem_finRange i, hall _ (List.get_mem l i)⟩
  have hordered : positions.Pairwise fun i j => kind l[i] = kind l[j] → i < j :=
    pairwise_sortedBy hkinds ((List.pairwise_lt_finRange _).imp (by intro i j h _ _; exact h))
      fun i j hij hk => absurd hk hij
  have hlength : positions.length = (sortedBy kind kinds l).length := by
    rw [hsorted, List.length_map]
  let place := (List.Nodup.getEquivOfForallMemList positions hnodup hmem).symm
  have hget (i : Fin l.length) : positions.get (place i) = i :=
    (List.Nodup.getEquivOfForallMemList positions hnodup hmem).apply_symm_apply i
  refine ⟨place.trans (finCongr hlength), fun i => ?_, fun i j hij hkind => ?_⟩
  · have h := congrArg l.get (hget i)
    simpa [hsorted] using h
  · by_contra hlt
    have hne : place j ≠ place i := fun h => hij.ne' (place.injective h)
    have hlt : place j < place i := lt_of_le_of_ne (not_lt.mp hlt) hne
    have h := List.pairwise_iff_get.mp hordered _ _ hlt
    rw [hget, hget] at h
    exact absurd (h hkind.symm) hij.asymm

end Sorting

/-! ## Slots -/

/-- A place of an endpoint that a parameter fills, with the name of that parameter. -/
structure Slot where
  parameter : String
  binding : Binding
  deriving DecidableEq

/-- The lists of an endpoint in which slots stand. -/
inductive SlotList
  | path
  | url
  | queries
  | headers
  | body
  | fields
  | parts
  deriving DecidableEq

def SlotList.all : List SlotList :=
  [.path, .url, .queries, .headers, .body, .fields, .parts]

theorem SlotList.mem_all (k : SlotList) : k ∈ all := by
  cases k <;> decide

namespace Binding

def slotList : Binding → SlotList
  | .path _ => .path
  | .url => .url
  | .query _ => .queries
  | .header _ => .headers
  | .body _ => .body
  | .field _ => .fields
  | .part _ => .parts

def name? : Binding → Option String
  | .path placeholder => some placeholder
  | .query b | .field b => b.name
  | .header b => b.name?
  | .part b => b.name
  | .url | .body _ => none

end Binding

def UrlSource.slots : UrlSource → List Slot
  | .template _ _ path queries =>
    path.map (fun b => ⟨b.parameter, .path b.placeholder⟩) ++
      queries.map fun b => ⟨b.parameter, .query b⟩
  | .dynamic parameter queries =>
    ⟨parameter, .url⟩ :: queries.map fun b => ⟨b.parameter, .query b⟩

/-- The slot of a header, unless its value is written out. -/
def HeaderBinding.slot? (b : HeaderBinding) : Option Slot :=
  b.parameter?.map fun parameter => ⟨parameter, .header b⟩

def ContentBinding.slots : ContentBinding → List Slot
  | .body b => [⟨b.parameter, .body b⟩]
  | .form fields => fields.map fun b => ⟨b.parameter, .field b⟩
  | .multipart _ parts => parts.map fun b => ⟨b.parameter, .part b⟩

def Endpoint.slots (e : Endpoint) : List Slot :=
  e.url.slots ++ e.headers.filterMap HeaderBinding.slot? ++
    (e.content.map ContentBinding.slots).getD []

/-! ## Parameters and the slots they fill -/

/-- The name that a parameter has in a role: the one that is given, or its own.  A header always
has a given one, and a map, a URL and a body have none. -/
def ParameterDecl.nameIn (p : ParameterDecl) : Role → Option String
  | .path name | .query name | .field name | .part name _ => some (p.bindingName name)
  | .header name => some name
  | .url | .queryMap | .headerMap | .fieldMap | .partMap _ | .body _ => none

/-- A slot is filled by a parameter that has one role: the slot is of the kind that the role is
written with, and has the name of the parameter and the one of the binding. -/
structure Slot.FilledBy (p : ParameterDecl) (slot : Slot) : Prop where
  parameter : slot.parameter = p.name
  role : ∃ role, p.roles = [role] ∧ slot.binding.label = role.label ∧
    slot.binding.name? = p.nameIn role

/-- Some parameters fill some slots: each parameter fills one slot and each slot is filled by one
parameter, and within a list of slots they stand in the order of the parameters. -/
def Fill (ps : List ParameterDecl) (slots : List Slot) : Prop :=
  ∃ σ : Fin ps.length ≃ Fin slots.length, (∀ i, slots[σ i].FilledBy ps[i]) ∧
    ∀ i j, i < j → slots[σ i].binding.slotList = slots[σ j].binding.slotList → σ i < σ j

def FunctionMark.headerTexts : FunctionMark → List String
  | .headers values => values
  | _ => []

/-- A header whose name is what stands before the first colon of a text, and whose value is what
stands behind it without the blanks at its ends. -/
def HeaderBinding.IsWritten (text : String) (b : HeaderBinding) : Prop :=
  ∃ name value : List Char, text.toList = name ++ ':' :: value ∧ ':' ∉ name ∧
    b = .static (String.ofList name) (FunctionDecl.headerValue value)

/-- What becomes of a function: its parameters fill the slots of the endpoint, and the headers that
are written out stand before the others, in the order in which they are written. -/
structure FunctionDecl.Lowers (f : FunctionDecl) (e : Endpoint) : Prop where
  slots : Fill f.parameters e.slots
  headers : ∃ written others, e.headers = written ++ others ∧
    List.Forall₂ HeaderBinding.IsWritten (f.marks.flatMap FunctionMark.headerTexts) written ∧
      ∀ b ∈ others, b.slot?.isSome = true

/-- Parameters that fill slots one after another fill them also when these are sorted. -/
theorem fill_sortedBy {ps : List ParameterDecl} {slots : List Slot}
    (h : List.Forall₂ (fun p s => s.FilledBy p) ps slots) :
    Fill ps (sortedBy (fun s => s.binding.slotList) SlotList.all slots) := by
  have hall : ∀ s ∈ slots, s.binding.slotList ∈ SlotList.all := fun s _ => SlotList.mem_all _
  obtain ⟨σ, hσ, hordered⟩ :=
    exists_equiv_sorted (fun s : Slot => s.binding.slotList) (by decide) hall
  refine ⟨(finCongr h.length_eq).trans σ, fun i => ?_, fun i j hij hlist => ?_⟩
  · show Slot.FilledBy _ ((sortedBy _ _ slots)[σ (finCongr h.length_eq i)])
    rw [hσ]
    exact h.get i.2 _
  · refine hordered _ _ hij ?_
    rw [← hσ, ← hσ]
    exact hlist

theorem ParameterDecl.name?_lower (serializable : List String) (p : ParameterDecl) (role : Role) :
    (p.lower serializable role).1.name? = p.nameIn role := by
  cases role <;> rfl

namespace FunctionDecl

variable {serializable : List String} {f : FunctionDecl}

def slot (x : Bound) : Slot :=
  ⟨x.1.name, x.2⟩

theorem filledBy_of_bind {p : ParameterDecl} {b : Binding}
    (h : p.bind serializable = .ok b) : (slot (p, b)).FilledBy p := by
  obtain ⟨role, hrole, hlower⟩ := ParameterDecl.bind_ok_iff.mp h
  refine ⟨rfl, role, hrole, ?_, ?_⟩
  · rw [slot, ← label_lower serializable p role, hlower]
  · rw [slot, ← ParameterDecl.name?_lower serializable p role, hlower]

theorem bind_ne_error_nil (p : ParameterDecl) : p.bind serializable ≠ .error [] := by
  unfold ParameterDecl.bind
  split
  · simp
  · split
    · simp
    · next binding vs hne _ =>
      intro h
      exact hne (Except.error.inj h)
  · simp

theorem forall₂_bound (h : f.parameterDiagnostics serializable = []) :
    List.Forall₂ (fun p x => x.1 = p ∧ p.bind serializable = .ok x.2) f.parameters
      (f.bound serializable) := by
  unfold parameterDiagnostics bound at *
  generalize f.parameters = ps at *
  induction ps with
  | nil => exact .nil
  | cons p ps ih =>
    rw [List.flatMap_cons, List.append_eq_nil_iff] at h
    cases hbind : p.bind serializable with
    | error vs =>
      rw [hbind] at h
      obtain rfl : vs = [] := List.map_eq_nil_iff.mp h.1
      exact absurd hbind (bind_ne_error_nil p)
    | ok b =>
      rw [List.filterMap_cons_some (by rw [hbind]; rfl)]
      exact .cons ⟨rfl, hbind⟩ (ih h.2)

/-! ## The bindings of one kind -/

/-- The slots of one list, for a step that picks the bindings of that list. -/
theorem map_filterMap_eq_filter {β : Type} {bound : List Bound} {k : SlotList}
    {pick : Bound → Option β} {make : β → Slot}
    (h : ∀ x ∈ bound, (pick x).map make = if x.2.slotList = k then some (slot x) else none) :
    (bound.filterMap pick).map make
      = (bound.map slot).filter fun s => s.binding.slotList = k := by
  rw [List.map_filterMap, List.filter_map, ← List.filterMap_eq_filter, List.map_filterMap]
  refine List.filterMap_congr fun x hx => (h x hx).trans ?_
  by_cases hk : x.2.slotList = k
  · simp [Option.guard, slot, hk]
  · simp [Option.guard, slot, hk]

variable {bound : List Bound}

/-- The slots that the bound parameters are to fill in one list. -/
def slotsIn (bound : List Bound) (k : SlotList) : List Slot :=
  (bound.map slot).filter fun s => s.binding.slotList = k

theorem slotsIn_path :
    (pathBindings bound).map (fun x => ⟨x.1.name, .path x.2⟩) = slotsIn bound .path := by
  refine map_filterMap_eq_filter ?_
  rintro ⟨p, b⟩ -
  cases b <;> simp [Binding.slotList, slot]

theorem slotsIn_url :
    (urlParameters bound).map (fun p => ⟨p.name, .url⟩) = slotsIn bound .url := by
  refine map_filterMap_eq_filter ?_
  rintro ⟨p, b⟩ -
  cases b <;> simp [Binding.slotList, slot]

/-- Every binding fits the parameter that it stands with. -/
def AllFit (bound : List Bound) : Prop :=
  ∀ x ∈ bound, x.2.Fits x.1

theorem slotsIn_queries (h : AllFit bound) :
    (queryBindings bound).map (fun b => ⟨b.parameter, .query b⟩) = slotsIn bound .queries := by
  refine map_filterMap_eq_filter ?_
  rintro ⟨p, b⟩ hx
  have hfits := h _ hx
  cases b <;> simp_all [Binding.slotList, slot, Binding.Fits]

theorem slotsIn_fields (h : AllFit bound) :
    (fieldBindings bound).map (fun b => ⟨b.parameter, .field b⟩) = slotsIn bound .fields := by
  refine map_filterMap_eq_filter ?_
  rintro ⟨p, b⟩ hx
  have hfits := h _ hx
  cases b <;> simp_all [Binding.slotList, slot, Binding.Fits]

theorem slotsIn_parts (h : AllFit bound) :
    (partBindings bound).map (fun b => ⟨b.parameter, .part b⟩) = slotsIn bound .parts := by
  refine map_filterMap_eq_filter ?_
  rintro ⟨p, b⟩ hx
  have hfits := h _ hx
  cases b <;> simp_all [Binding.slotList, slot, Binding.Fits]

theorem slotsIn_body (h : AllFit bound) :
    (bodyBindings bound).map (fun b => ⟨b.parameter, .body b⟩) = slotsIn bound .body := by
  refine map_filterMap_eq_filter ?_
  rintro ⟨p, b⟩ hx
  have hfits := h _ hx
  cases b <;> simp_all [Binding.slotList, slot, Binding.Fits]

theorem slot?_eq_some_of_fits {p : ParameterDecl} {b : HeaderBinding}
    (h : (Binding.header b).Fits p) : b.slot? = some ⟨p.name, .header b⟩ := by
  rw [HeaderBinding.slot?, h.1]
  rfl

theorem slotsIn_headers (h : AllFit bound) :
    (headerBindings bound).filterMap HeaderBinding.slot? = slotsIn bound .headers := by
  unfold headerBindings slotsIn
  rw [List.filterMap_filterMap, List.filter_map, ← List.filterMap_eq_filter, List.map_filterMap]
  refine List.filterMap_congr fun x hx => ?_
  obtain ⟨p, b⟩ := x
  cases b with
  | header b => simp [Option.guard, slot, Binding.slotList, slot?_eq_some_of_fits (h _ hx)]
  | _ => simp [Option.guard, slot, Binding.slotList]

/-! ## Nothing is left over -/

theorem slots_urlStep {marks : Marks} {url : UrlSource} (hfit : AllFit bound)
    (h : f.urlStep marks bound = (some url, [])) :
    url.slots = slotsIn bound .path ++ slotsIn bound .url ++ slotsIn bound .queries := by
  unfold urlStep at h
  split at h
  · cases h
  · rw [← slotsIn_path, ← slotsIn_url, ← slotsIn_queries hfit]
    rcases checkUrl_eq_some_iff.mp h with ⟨template, -, hurls, -, rfl⟩ | ⟨p, -, hurl, hpaths, rfl⟩
    · simp [UrlSource.slots, hurls]
    · simp [UrlSource.slots, hurl, hpaths]

theorem fieldBindings_eq_nil {marks : Marks} (h : orphanDiagnostics marks bound = [])
    (hform : marks.form = false) : fieldBindings bound = [] := by
  rw [List.eq_nil_iff_forall_not_mem]
  intro b hb
  obtain ⟨p, hp⟩ := mem_fieldBindings_iff.mp hb
  have hnone := List.filterMap_eq_nil_iff.mp h _ hp
  simp [hform] at hnone

theorem partBindings_eq_nil {marks : Marks} (h : orphanDiagnostics marks bound = [])
    (hparts : marks.multipart = none) : partBindings bound = [] := by
  rw [List.eq_nil_iff_forall_not_mem]
  intro b hb
  obtain ⟨p, hp⟩ := mem_partBindings_iff.mp hb
  have hnone := List.filterMap_eq_nil_iff.mp h _ hp
  simp [hparts] at hnone

/-- A content has room for one body, for the fields or for the parts, and there is nothing for
which it has no room. -/
theorem slots_content? {marks : Marks} (hfit : AllFit bound)
    (horphans : orphanDiagnostics marks bound = [])
    (h : f.contentViolations marks bound = []) :
    ((content? marks bound).map ContentBinding.slots).getD []
      = slotsIn bound .body ++ slotsIn bound .fields ++ slotsIn bound .parts := by
  rw [← slotsIn_body hfit, ← slotsIn_fields hfit, ← slotsIn_parts hfit]
  have hfields := fieldBindings_eq_nil horphans
  have hparts := partBindings_eq_nil horphans
  simp only [contentViolations, List.append_eq_nil_iff, ite_eq_right_iff, reduceCtorEq,
    imp_false, Bool.and_eq_true, not_and, Bool.not_eq_true, decide_eq_true_eq] at h
  obtain ⟨⟨⟨⟨⟨⟨hone, hboth⟩, hbodyForm⟩, hbodyParts⟩, -⟩, -⟩, -⟩ := h
  unfold content?
  cases hbodies : bodyBindings bound with
  | cons b rest =>
    simp only [hbodies, List.length_cons, List.isEmpty_cons, Bool.not_false, forall_const] at *
    obtain rfl : rest = [] := List.length_eq_zero_iff.mp (by omega)
    rw [hfields hbodyForm, hparts (by simpa using hbodyParts)]
    rfl
  | nil =>
    cases hform : marks.form with
    | true =>
      rw [hparts (by simpa using hboth hform)]
      simp [ContentBinding.slots]
    | false =>
      rw [hfields hform]
      cases hsome : marks.multipart with
      | none => rw [hparts hsome]; rfl
      | some subtype => simp [ContentBinding.slots]

/-- **The slots of an endpoint are the bound parameters, sorted by the kind of slot.** -/
theorem slots_endpoint {method : Method} {url : UrlSource}
    (h : f.diagnostics serializable = [])
    (hurl : (f.urlStep f.readMarks.1 (f.bound serializable)).1 = some url) :
    (f.endpoint serializable method url).slots
      = sortedBy (fun s : Slot => s.binding.slotList) SlotList.all
          ((f.bound serializable).map slot) := by
  obtain ⟨-, -, hwritten, -, hstep, horphans, hcontent, -⟩ := diagnostics_eq_nil_iff.mp h
  have hfit : AllFit (f.bound serializable) := fun x hx => (fits_of_mem_bound hx).2
  have hstatic : (staticHeaders f.readMarks.1.headers).1.filterMap HeaderBinding.slot? = [] :=
    List.filterMap_eq_nil_iff.mpr fun b hb => by
      rw [HeaderBinding.slot?, (headerName_of_mem_staticHeaders hwritten hb).1]
      rfl
  rw [Endpoint.slots, endpoint, slots_urlStep hfit (Prod.ext hurl hstep), List.filterMap_append,
    hstatic, slotsIn_headers hfit, slots_content? hfit horphans hcontent]
  simp [sortedBy, SlotList.all, slotsIn]

/-! ## Headers that are written out -/

theorem isWritten_of_staticHeader {text : String} (h : (staticHeader text).2 = []) :
    ∃ b, (staticHeader text).1 = some b ∧ b.IsWritten text := by
  unfold staticHeader at h ⊢
  split at h
  · cases h
  · next name value hcut =>
    obtain ⟨⟨s, hs, htext⟩, hname⟩ := Text.cut_eq_some hcut
    rw [beq_iff_eq] at hs
    subst hs
    exact ⟨_, rfl, name, value, htext, fun hmem => by simpa using hname _ hmem, rfl⟩

theorem forall₂_staticHeaders {texts : List String} (h : (staticHeaders texts).2 = []) :
    List.Forall₂ HeaderBinding.IsWritten texts (staticHeaders texts).1 := by
  simp only [staticHeaders] at *
  induction texts with
  | nil => exact .nil
  | cons text texts ih =>
    rw [List.map_cons, List.flatMap_cons, List.append_eq_nil_iff] at h
    obtain ⟨b, hb, hwritten⟩ := isWritten_of_staticHeader h.1
    rw [List.map_cons, List.filterMap_cons_some hb]
    exact .cons hwritten (ih h.2)

end FunctionDecl

namespace Marks

theorem headers_add (m : Marks) (mark : FunctionMark) :
    (m.add mark).1.headers = m.headers ++ mark.headerTexts := by
  cases mark with
  | http method path hasBody =>
    unfold add
    dsimp only
    split <;> simp [FunctionMark.headerTexts]
  | headers values => rfl
  | form => simp [add, FunctionMark.headerTexts]
  | multipart subtype =>
    unfold add
    dsimp only
    split <;> simp [FunctionMark.headerTexts]

theorem headers_addAll (m : Marks) (marks : List FunctionMark) :
    (m.addAll marks).1.headers = m.headers ++ marks.flatMap FunctionMark.headerTexts := by
  induction marks generalizing m with
  | nil => simp [addAll]
  | cons mark marks ih =>
    show ((m.add mark).1.addAll marks).1.headers = _
    rw [ih, headers_add, List.flatMap_cons, List.append_assoc]

end Marks

/-! ## The whole function -/

namespace FunctionDecl

variable {serializable : List String} {f : FunctionDecl}

theorem headers_readMarks (f : FunctionDecl) :
    f.readMarks.1.headers = f.marks.flatMap FunctionMark.headerTexts :=
  Marks.headers_addAll Marks.none f.marks

theorem exists_lower_of_mem_slots {e : Endpoint} (h : f.endpoint? serializable = some e)
    {s : Slot} (hs : s ∈ e.slots) :
    ∃ p ∈ f.parameters, p.name = s.parameter ∧
      ∃ role, p.roles = [role] ∧ p.lower serializable role = (s.binding, []) := by
  obtain ⟨hnil, method, url, -, hurl, rfl⟩ := endpoint?_eq_some_iff.mp h
  rw [slots_endpoint hnil hurl, mem_sortedBy, List.mem_map] at hs
  obtain ⟨⟨⟨p, b⟩, hbound, rfl⟩, -⟩ := hs
  obtain ⟨hp, hbind⟩ := mem_bound_iff.mp hbound
  exact ⟨p, hp, rfl, ParameterDecl.bind_ok_iff.mp hbind⟩

/-- A function that becomes an endpoint loses no parameter. -/
theorem lowers_of_endpoint? {e : Endpoint} (h : f.endpoint? serializable = some e) :
    f.Lowers e := by
  obtain ⟨hnil, method, url, -, hurl, rfl⟩ := endpoint?_eq_some_iff.mp h
  obtain ⟨-, -, hwritten, hparameters, -⟩ := diagnostics_eq_nil_iff.mp hnil
  constructor
  · rw [slots_endpoint hnil hurl]
    refine fill_sortedBy (List.forall₂_map_right_iff.mpr ?_)
    refine (forall₂_bound hparameters).imp fun p x hx => ?_
    obtain ⟨rfl, hbind⟩ := hx
    exact filledBy_of_bind hbind
  · refine ⟨_, _, rfl, ?_, fun b hb => ?_⟩
    · rw [← headers_readMarks]
      exact forall₂_staticHeaders hwritten
    · obtain ⟨p, hp⟩ := mem_headerBindings_iff.mp hb
      rw [slot?_eq_some_of_fits (fits_of_mem_bound hp).2]
      rfl

end FunctionDecl

namespace ServiceDecl

/-- **No parameter is lost or used twice.**  The endpoints of a service are what becomes of the
functions of which nothing is said, one after another, and the parameters of each such function
fill the slots of its endpoint. -/
theorem lowers_of_service {s : ServiceDecl} {service : Service}
    (hs : s.analyze.service = some service) :
    List.Forall₂ FunctionDecl.Lowers (s.functions.filter fun f => (s.contribution f).isEmpty)
      service.endpoints := by
  obtain ⟨-, rfl⟩ := service_eq_some_iff.mp hs
  exact (forall₂_endpoint? s s.functions).imp fun _ _ => FunctionDecl.lowers_of_endpoint?

theorem lowers_of_service_upload :
    uploadService.analyze.service = some ⟨"SClient", "S", [uploadEndpoint]⟩ ∧
      List.Forall₂ FunctionDecl.Lowers uploadService.functions [uploadEndpoint] := by
  have hs : uploadService.analyze.service = some ⟨"SClient", "S", [uploadEndpoint]⟩ := by
    decide +kernel
  have hkept : uploadService.functions.filter (fun f => (uploadService.contribution f).isEmpty)
      = uploadService.functions := by
    decide +kernel
  refine ⟨hs, ?_⟩
  rw [← hkept]
  exact lowers_of_service hs

end ServiceDecl

end HttpService
