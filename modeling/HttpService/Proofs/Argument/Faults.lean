import HttpService.Argument.Arguments
import HttpService.Proofs.Success

/-!
# Faults of writing an argument

An argument is written as a text or as JSON, and unpacked into values with names.  Each of these
faults only on an argument that is there, and none of them asks for a single value: both are the
business of the one who needs the text (`ArgumentFault.IsUnwritable`).
-/

namespace HttpService

/-- A fault of an argument that is there and cannot be written or unpacked. -/
def ArgumentFault.IsUnwritable : ArgumentFault → Prop
  | .missing _ => False
  | .shape _ expected _ => expected ≠ "a single value"

theorem Argument.isUnwritable_mismatch {expected : String} (h : expected ≠ "a single value")
    (parameter : String) (a : Argument) : (mismatch parameter expected a).IsUnwritable :=
  h

/-! ## JSON -/

namespace Argument

mutual

theorem isUnwritable_of_toJson {parameter : String} {fault : ArgumentFault} :
    ∀ {a : Argument}, a.toJson parameter = .error fault → fault.IsUnwritable
  | .list items, h => by
    rw [toJson, map_error_iff] at h
    exact isUnwritable_of_toItems h
  | .map entries, h => by
    rw [toJson, map_error_iff] at h
    exact isUnwritable_of_toMembers h
  | .stream s, h => by
    obtain rfl := Except.error.inj h
    exact isUnwritable_mismatch (by decide) parameter _
  | .null, h | .bool _, h | .int _, h | .float _, h | .string _, h | .bytes _, h => by
    cases h

theorem isUnwritable_of_toItems {parameter : String} {fault : ArgumentFault} :
    ∀ {items : List Argument}, toItems parameter items = .error fault → fault.IsUnwritable
  | [], h => by cases h
  | a :: rest, h => by
    rw [toItems, bind_error_iff] at h
    rcases h with h | ⟨j, -, h⟩
    · exact isUnwritable_of_toJson h
    · rcases (bind_error_iff _ _ _).mp h with h | ⟨js, -, ⟨⟩⟩
      exact isUnwritable_of_toItems h

theorem isUnwritable_of_toMembers {parameter : String} {fault : ArgumentFault} :
    ∀ {entries : List (String × Argument)}, toMembers parameter entries = .error fault →
      fault.IsUnwritable
  | [], h => by cases h
  | (n, a) :: rest, h => by
    rw [toMembers, bind_error_iff] at h
    rcases h with h | ⟨j, -, h⟩
    · exact isUnwritable_of_toJson h
    · rcases (bind_error_iff _ _ _).mp h with h | ⟨js, -, ⟨⟩⟩
      exact isUnwritable_of_toMembers h

end

/-! ## Texts and entries -/

theorem isUnwritable_of_toText {parameter : String} {a : Argument} {fault : ArgumentFault}
    (h : a.toText parameter = .error fault) : fault.IsUnwritable := by
  cases a with
  | list items => exact isUnwritable_of_toJson ((map_error_iff _ _ _).mp h)
  | map entries => exact isUnwritable_of_toJson ((map_error_iff _ _ _).mp h)
  | stream s =>
    obtain rfl := Except.error.inj h
    exact isUnwritable_mismatch (by decide) parameter _
  | _ => cases h

theorem eq_null_of_toText {parameter : String} {a : Argument} (h : a.toText parameter = .ok none) :
    a = .null := by
  cases a with
  | null => rfl
  | list items =>
    obtain ⟨j, -, ⟨⟩⟩ := (map_ok_iff _ _ _).mp h
  | map entries =>
    obtain ⟨j, -, ⟨⟩⟩ := (map_ok_iff _ _ _).mp h
  | _ => cases h

theorem isUnwritable_of_entry {parameter : String} {a : Argument} {fault : ArgumentFault}
    (h : a.entry parameter = .error fault) : fault.IsUnwritable := by
  unfold entry at h
  split at h
  · cases h
  · obtain rfl := Except.error.inj h
    exact isUnwritable_mismatch (by decide) parameter _

theorem isUnwritable_of_entries {kind : TypeExpr.MapKind} {parameter : String} {a : Argument}
    {fault : ArgumentFault} (h : a.entries kind parameter = .error fault) :
    fault.IsUnwritable := by
  unfold entries at h
  split at h
  · cases h
  · cases h
  · cases h
  · obtain ⟨pair, -, h⟩ := exists_of_mapM_error h
    exact isUnwritable_of_entry h
  · cases h
  · obtain rfl := Except.error.inj h
    exact isUnwritable_mismatch (by decide) parameter _
  · obtain rfl := Except.error.inj h
    exact isUnwritable_mismatch (by decide) parameter _

theorem null_notMem_of_entries {parameter : String} {a : Argument}
    {es : List (String × Argument)} (h : a.entries .pairList parameter = .ok es) :
    .null ∉ a.elements := by
  cases a with
  | null => nofun
  | list pairs =>
    intro hnull
    obtain ⟨e, -, he⟩ := exists_mem_of_mapM h hnull
    cases he
  | map entries => simp [elements]
  | _ => cases h

end Argument

/-! ## Pairs -/

theorem isUnwritable_of_textPairs {parameter : String} {values : List (String × Argument)}
    {fault : ArgumentFault} (h : textPairs parameter values = .error fault) :
    fault.IsUnwritable := by
  induction values with
  | nil => cases h
  | cons value rest ih =>
    rw [textPairs, bind_error_iff] at h
    rcases h with h | ⟨text, -, h⟩
    · exact Argument.isUnwritable_of_toText h
    · rcases (bind_error_iff _ _ _).mp h with h | ⟨pairs, -, ⟨⟩⟩
      exact ih h

theorem isUnwritable_of_bindingPairs {bindings : List ValueBinding} {args : Arguments}
    {fault : ArgumentFault} (h : bindingPairs bindings args = .error fault) :
    fault.IsUnwritable := by
  obtain ⟨b, -, h⟩ := exists_of_mapM_error ((map_error_iff _ _ _).mp h)
  rcases (bind_error_iff _ _ _).mp h with h | ⟨values, -, h⟩
  · unfold unpack at h
    split at h
    · cases h
    · cases h
    · exact Argument.isUnwritable_of_entries h
  · exact isUnwritable_of_textPairs h

end HttpService
