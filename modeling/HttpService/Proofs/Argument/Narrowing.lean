import HttpService.Call.Encoding
import HttpService.Proofs.Success

/-!
# What becomes of a document that is passed as an argument

An argument holds a whole number of 64 bits with a sign, or a double.  A JSON document may hold
more, so on its way through an argument a document is narrowed: a larger whole number becomes the
double nearest to it, and all else stays (`toJson_ofJson`).  A document therefore comes back as it
was exactly when each of its numbers survives (`toJson_ofJson_eq_iff`).
-/

namespace HttpService

/-! ## Numbers -/

/-- A whole number of 64 bits with a sign, or a finite double. -/
def JsonNumber.Survives : JsonNumber → Prop
  | .whole n => Int64.minValue.toInt ≤ n ∧ n ≤ Int64.maxValue.toInt
  | .float x => x.isFinite = true

instance : DecidablePred JsonNumber.Survives
  | .whole n => inferInstanceAs (Decidable (Int64.minValue.toInt ≤ n ∧ n ≤ Int64.maxValue.toInt))
  | .float x => inferInstanceAs (Decidable (x.isFinite = true))

/-- A number as an argument can hold it: what does not survive becomes a double. -/
def JsonNumber.narrow : JsonNumber → Json
  | .whole k =>
    if (JsonNumber.whole k).Survives then .whole k
    else .float (Binary64.ofRatio (k < 0) k.natAbs 1)
  | .float x => .float x

theorem JsonNumber.narrow_eq_iff {n : JsonNumber} : n.narrow = .number n ↔ n.Survives := by
  cases n with
  | whole k =>
    rw [narrow]
    constructor
    · intro h
      by_contra hlarge
      rw [if_neg hlarge, Json.float] at h
      split at h
      · cases h
      · cases h
    · intro hsurvives
      rw [if_pos hsurvives]
      rfl
  | float x =>
    rw [narrow, Json.float]
    show _ ↔ x.isFinite = true
    by_cases hfinite : x.isFinite = true
    · simp [hfinite]
    · simp [hfinite]

theorem Argument.toJson_ofNumber (parameter : String) (n : JsonNumber) :
    (ofNumber n).toJson parameter = .ok n.narrow := by
  cases n with
  | whole k =>
    rw [ofNumber, JsonNumber.narrow]
    by_cases hsurvives : (JsonNumber.whole k).Survives
    · have hround : (Int64.ofInt k).toInt = k := by
        apply Int64.toInt_ofInt_of_le hsurvives.1
        exact Int.lt_of_le_of_lt hsurvives.2 (by decide)
      rw [if_pos hsurvives]
      rw [if_pos (show Int64.minValue.toInt ≤ k ∧ k ≤ Int64.maxValue.toInt from hsurvives), toJson,
        hround]
    · rw [if_neg hsurvives]
      rw [if_neg (show ¬ (Int64.minValue.toInt ≤ k ∧ k ≤ Int64.maxValue.toInt) from hsurvives),
        toJson]
  | float x => rw [ofNumber, toJson, JsonNumber.narrow]

/-! ## Documents -/

namespace Json

mutual

def numbers : Json → List JsonNumber
  | .number n => [n]
  | .array items => itemNumbers items
  | .object members => memberNumbers members
  | _ => []

def itemNumbers : List Json → List JsonNumber
  | [] => []
  | j :: rest => numbers j ++ itemNumbers rest

def memberNumbers : List (String × Json) → List JsonNumber
  | [] => []
  | (_, j) :: rest => numbers j ++ memberNumbers rest

end

mutual

/-- A document as an argument can hold it. -/
def narrow : Json → Json
  | .number n => n.narrow
  | .array items => .array (narrowItems items)
  | .object members => .object (narrowMembers members)
  | j => j

def narrowItems : List Json → List Json
  | [] => []
  | j :: rest => narrow j :: narrowItems rest

def narrowMembers : List (String × Json) → List (String × Json)
  | [] => []
  | (n, j) :: rest => (n, narrow j) :: narrowMembers rest

end

mutual

/-- A document stays as it is exactly when all its numbers survive. -/
theorem narrow_eq_self_iff : ∀ j : Json, narrow j = j ↔ ∀ n ∈ numbers j, n.Survives
  | .null | .bool _ | .string _ => by simp [narrow, numbers]
  | .number n => by
    rw [narrow, numbers, List.forall_mem_singleton, JsonNumber.narrow_eq_iff]
  | .array items => by
    rw [narrow, numbers, Json.array.injEq, narrowItems_eq_self_iff items]
  | .object members => by
    rw [narrow, numbers, Json.object.injEq, narrowMembers_eq_self_iff members]

theorem narrowItems_eq_self_iff :
    ∀ js : List Json, narrowItems js = js ↔ ∀ n ∈ itemNumbers js, n.Survives
  | [] => by simp [narrowItems, itemNumbers]
  | j :: rest => by
    rw [narrowItems, itemNumbers, List.cons.injEq, List.forall_mem_append, narrow_eq_self_iff j,
      narrowItems_eq_self_iff rest]

theorem narrowMembers_eq_self_iff :
    ∀ ms : List (String × Json), narrowMembers ms = ms ↔ ∀ n ∈ memberNumbers ms, n.Survives
  | [] => by simp [narrowMembers, memberNumbers]
  | (name, j) :: rest => by
    rw [narrowMembers, memberNumbers, List.cons.injEq, List.forall_mem_append, Prod.mk.injEq,
      narrow_eq_self_iff j, narrowMembers_eq_self_iff rest]
    simp

end

/-! ## Members in order -/

theorem insertMember_narrow (name : String) (j : Json) (ms : List (String × Json)) :
    insertMember name (narrow j) (narrowMembers ms) = narrowMembers (insertMember name j ms) := by
  induction ms with
  | nil => rfl
  | cons m ms ih =>
    obtain ⟨n, k⟩ := m
    rw [narrowMembers, insertMember, insertMember]
    by_cases hlt : name < n
    · rw [if_pos hlt, if_pos hlt]
      rfl
    · by_cases heq : name = n
      · rw [if_neg hlt, if_neg hlt, if_pos heq, if_pos heq]
        rfl
      · rw [if_neg hlt, if_neg hlt, if_neg heq, if_neg heq, ih]
        rfl

theorem sortMembers_narrow (ms : List (String × Json)) :
    sortMembers (narrowMembers ms) = narrowMembers (sortMembers ms) := by
  have hfold (acc : List (String × Json)) :
      (narrowMembers ms).foldl (fun acc m => insertMember m.1 m.2 acc) (narrowMembers acc)
        = narrowMembers (ms.foldl (fun acc m => insertMember m.1 m.2 acc) acc) := by
    induction ms generalizing acc with
    | nil => rfl
    | cons m ms ih =>
      rw [narrowMembers, List.foldl_cons, List.foldl_cons, insertMember_narrow, ih]
  exact hfold []

end Json

/-! ## There and back -/

namespace Argument

open Json

mutual

/-- **A document comes back in normal form and narrowed.** -/
theorem toJson_ofJson (parameter : String) :
    ∀ j : Json, (ofJson j).toJson parameter = .ok j.normal.narrow
  | .null | .bool _ | .string _ => rfl
  | .number n => by
    rw [ofJson, toJson_ofNumber]
    rfl
  | .array items => by
    rw [ofJson, toJson, toItems_ofItems parameter items]
    rfl
  | .object members => by
    rw [ofJson, toJson, toMembers_ofMembers parameter members, normal, Json.narrow,
      ← sortMembers_narrow]
    rfl

theorem toItems_ofItems (parameter : String) :
    ∀ js : List Json, toItems parameter (ofItems js) = .ok (narrowItems (normalItems js))
  | [] => rfl
  | j :: rest => by
    rw [ofItems, toItems, toJson_ofJson parameter j, toItems_ofItems parameter rest]
    rfl

theorem toMembers_ofMembers (parameter : String) :
    ∀ ms : List (String × Json),
      toMembers parameter (ofMembers ms) = .ok (narrowMembers (normalMembers ms))
  | [] => rfl
  | (n, j) :: rest => by
    rw [ofMembers, toMembers, toJson_ofJson parameter j, toMembers_ofMembers parameter rest]
    rfl

end

theorem value_insert (args : Arguments) (name : String) (a : Argument) :
    (args.insert name a).value name = a := by
  simp [Arguments.insert, Arguments.value, Arguments.get?]

/-- **A document that is passed as an argument survives exactly when its numbers do**: then it
comes back in its normal form, and this is what a converter is given. -/
theorem toJson_ofJson_eq_iff (parameter : String) (j : Json) :
    ((ofJson j).toJson parameter = .ok j.normal ↔ ∀ n ∈ j.normal.numbers, n.Survives) ∧
      ((∀ n ∈ j.normal.numbers, n.Survives) →
        ∀ (args : Arguments) (converters : List Converter) (contentType : String),
          convert converters parameter contentType
              ((args.insert parameter (ofJson j)).value parameter)
            = (Converter.writer? converters contentType).elim (.error (.noWriter contentType))
                fun w => (w.write j.normal contentType).mapError .conversion) := by
  have hback := toJson_ofJson parameter j
  have hnarrow := narrow_eq_self_iff j.normal
  constructor
  · rw [hback, Except.ok.injEq, hnarrow]
  · intro hsurvive args converters contentType
    rw [hnarrow.mpr hsurvive] at hback
    rw [value_insert, convert, hback]
    cases Converter.writer? converters contentType with
    | none => rfl
    | some w => rfl

/-- The largest and the least whole number that survive, and a double, in an object whose members
stand in the wrong order. -/
theorem toJson_ofJson_eq_iff_extremes :
    let j : Json := .object [("b", .array [.whole 9223372036854775807, .whole (-9223372036854775808)]),
      ("a", .number (.float ⟨0x3FE0000000000000⟩))]
    (ofJson j).toJson "user" = .ok j.normal ∧
      convert Converter.defaults "user" "application/json"
          ((Arguments.empty.insert "user" (ofJson j)).value "user")
        = .ok (Utf8.encode
            "\x7b\"a\":0.5,\"b\":[9223372036854775807,-9223372036854775808]\x7d".toList) := by
  intro j
  have hsurvive : ∀ n ∈ j.normal.numbers, n.Survives := by decide +kernel
  have hiff := toJson_ofJson_eq_iff "user" j
  refine ⟨hiff.1.mpr hsurvive, (hiff.2 hsurvive _ _ _).trans ?_⟩
  decide +kernel

/-- The largest whole number of 64 bits without a sign comes back as a double. -/
theorem toJson_ofJson_changes :
    (Json.whole 18446744073709551615).normal = .whole 18446744073709551615 ∧
      (ofJson (.whole 18446744073709551615)).toJson "user"
        = .ok (.number (.float ⟨0x43F0000000000000⟩)) ∧
      (ofJson (.whole 18446744073709551615)).toJson "user" ≠ .ok (.whole 18446744073709551615) := by
  have hback : (ofJson (.whole 18446744073709551615)).toJson "user"
      = .ok (.number (.float ⟨0x43F0000000000000⟩)) := by
    have hround : Binary64.ofRatio false 18446744073709551615 1 = ⟨0x43F0000000000000⟩ := by
      decide +kernel
    have hfinite : (⟨0x43F0000000000000⟩ : Binary64).isFinite = true := by decide +kernel
    rw [toJson_ofJson]
    show Except.ok (JsonNumber.whole 18446744073709551615).narrow = _
    rw [JsonNumber.narrow, if_neg (by decide)]
    show Except.ok (Json.float (Binary64.ofRatio false 18446744073709551615 1)) = _
    rw [hround, Json.float, if_pos hfinite]
  refine ⟨rfl, hback, ?_⟩
  rw [hback]
  rintro ⟨⟩

end Argument

end HttpService
