import HttpService.Body.ByteSource
import Mathlib.Data.List.Basic

/-!
# Copying a source of bytes

What a copy takes of the chunks and what it leaves depend on their bytes alone (`takeBytes_fst`,
`flatten_takeBytes_snd`), so the outcome of a copy under a declared length is read off the content,
its length and the fault at its end (`copy_of_declared`).  The results about lengths, what was
written and when a copy succeeds are cases of it (`copy_accounts`).
-/

namespace HttpService.ByteSource

theorem takeBytes_fst (limit : Nat) (chunks : List Bytes) :
    (takeBytes limit chunks).1 = chunks.flatten.take limit := by
  induction chunks generalizing limit with
  | nil => simp [takeBytes]
  | cons c rest ih =>
    rw [takeBytes, List.flatten_cons, List.take_append]
    split
    · next h => simp [h]
    · split
      · next hle =>
        rw [← ih, List.take_of_length_le hle]
      · next hgt =>
        rw [Nat.sub_eq_zero_of_le (by omega), List.take_zero, List.append_nil]

theorem flatten_takeBytes_snd (limit : Nat) (chunks : List Bytes) :
    (takeBytes limit chunks).2.flatten = chunks.flatten.drop limit := by
  induction chunks generalizing limit with
  | nil => simp [takeBytes]
  | cons c rest ih =>
    rw [takeBytes, List.flatten_cons, List.drop_append]
    split
    · next h => simp [h]
    · split
      · next hle => rw [ih, List.drop_of_length_le hle, List.nil_append]
      · next hgt =>
        rw [Nat.sub_eq_zero_of_le (by omega), List.drop_zero, List.flatten_cons]

theorem ne_nil_of_mem_takeBytes_snd (limit : Nat) {chunks : List Bytes}
    (h : ∀ c ∈ chunks, c ≠ []) : ∀ c ∈ (takeBytes limit chunks).2, c ≠ [] := by
  induction chunks generalizing limit with
  | nil => exact h
  | cons c rest ih =>
    have hrest : ∀ d ∈ rest, d ≠ [] := fun d hd => h d (List.mem_cons_of_mem c hd)
    rw [takeBytes]
    split
    · exact h
    · split
      · exact ih (limit - c.length) hrest
      · next hgt =>
        refine List.forall_mem_cons.mpr ⟨?_, hrest⟩
        rw [ne_eq, List.drop_eq_nil_iff]
        exact hgt

theorem takeBytes_snd_eq_nil_iff (limit : Nat) (chunks : Chunks) :
    (takeBytes limit chunks.toList).2 = [] ↔ chunks.toList.flatten.length ≤ limit := by
  rw [← List.drop_eq_nil_iff, ← flatten_takeBytes_snd, List.flatten_eq_nil_iff]
  constructor
  · intro hnil
    rw [hnil]
    exact List.forall_mem_nil _
  · intro hempty
    refine List.eq_nil_iff_forall_not_mem.mpr fun c hc => ?_
    exact ne_nil_of_mem_takeBytes_snd limit chunks.ne_nil c hc (hempty c hc)

/-! ## Outcomes -/

/-- The outcome of reading a source to its end, when that many bytes were copied. -/
def ending (s : ByteSource) (copied : Nat) : Except IoFault Nat :=
  match s.fault with
  | none => .ok copied
  | some e => .error e

theorem copy_of_undeclared {s : ByteSource} (h : s.length = none) :
    s.copy = ⟨s.content, s.ending s.content.length⟩ := by
  unfold copy
  rw [h]
  rfl

/-- **A copy under a declared length depends on the bytes of the source alone**, not on how they
are cut into chunks: it compares their number with the one that is declared. -/
theorem copy_of_declared {s : ByteSource} {declared : UInt64} (h : s.length = some declared) :
    s.copy =
      if s.content.length < declared.toNat then
        ⟨s.content, .error (s.fault.getD (endedEarly s.content.length declared.toNat))⟩
      else if declared.toNat < s.content.length then
        ⟨s.content.take declared.toNat, .error (tooLong declared.toNat)⟩
      else ⟨s.content, s.ending declared.toNat⟩ := by
  generalize hn : declared.toNat = n
  have htaken : (takeBytes n s.chunks.toList).1 = s.content.take n :=
    takeBytes_fst n s.chunks.toList
  have hleft : (takeBytes n s.chunks.toList).2 = [] ↔ s.content.length ≤ n :=
    takeBytes_snd_eq_nil_iff n s.chunks
  unfold copy
  rw [h]
  simp only [hn, htaken, List.length_take]
  by_cases hshort : s.content.length < n
  · rw [if_pos (by omega), if_pos hshort, List.take_of_length_le (Nat.le_of_lt hshort),
      Nat.min_eq_right (Nat.le_of_lt hshort)]
  rw [if_neg (by omega), if_neg hshort]
  by_cases hlong : n < s.content.length
  · rw [if_pos hlong]
    cases hsome : (takeBytes n s.chunks.toList).2 with
    | nil => exact absurd (hleft.mp hsome) (Nat.not_le.mpr hlong)
    | cons c rest => rfl
  · rw [if_neg hlong, hleft.mpr (Nat.not_lt.mp hlong),
      List.take_of_length_le (Nat.not_lt.mp hlong)]
    unfold ending
    cases s.fault <;> rfl

theorem written_copy {s : ByteSource} {declared : UInt64} (h : s.length = some declared) :
    s.copy.written = s.content.take declared.toNat := by
  rw [copy_of_declared h]
  split
  · next hshort => exact (List.take_of_length_le (Nat.le_of_lt hshort)).symm
  · split
    · rfl
    · next hlong => exact (List.take_of_length_le (Nat.not_lt.mp hlong)).symm

/-- A copy succeeds exactly when the source ends without a fault after the declared number of
bytes. -/
theorem copy_ok_iff {s : ByteSource} {declared : UInt64} (h : s.length = some declared) {n : Nat} :
    s.copy.result = .ok n ↔
      s.fault = none ∧ s.content.length = declared.toNat ∧ n = declared.toNat := by
  rw [copy_of_declared h]
  split
  · next hshort => simp [Nat.ne_of_lt hshort]
  · split
    · next hlong => simp [Nat.ne_of_gt hlong]
    · next hshort hlong =>
      have hlength : s.content.length = declared.toNat :=
        Nat.le_antisymm (Nat.not_lt.mp hlong) (Nat.not_lt.mp hshort)
      unfold ending
      cases s.fault <;> simp [hlength, eq_comm]

theorem length_copy_of_ok {s : ByteSource} {declared : UInt64} (h : s.length = some declared)
    {n : Nat} (hok : s.copy.result = .ok n) : s.copy.written.length = declared.toNat := by
  obtain ⟨-, hlength, -⟩ := (copy_ok_iff h).mp hok
  rw [written_copy h, List.length_take, hlength, Nat.min_self]

/-- A source without a fault, whose length is declared rightly if at all, is copied whole. -/
theorem copy_eq {s : ByteSource} (hfault : s.fault = none)
    (hlength : ∀ n ∈ s.length, n.toNat = s.content.length) :
    s.copy = ⟨s.content, .ok s.content.length⟩ := by
  have hending : s.ending s.content.length = .ok s.content.length := by rw [ending, hfault]
  cases hdeclared : s.length with
  | none => rw [copy_of_undeclared hdeclared, hending]
  | some n =>
    rw [copy_of_declared hdeclared, hlength n hdeclared, if_neg (Nat.lt_irrefl _),
      if_neg (Nat.lt_irrefl _), hending]

/-- **A copy is exact about the length.**  Without a declared length the whole source is written.
With one, a copy succeeds exactly when the source ends without a fault after that many bytes, and
then it has written all of them.  A source that goes on fails after exactly the declared bytes; one
that ends before, or with a fault where it should end, fails after all its bytes, and a fault of its
own comes before a complaint about the length. -/
theorem copy_accounts (s : ByteSource) :
    (s.length = none → s.copy = ⟨s.content, s.ending s.content.length⟩) ∧
      ∀ declared : UInt64, s.length = some declared →
        let n := declared.toNat
        let c := s.content
        (∀ k, s.copy.result = .ok k ↔ s.fault = none ∧ c.length = n ∧ k = n) ∧
          (∀ k, s.copy.result = .ok k → s.copy.written = c) ∧
          (n < c.length → s.copy = ⟨c.take n,
            .error (.invalidData s!"stream is longer than its declared {n} bytes")⟩) ∧
          (c.length < n → s.copy = ⟨c, .error (s.fault.getD
            (.invalidData s!"stream ended after {c.length} of {n} declared bytes"))⟩) ∧
          ∀ e, c.length = n → s.fault = some e → s.copy = ⟨c, .error e⟩ := by
  refine ⟨copy_of_undeclared, fun declared h => ⟨fun k => copy_ok_iff h, fun k hok => ?_,
    fun hlong => ?_, fun hshort => ?_, fun e hlength hfault => ?_⟩⟩
  · obtain ⟨-, hlength, -⟩ := (copy_ok_iff h).mp hok
    rw [written_copy h, ← hlength, List.take_length]
  · rw [copy_of_declared h, if_neg (Nat.not_lt_of_gt hlong), if_pos hlong]
    rfl
  · rw [copy_of_declared h, if_pos hshort]
    rfl
  · have hshort : ¬ s.content.length < declared.toNat := by omega
    have hlong : ¬ declared.toNat < s.content.length := by omega
    rw [copy_of_declared h, if_neg hshort, if_neg hlong, ending, hfault]

/-- A source that fails where it should end, and one that goes on though it is declared empty. -/
theorem copy_accounts_failing :
    let late : ByteSource := ⟨⟨[[1], [2, 3]], by decide⟩, some (.other "gone"), some 3⟩
    let long : ByteSource := ⟨⟨[[7]], by decide⟩, none, some 0⟩
    late.copy = ⟨[1, 2, 3], .error (.other "gone")⟩ ∧
      long.copy = ⟨[], .error (.invalidData "stream is longer than its declared 0 bytes")⟩ := by
  intro late long
  obtain ⟨-, -, -, -, hfails⟩ := (copy_accounts late).2 3 rfl
  obtain ⟨-, -, hlong, -⟩ := (copy_accounts long).2 0 rfl
  exact ⟨hfails (.other "gone") rfl rfl, hlong (by decide)⟩

end HttpService.ByteSource
