import HttpService.Url.DomainName

/-!
# Plain domain names

The mapping of domain names that has no tables: it refuses every name that would need them.
-/

namespace HttpService.Host

theorem isNameChar_toLower :
    ∀ n < 0x80, isForbidden (Char.ofNat n) = false → isNameChar (Char.ofNat n).toLower = true := by
  decide +kernel

theorem isNameChar_of_lowerName? {cs name : List Char} (hplain : isPlainName cs = true)
    (h : lowerName? cs = some name) : ∀ c ∈ name, isNameChar c = true := by
  have hascii := List.all_eq_true.mp (Bool.and_eq_true_iff.mp hplain).1
  unfold lowerName? at h
  split at h
  · cases h
  · next hany =>
    obtain rfl := Option.some.inj h
    intro d hd
    obtain ⟨c, hc, rfl⟩ := List.mem_map.mp hd
    have hforbidden : isForbidden c = false := by
      rw [Bool.eq_false_iff]
      exact fun hc' => hany (List.any_eq_true.mpr ⟨c, hc, hc'⟩)
    have hlower := isNameChar_toLower c.toNat (of_decide_eq_true (hascii c hc))
    rw [Char.ofNat_toNat] at hlower
    exact hlower hforbidden

/-- Small letters make a name no less plain. -/
theorem isPlainName_of_lowerName? {cs name : List Char} (hplain : isPlainName cs = true)
    (h : lowerName? cs = some name) : isPlainName name = true := by
  have hname := isNameChar_of_lowerName? hplain h
  have hlabels := (Bool.and_eq_true_iff.mp hplain).2
  obtain rfl : cs.map Char.toLower = name := by
    unfold lowerName? at h
    split at h
    · cases h
    · exact Option.some.inj h
  rw [isPlainName, map_toLower_eq_self hname, hlabels, Bool.and_true, List.all_eq_true]
  intro c hc
  have hc := hname c hc
  simp only [isNameChar, Bool.and_eq_true] at hc
  exact hc.1.1

/-- Small letters for plain names, and nothing for others. -/
instance : DomainNames where
  toAscii? cs := if isPlainName cs then lowerName? cs else none
  isNameChar_of_toAscii? h := by
    obtain ⟨hplain, h⟩ := Option.ite_none_right_eq_some.mp h
    exact isNameChar_of_lowerName? hplain h
  toAscii?_again h := by
    obtain ⟨hplain, h⟩ := Option.ite_none_right_eq_some.mp h
    rw [if_pos (isPlainName_of_lowerName? hplain h)]
    exact lowerName?_eq_self (isNameChar_of_lowerName? hplain h)
  toAscii?_plain hplain := if_pos hplain

end HttpService.Host
