import SmtSession.Text.Digit

/-!
# Texts of digit characters

**What a number is written as has digit characters only**, unless the number is negative.
-/

namespace SmtSession.Text

/-- The ten ASCII digits are digit characters. -/
theorem isDigitChar_of_isDigit {c : Char} (is : c.isDigit = true) : isDigitChar c = true := by
  have range : 0x30 ≤ c.toNat ∧ c.toNat ≤ 0x39 := by
    simpa [Char.isDigit, UInt32.le_iff_toNat_le] using is
  simp [isDigitChar, digitRanges, range]

theorem isDigits_iff {s : String} :
    isDigits s = true ↔ s.toList ≠ [] ∧ ∀ c ∈ s.toList, isDigitChar c = true := by
  simp [isDigits]

theorem not_isDigits_of_mem {s : String} {c : Char} (is : c ∈ s.toList)
    (other : isDigitChar c = false) : ¬ isDigits s = true := by
  intro digits
  rw [(isDigits_iff.mp digits).2 c is] at other
  cases other

theorem isDigits_repr (n : Nat) : isDigits (Nat.repr n) = true := by
  rw [isDigits_iff, Nat.toList_repr]
  refine ⟨Nat.toDigits_ne_nil, fun c is => isDigitChar_of_isDigit ?_⟩
  exact Nat.isDigit_of_mem_toDigits (by decide) (by decide) is

/-- **An integer is written in digit characters exactly if it is not negative.** -/
theorem isDigits_toString (n : Int) : isDigits (toString n) = true ↔ 0 ≤ n := by
  cases n with
  | ofNat n => exact iff_of_true (isDigits_repr n) (Int.natCast_nonneg n)
  | negSucc n =>
    have sign : '-' ∈ (toString (Int.negSucc n)).toList := by
      simp [toString, Int.repr]
    exact iff_of_false (not_isDigits_of_mem sign (by decide)) (by omega)

end SmtSession.Text
