import StagingMemory.Proofs.Sizes
/-!
Sizes in normal form: fewer than 1024 of any unit that has a larger one, and at least one of any
unit above the byte. The unit is chosen before its number is rounded, so rounding can carry the
number up to 1024 after the larger unit was passed over. Nothing else keeps a size from normal form,
and the sizes that carry are those that lack no more than half a hundredth of their unit. Main
statement: `render_normal_iff`.
-/
namespace StagingMemory.Size

/-- Fewer than 1024 of any unit that has a larger one, and at least one of any above the byte. -/
structure Amount.Normal (a : Amount) : Prop where
  number_lt : a.unit ≠ 2 ^ 40 → a.number < 1024
  one_le_number : a.unit ≠ 1 → 1 ≤ a.number

/-- Below 1024 of a unit that has a larger one, by no more than half a hundredth of it. -/
def Carries (n : ℕ) : Prop :=
  ∃ unit ∈ [2 ^ 10, 2 ^ 20, 2 ^ 30], n < 1024 * unit ∧ 1024 * unit ≤ n + unit / 200

instance (n : ℕ) : Decidable (Carries n) :=
  inferInstanceAs (Decidable
    (∃ unit ∈ [2 ^ 10, 2 ^ 20, 2 ^ 30], n < 1024 * unit ∧ 1024 * unit ≤ n + unit / 200))

/-! ### Below the largest unit -/

theorem unitBytes_eq_ite (n : ℕ) : unitBytes n =
    if n < 2 ^ 10 then 1 else if n < 2 ^ 20 then 2 ^ 10 else if n < 2 ^ 30 then 2 ^ 20
    else if n < 2 ^ 40 then 2 ^ 30 else 2 ^ 40 := by
  simp only [unitBytes, Scale.fitting, apply_ite Scale.bytes]
  rfl

theorem unitBytes_ne_iff {n : ℕ} : unitBytes n ≠ 2 ^ 40 ↔ n < 2 ^ 40 := by
  rw [unitBytes_eq_ite]
  split_ifs <;> omega

theorem lt_mul_unitBytes {n : ℕ} (h : n < 2 ^ 40) : n < 1024 * unitBytes n := by
  rw [unitBytes_eq_ite]
  split_ifs <;> omega

theorem unitBytes_mem {n : ℕ} (hle : 1024 ≤ n) (hlt : n < 2 ^ 40) :
    unitBytes n ∈ [2 ^ 10, 2 ^ 20, 2 ^ 30] := by
  have hne := unitBytes_ne_iff.mpr hlt
  have hmem := (isGreatest_unitBytes hle).1.1
  simp only [Set.mem_insert_iff, Set.mem_singleton_iff, hne, or_false] at hmem
  simpa using hmem

/-- Each unit is used up to the next. -/
theorem unitBytes_eq {n unit : ℕ} (hunit : unit ∈ [2 ^ 10, 2 ^ 20, 2 ^ 30]) (hle : unit ≤ n)
    (hlt : n < 1024 * unit) : unitBytes n = unit := by
  simp only [List.mem_cons, List.not_mem_nil, or_false] at hunit
  rw [unitBytes_eq_ite]
  rcases hunit with rfl | rfl | rfl <;> split_ifs <;> omega

/-! ### Carrying -/

/-- The next unit is a whole number of these, which rounding does not pass. -/
theorem writtenHundredths_le {n : ℕ} (h : n < 2 ^ 40) : writtenHundredths n ≤ 102400 := by
  have hlt := lt_mul_unitBytes h
  rw [writtenHundredths, roundToBinary_of_le (by omega)]
  exact roundDiv_le_of_le_mul (unitBytes_pos n) (by omega)

/-- Sizes are whole, so half a hundredth of the unit counts by its whole bytes. -/
theorem le_writtenHundredths_iff {n : ℕ} (h : n < 2 ^ 40) :
    102400 ≤ writtenHundredths n ↔ 1024 * unitBytes n ≤ n + unitBytes n / 200 := by
  rw [writtenHundredths, roundToBinary_of_le (by omega),
    le_roundDiv_iff_of_even (unitBytes_pos n) (by decide)]
  omega

theorem carries_iff {n : ℕ} : Carries n ↔ n < 2 ^ 40 ∧ 102400 ≤ writtenHundredths n := by
  constructor
  · rintro ⟨unit, hunit, hlt, hle⟩
    have hn : n < 2 ^ 40 := by
      simp only [List.mem_cons, List.not_mem_nil, or_false] at hunit
      omega
    have heq := unitBytes_eq hunit (by omega) hlt
    exact ⟨hn, (le_writtenHundredths_iff hn).mpr (heq ▸ hle)⟩
  · rintro ⟨hlt, hwritten⟩
    have hle : 1024 ≤ n := by
      by_contra hn
      rw [writtenHundredths_of_lt (Nat.not_le.mp hn)] at hwritten
      omega
    exact ⟨unitBytes n, unitBytes_mem hle hlt, lt_mul_unitBytes hlt,
      (le_writtenHundredths_iff hlt).mp hwritten⟩

/-! ### What is read -/

def told (n : ℕ) : Amount := ⟨(writtenHundredths n : ℚ) / 100, unitBytes n⟩

theorem number_told_lt_iff (n : ℕ) : (told n).number < 1024 ↔ writtenHundredths n < 102400 := by
  rw [told, div_lt_iff₀ (by norm_num)]
  norm_cast

theorem one_le_number_told {n : ℕ} (h : (told n).unit ≠ 1) : 1 ≤ (told n).number := by
  have hn : 1024 ≤ n := Nat.not_lt.mp fun hlt => h (unitBytes_of_lt hlt)
  have hwritten : (100 : ℚ) ≤ writtenHundredths n := by
    exact_mod_cast hundred_le_writtenHundredths (isGreatest_unitBytes hn).1.2
  rw [told, le_div_iff₀ (by norm_num)]
  linarith

theorem number_told_le {n : ℕ} (h : (told n).unit ≠ 2 ^ 40) : (told n).number ≤ 1024 := by
  have hwritten : (writtenHundredths n : ℚ) ≤ 102400 := by
    exact_mod_cast writtenHundredths_le (unitBytes_ne_iff.mp h)
  rw [told, div_le_iff₀ (by norm_num)]
  linarith

theorem told_normal_iff (n : ℕ) : (told n).Normal ↔ ¬Carries n := by
  rw [carries_iff]
  constructor
  · rintro hnormal ⟨hlt, hwritten⟩
    have hnumber := hnormal.number_lt (unitBytes_ne_iff.mpr hlt)
    exact Nat.not_lt.mpr hwritten ((number_told_lt_iff n).mp hnumber)
  · intro hcarries
    refine ⟨fun hunit => (number_told_lt_iff n).mpr ?_, one_le_number_told⟩
    exact Nat.not_le.mp fun hwritten => hcarries ⟨unitBytes_ne_iff.mp hunit, hwritten⟩

/-- **Normal form.** The text of a size is in normal form unless the size carries, and then it is
1024 of the smaller unit and no more. -/
theorem render_normal_iff (n : UInt64) : ∃ a, read? (render n) = some a ∧
    (a.Normal ↔ ¬Carries n.toNat) ∧ (a.unit ≠ 1 → 1 ≤ a.number) ∧
    (a.unit ≠ 2 ^ 40 → a.number ≤ 1024) :=
  ⟨told n.toNat, read?_render n, told_normal_iff n.toNat, one_le_number_told, number_told_le⟩

/-- One byte less than a mebibyte is not written in normal form. -/
theorem render_carried : render 1048575 = "1024.00 KiB" ∧
    ∃ a, read? (render 1048575) = some a ∧ ¬a.Normal := by
  have hcarries : Carries (1048575 : UInt64).toNat := by decide
  exact ⟨by decide +kernel, told _, read?_render _, fun h => (told_normal_iff _).mp h hcarries⟩

end StagingMemory.Size
