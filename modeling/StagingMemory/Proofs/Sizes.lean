import Mathlib.Algebra.Order.Field.Basic
import Mathlib.Algebra.Order.Ring.Rat
import Mathlib.Data.List.TakeWhile
import Mathlib.Order.Bounds.Basic
import Mathlib.Tactic.FieldSimp
import Mathlib.Tactic.Linarith
import Mathlib.Tactic.NormNum
import Mathlib.Tactic.Ring
import StagingMemory.Size
/-!
Reading the text of a size back. A text is read as a decimal number of units. What is read from the
text of a size is near the size, and larger sizes are not read as smaller ones, although each number
is rounded twice: to 53 binary digits, and then to two places of a unit that was chosen before. The
order is kept across units because neither rounding passes a multiple of what it rounds to, and the
next unit is one. Main statement: `render_exact`.
-/
namespace StagingMemory.Size

/-! ### Reading a text -/

/-- So many units of so many bytes. -/
structure Amount where
  number : ℚ
  unit : ℕ

def Amount.bytes (a : Amount) : ℚ := a.number * a.unit

def digits? (chars : List Char) : Option ℕ :=
  if chars ≠ [] ∧ chars.all Char.isDigit then some (Nat.ofDigitChars 10 chars 0) else none

def decimal? (chars : List Char) : Option ℚ :=
  match chars.dropWhile (· ≠ '.') with
  | [] => (digits? chars).map fun whole => (whole : ℚ)
  | _ :: places => do
    let whole ← digits? (chars.takeWhile (· ≠ '.'))
    let part ← digits? places
    return whole + part / 10 ^ places.length

def unit? (symbol : String) : Option ℕ :=
  [("B", 1), ("KiB", 2 ^ 10), ("MiB", 2 ^ 20), ("GiB", 2 ^ 30), ("TiB", 2 ^ 40)].lookup symbol

def read? (text : String) : Option Amount :=
  match text.toList.dropWhile (· ≠ ' ') with
  | [] => none
  | _ :: symbol => do
    let number ← decimal? (text.toList.takeWhile (· ≠ ' '))
    let unit ← unit? (String.ofList symbol)
    return ⟨number, unit⟩

theorem dropWhile_append_cons {front back : List Char} {c : Char} (h : c ∉ front) :
    (front ++ c :: back).dropWhile (· ≠ c) = c :: back := by
  have hfront : ∀ d ∈ front, decide (d ≠ c) = true := fun d hd =>
    decide_eq_true fun heq => h (heq ▸ hd)
  rw [List.dropWhile_append_of_pos hfront, List.dropWhile_cons_of_neg (by simp)]

theorem takeWhile_append_cons {front back : List Char} {c : Char} (h : c ∉ front) :
    (front ++ c :: back).takeWhile (· ≠ c) = front := by
  have hfront : ∀ d ∈ front, decide (d ≠ c) = true := fun d hd =>
    decide_eq_true fun heq => h (heq ▸ hd)
  rw [List.takeWhile_append_of_pos hfront, List.takeWhile_cons_of_neg (by simp), List.append_nil]

theorem read?_append {number symbol : String} {x : ℚ} {unit : ℕ} (hspace : ' ' ∉ number.toList)
    (hnumber : decimal? number.toList = some x) (hsymbol : unit? symbol = some unit) :
    read? (number ++ " " ++ symbol) = some ⟨x, unit⟩ := by
  have htext : (number ++ " " ++ symbol).toList = number.toList ++ ' ' :: symbol.toList := by
    simp [String.toList_append]
  unfold read?
  rw [htext, dropWhile_append_cons hspace, takeWhile_append_cons hspace]
  simp [hnumber, hsymbol]

/-! ### Digits -/

theorem not_mem_toDigits {c : Char} (h : c.isDigit = false) (n : ℕ) : c ∉ Nat.toDigits 10 n := by
  intro hc
  have hdigit := Nat.isDigit_of_mem_toDigits (by decide) (Nat.le_refl 10) hc
  rw [h] at hdigit
  cases hdigit

theorem digits?_toDigits (n : ℕ) : digits? (Nat.toDigits 10 n) = some n := by
  have hall : (Nat.toDigits 10 n).all Char.isDigit = true := List.all_eq_true.mpr fun c hc =>
    Nat.isDigit_of_mem_toDigits (by decide) (Nat.le_refl 10) hc
  rw [digits?, if_pos ⟨Nat.toDigits_ne_nil, hall⟩,
    Nat.ofDigitChars_toDigits (by decide) (Nat.le_refl 10)]

theorem digits?_pair : ∀ a < 10, ∀ b < 10,
    digits? [Nat.digitChar a, Nat.digitChar b] = some (10 * a + b) := by
  decide

theorem decimal?_toDigits (n : ℕ) : decimal? (Nat.toDigits 10 n) = some (n : ℚ) := by
  have hpoint : (Nat.toDigits 10 n).dropWhile (· ≠ '.') = [] := by
    rw [List.dropWhile_eq_nil_iff]
    intro c hc
    refine decide_eq_true fun heq => ?_
    exact not_mem_toDigits (by decide) n (heq ▸ hc)
  rw [decimal?, hpoint, digits?_toDigits]
  rfl

theorem toList_renderHundredths (h : ℕ) : (renderHundredths h).toList =
    Nat.toDigits 10 (h / 100) ++ '.' :: [(h / 10 % 10).digitChar, (h % 10).digitChar] := by
  have htenths : Nat.toDigits 10 (h / 10 % 10) = [(h / 10 % 10).digitChar] :=
    Nat.toDigits_of_lt_base (Nat.mod_lt _ (by decide))
  have hunits : Nat.toDigits 10 (h % 10) = [(h % 10).digitChar] :=
    Nat.toDigits_of_lt_base (Nat.mod_lt _ (by decide))
  simp [renderHundredths, String.toList_append, htenths, hunits]

theorem space_not_mem_renderHundredths (h : ℕ) : ' ' ∉ (renderHundredths h).toList := by
  have hdigit : ∀ d < 10, ' ' ≠ Nat.digitChar d := by decide
  rw [toList_renderHundredths]
  simp [not_mem_toDigits, hdigit, Nat.mod_lt]

/-- Hundredths are written without loss. -/
theorem decimal?_renderHundredths (h : ℕ) :
    decimal? (renderHundredths h).toList = some ((h : ℚ) / 100) := by
  have hpoint : '.' ∉ Nat.toDigits 10 (h / 100) := not_mem_toDigits (by decide) _
  have hplaces := digits?_pair _ (Nat.mod_lt (h / 10) (by decide)) _ (Nat.mod_lt h (by decide))
  have hsplit : h = 100 * (h / 100) + (10 * (h / 10 % 10) + h % 10) := by omega
  have hcast : (h : ℚ) = 100 * (h / 100 : ℕ) + (10 * (h / 10 % 10) + h % 10 : ℕ) := by
    exact_mod_cast hsplit
  rw [toList_renderHundredths, decimal?, dropWhile_append_cons hpoint, takeWhile_append_cons hpoint]
  simp only [digits?_toDigits, hplaces, Option.bind_eq_bind, Option.bind_some, Option.pure_def,
    Option.some.injEq, List.length_cons, List.length_nil]
  rw [hcast]
  ring

/-! ### What is written of a size -/

def unitBytes (n : ℕ) : ℕ := if n < 1024 then 1 else (Scale.fitting n).bytes

/-- How many hundredths of their unit are written for `n` bytes. -/
def writtenHundredths (n : ℕ) : ℕ :=
  roundDiv (100 * roundToBinary significantDigits n) (unitBytes n)

theorem unitBytes_of_lt {n : ℕ} (h : n < 1024) : unitBytes n = 1 := if_pos h

theorem unitBytes_of_le {n : ℕ} (h : 1024 ≤ n) : unitBytes n = (Scale.fitting n).bytes :=
  if_neg (Nat.not_lt.mpr h)

theorem unitBytes_eq_pow (n : ℕ) : ∃ k ≤ 40, unitBytes n = 2 ^ k := by
  unfold unitBytes
  split
  · exact ⟨0, by decide, rfl⟩
  · cases Scale.fitting n with
    | kibi => exact ⟨10, by decide, rfl⟩
    | mebi => exact ⟨20, by decide, rfl⟩
    | gibi => exact ⟨30, by decide, rfl⟩
    | tebi => exact ⟨40, by decide, rfl⟩

theorem unitBytes_pos (n : ℕ) : 0 < unitBytes n := by
  obtain ⟨k, -, hpow⟩ := unitBytes_eq_pow n
  exact hpow ▸ Nat.two_pow_pos k

theorem unitBytes_le (n : ℕ) : unitBytes n ≤ 2 ^ 53 := by
  obtain ⟨k, hk, hpow⟩ := unitBytes_eq_pow n
  exact hpow ▸ Nat.pow_le_pow_right (by decide) (hk.trans (by decide))

theorem bytes_fitting_le {n : ℕ} (h : 1024 ≤ n) : (Scale.fitting n).bytes ≤ n := by
  unfold Scale.fitting
  split_ifs <;> simp only [Scale.bytes] at * <;> omega

/-- No unit between the one that fits and the size. -/
theorem bytes_le_bytes_fitting {n : ℕ} {scale : Scale} (h : scale.bytes ≤ n) :
    scale.bytes ≤ (Scale.fitting n).bytes := by
  unfold Scale.fitting
  split_ifs <;> cases scale <;> simp only [Scale.bytes] at * <;> omega

/-- The unit is the largest one that is not above the size. -/
theorem isGreatest_unitBytes {n : ℕ} (h : 1024 ≤ n) :
    IsGreatest { u | u ∈ ({2 ^ 10, 2 ^ 20, 2 ^ 30, 2 ^ 40} : Set ℕ) ∧ u ≤ n } (unitBytes n) := by
  rw [unitBytes_of_le h]
  refine ⟨⟨?_, bytes_fitting_le h⟩, ?_⟩
  · cases Scale.fitting n <;> simp [Scale.bytes]
  · rintro u ⟨rfl | rfl | rfl | rfl, hle⟩
    · exact bytes_le_bytes_fitting (show Scale.kibi.bytes ≤ n from hle)
    · exact bytes_le_bytes_fitting (show Scale.mebi.bytes ≤ n from hle)
    · exact bytes_le_bytes_fitting (show Scale.gibi.bytes ≤ n from hle)
    · exact bytes_le_bytes_fitting (show Scale.tebi.bytes ≤ n from hle)

theorem unitBytes_mono {n m : ℕ} (h : n ≤ m) : unitBytes n ≤ unitBytes m := by
  by_cases hn : n < 1024
  · rw [unitBytes_of_lt hn]
    exact unitBytes_pos m
  · have hn := Nat.not_lt.mp hn
    have hgreatest := isGreatest_unitBytes hn
    exact (isGreatest_unitBytes (hn.trans h)).2 ⟨hgreatest.1.1, hgreatest.1.2.trans h⟩

/-- A larger unit is a multiple, and lies between the sizes. -/
theorem unitBytes_between {n m : ℕ} (h : unitBytes n < unitBytes m) :
    n < unitBytes m ∧ unitBytes m ≤ m ∧ unitBytes n ∣ unitBytes m := by
  have hm : 1024 ≤ m := by
    by_contra hm
    rw [unitBytes_of_lt (Nat.not_le.mp hm)] at h
    exact absurd (unitBytes_pos n) (by omega)
  obtain ⟨hmem, hle⟩ := (isGreatest_unitBytes hm).1
  refine ⟨?_, hle, ?_⟩
  · by_contra hn
    have hn := Nat.not_lt.mp hn
    have hkibi : 1024 ≤ unitBytes m := by
      rcases hmem with heq | heq | heq | heq <;> rw [heq] <;> decide
    have hgreatest := (isGreatest_unitBytes (hkibi.trans hn)).2 ⟨hmem, hn⟩
    omega
  · obtain ⟨j, -, hj⟩ := unitBytes_eq_pow n
    obtain ⟨k, -, hk⟩ := unitBytes_eq_pow m
    rw [hj, hk] at h ⊢
    exact Nat.pow_dvd_pow 2 ((Nat.pow_lt_pow_iff_right (by decide)).mp h).le

theorem roundToBinary_of_le {n : ℕ} (h : n ≤ 2 ^ 53) : roundToBinary significantDigits n = n := by
  rcases Nat.lt_or_eq_of_le h with hlt | rfl
  · exact roundToBinary_of_lt hlt
  · decide

theorem writtenHundredths_of_lt {n : ℕ} (h : n < 1024) : writtenHundredths n = 100 * n := by
  rw [writtenHundredths, unitBytes_of_lt h, roundDiv_one, roundToBinary_of_le (by omega)]

/-- Rounding a size does not take it across a number that is not rounded itself. -/
theorem roundToBinary_lt_iff {n b : ℕ} (hb : b ≤ 2 ^ 53) :
    roundToBinary significantDigits n < b ↔ n < b := by
  constructor
  · intro h
    by_contra hle
    have hmono := roundToBinary_mono (by decide : 0 < significantDigits) (Nat.not_lt.mp hle)
    rw [roundToBinary_of_le hb] at hmono
    omega
  · intro h
    rwa [roundToBinary_of_le (h.le.trans hb)]

/-- At least one whole unit is written. -/
theorem hundred_le_writtenHundredths {n : ℕ} (h : unitBytes n ≤ n) : 100 ≤ writtenHundredths n := by
  have hbinary : unitBytes n ≤ roundToBinary significantDigits n :=
    Nat.not_lt.mp fun hlt => Nat.not_lt.mpr h ((roundToBinary_lt_iff (unitBytes_le n)).mp hlt)
  exact le_roundDiv_of_mul_le (unitBytes_pos n) (Nat.mul_le_mul_left 100 hbinary)

theorem fitting_roundToBinary (n : ℕ) :
    Scale.fitting (roundToBinary significantDigits n) = Scale.fitting n := by
  have hlt : ∀ scale : Scale,
      roundToBinary significantDigits n < scale.bytes ↔ n < scale.bytes := fun scale =>
    roundToBinary_lt_iff (by cases scale <;> decide)
  exact if_congr (hlt _) rfl (if_congr (hlt _) rfl (if_congr (hlt _) rfl rfl))

theorem unit?_symbol (scale : Scale) : unit? scale.symbol = some scale.bytes := by
  cases scale <;> decide

theorem read?_render (n : UInt64) : read? (render n) =
    some ⟨(writtenHundredths n.toNat : ℚ) / 100, unitBytes n.toNat⟩ := by
  unfold render
  by_cases hsmall : n.toNat < 1024
  · have hdigits : (toString n.toNat).toList = Nat.toDigits 10 n.toNat := by simp
    have htext : toString n.toNat ++ " B" = toString n.toNat ++ " " ++ "B" := by
      rw [String.append_assoc]
      rfl
    simp only [if_pos hsmall, htext]
    rw [read?_append (hdigits ▸ not_mem_toDigits (by decide) _) (hdigits ▸ decimal?_toDigits _)
      (by decide : unit? "B" = some 1), unitBytes_of_lt hsmall, writtenHundredths_of_lt hsmall]
    congr 2
    push_cast
    ring
  · have hunit := unitBytes_of_le (Nat.not_lt.mp hsmall)
    have hwritten : writtenHundredths n.toNat = hundredths (Scale.fitting n.toNat) n.toNat := by
      rw [writtenHundredths, hunit, hundredths]
    simp only [if_neg hsmall, fitting_roundToBinary]
    rw [read?_append (space_not_mem_renderHundredths _) (decimal?_renderHundredths _)
      (unit?_symbol _), hunit, hwritten]

/-! ### How near it is -/

/-- A word has at most eleven binary digits too many. -/
theorem abs_roundToBinary_sub_le {n : ℕ} (h : n < wordValues) :
    |(roundToBinary significantDigits n : ℚ) - n| ≤ 2 ^ 10 := by
  have hexcess : 1 <<< (n.log2 + 1 - significantDigits) ≤ 2 ^ 11 := by
    by_cases hn : n = 0
    · subst hn
      decide
    · have hlog : n.log2 < 64 := (Nat.log2_lt hn).mpr h
      rw [Nat.one_shiftLeft]
      exact Nat.pow_le_pow_right (by decide) (by simp only [significantDigits]; omega)
  have hupper := (two_mul_roundToBinary_le significantDigits n).trans
    (Nat.add_le_add_left hexcess _)
  have hlower := (two_mul_le_roundToBinary significantDigits n).trans
    (Nat.add_le_add_left hexcess _)
  have hupper : 2 * (roundToBinary significantDigits n : ℚ) ≤ 2 * n + 2 ^ 11 := by
    exact_mod_cast hupper
  have hlower : 2 * (n : ℚ) ≤ 2 * roundToBinary significantDigits n + 2 ^ 11 := by
    exact_mod_cast hlower
  rw [abs_le]
  constructor <;> linarith

/-- Two decimal places are within half a hundredth of what they are rounded from. -/
theorem abs_writtenHundredths_sub_le (n : ℕ) :
    |(writtenHundredths n : ℚ) / 100 - roundToBinary significantDigits n / unitBytes n| ≤
      1 / 200 := by
  have hpos : (0 : ℚ) < unitBytes n := by exact_mod_cast unitBytes_pos n
  have hupper := two_mul_roundDiv_le (100 * roundToBinary significantDigits n) (unitBytes_pos n)
  have hlower := two_mul_le_roundDiv (100 * roundToBinary significantDigits n) (unitBytes_pos n)
  have hupper : 2 * ((writtenHundredths n : ℚ) * unitBytes n) ≤
      2 * (100 * roundToBinary significantDigits n) + unitBytes n := by
    exact_mod_cast hupper
  have hlower : 2 * (100 * (roundToBinary significantDigits n : ℚ)) ≤
      2 * (writtenHundredths n * unitBytes n) + unitBytes n := by
    exact_mod_cast hlower
  have hsub : (writtenHundredths n : ℚ) / 100 - roundToBinary significantDigits n / unitBytes n =
      (writtenHundredths n * unitBytes n - 100 * roundToBinary significantDigits n) /
        (100 * unitBytes n) := by
    field_simp
  rw [hsub, abs_div, abs_of_pos (by positivity : (0 : ℚ) < 100 * unitBytes n),
    div_le_iff₀ (by positivity), abs_le]
  constructor <;> linarith

theorem abs_written_sub_le (n : ℕ) :
    |(writtenHundredths n : ℚ) / 100 - n / unitBytes n| ≤
      1 / 200 + |(roundToBinary significantDigits n : ℚ) - n| / unitBytes n := by
  have hpos : (0 : ℚ) < unitBytes n := by exact_mod_cast unitBytes_pos n
  have hsub : (writtenHundredths n : ℚ) / 100 - n / unitBytes n =
      (writtenHundredths n / 100 - roundToBinary significantDigits n / unitBytes n) +
        (roundToBinary significantDigits n - n) / unitBytes n := by
    ring
  calc
    _ = _ := congrArg _ hsub
    _ ≤ _ := abs_add_le _ _
    _ ≤ 1 / 200 + |((roundToBinary significantDigits n : ℚ) - n) / unitBytes n| :=
      add_le_add_left (abs_writtenHundredths_sub_le n) _
    _ = _ := by rw [abs_div, abs_of_pos hpos]

/-! ### Order -/

/-- Larger sizes are not written as smaller amounts. Where the unit changes, the larger unit itself
is between. -/
theorem written_mono {n m : ℕ} (h : n ≤ m) :
    writtenHundredths n * unitBytes n ≤ writtenHundredths m * unitBytes m := by
  rcases Nat.lt_or_eq_of_le (unitBytes_mono h) with hlt | heq
  · obtain ⟨hn, hm, q, hq⟩ := unitBytes_between hlt
    have hbelow := ((roundToBinary_lt_iff (unitBytes_le m)).mpr hn).le
    have hnext : 100 * unitBytes m = 100 * q * unitBytes n := by
      rw [hq]
      ring
    have hwritten : writtenHundredths n ≤ 100 * q :=
      roundDiv_le_of_le_mul (unitBytes_pos n) (hnext ▸ Nat.mul_le_mul_left 100 hbelow)
    calc
      writtenHundredths n * unitBytes n ≤ 100 * q * unitBytes n := Nat.mul_le_mul_right _ hwritten
      _ = 100 * unitBytes m := hnext.symm
      _ ≤ writtenHundredths m * unitBytes m :=
        Nat.mul_le_mul_right _ (hundred_le_writtenHundredths hm)
  · rw [writtenHundredths, writtenHundredths, heq]
    have hrounded := roundToBinary_mono (by decide : 0 < significantDigits) h
    exact Nat.mul_le_mul_right _ (roundDiv_mono _ (Nat.mul_le_mul_left 100 hrounded))

/-- What is read from the text of `n` bytes is near `n`. -/
structure Near (n : ℕ) (a : Amount) : Prop where
  unit_eq : n < 1024 → a.unit = 1
  unit_isGreatest : 1024 ≤ n →
    IsGreatest { u | u ∈ ({2 ^ 10, 2 ^ 20, 2 ^ 30, 2 ^ 40} : Set ℕ) ∧ u ≤ n } a.unit
  number_eq : n < 1024 → a.number = n
  abs_sub_le : |a.number - n / a.unit| ≤ 1 / 200 + 1 / 2 ^ 30
  abs_sub_le_of_le : n ≤ 2 ^ 53 → |a.number - n / a.unit| ≤ 1 / 200

theorem near_written {n : ℕ} (h : n < wordValues) :
    Near n ⟨(writtenHundredths n : ℚ) / 100, unitBytes n⟩ := by
  have hwritten := abs_written_sub_le n
  have hclose : n ≤ 2 ^ 53 → |(writtenHundredths n : ℚ) / 100 - n / unitBytes n| ≤ 1 / 200 := by
    intro hle
    simpa [roundToBinary_of_le hle] using hwritten
  refine ⟨unitBytes_of_lt, isGreatest_unitBytes, fun hsmall => ?_, ?_, hclose⟩
  · rw [writtenHundredths_of_lt hsmall]
    push_cast
    ring
  · by_cases hle : n ≤ 2 ^ 53
    · exact (hclose hle).trans (by norm_num)
    · -- Only sizes of many tebibytes are not exact in 53 binary digits.
      have hunit : unitBytes n = 2 ^ 40 := by
        have hmem := isGreatest_unitBytes (by omega : 1024 ≤ n)
        exact le_antisymm (by rcases hmem.1.1 with heq | heq | heq | heq <;> rw [heq] <;> decide)
          (hmem.2 ⟨by simp, by omega⟩)
      have hbinary := abs_roundToBinary_sub_le h
      refine hwritten.trans (add_le_add_right ?_ _)
      rw [hunit]
      push_cast
      rw [div_le_div_iff₀ (by positivity) (by positivity)]
      linarith

/-- **The text of a size.** It is read as a number near the size in the unit that fits, and larger
sizes are not read as smaller amounts. -/
theorem render_exact : (∀ n : UInt64, ∃ a, read? (render n) = some a ∧ Near n.toNat a) ∧
    ∀ (n m : UInt64) (a b : Amount), n ≤ m → read? (render n) = some a →
      read? (render m) = some b → a.bytes ≤ b.bytes := by
  refine ⟨fun n => ⟨_, read?_render n, near_written n.toNat_lt⟩, fun n m a b hle ha hb => ?_⟩
  rw [read?_render, Option.some.injEq] at ha hb
  subst ha hb
  have hmono : (writtenHundredths n.toNat : ℚ) * unitBytes n.toNat ≤
      writtenHundredths m.toNat * unitBytes m.toNat := by
    exact_mod_cast written_mono (UInt64.le_iff_toNat_le.mp hle)
  simp only [Amount.bytes, div_mul_eq_mul_div]
  linarith

/-- The order where the unit changes. -/
theorem render_exact_crossing : (1048575 : UInt64) ≤ 1048576 ∧
    ∃ a b, read? (render 1048575) = some a ∧ read? (render 1048576) = some b ∧
      a.unit = 1024 ∧ b.unit = 1048576 ∧ a.bytes ≤ b.bytes := by
  have hle : (1048575 : UInt64) ≤ 1048576 := by decide
  have ha := read?_render 1048575
  have hb := read?_render 1048576
  exact ⟨hle, _, _, ha, hb, by decide, by decide, render_exact.2 _ _ _ _ hle ha hb⟩

end StagingMemory.Size
