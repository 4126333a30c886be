/-!
Rounding of quotients of natural numbers to the nearest one, a tie going to the even neighbour.
Main statements: a rounded quotient is within half a unit (`two_mul_roundDiv_le`,
`two_mul_le_roundDiv`), and rounding keeps the order, of quotients and of numbers that are rounded
to so many binary digits (`roundDiv_mono`, `roundToBinary_mono`). Where a rounded quotient reaches an
even number is known exactly (`le_roundDiv_iff_of_even`).
-/
namespace StagingMemory

/-- The natural number nearest to `num / den`; of two nearest ones the even. -/
def roundDiv (num den : Nat) : Nat :=
  let low := num / den
  let rest := num % den
  if 2 * rest < den then low
  else if den < 2 * rest then low + 1
  else if low % 2 = 0 then low
  else low + 1

theorem two_mul_roundDiv_le (num : Nat) {den : Nat} (h : 0 < den) :
    2 * (roundDiv num den * den) ≤ 2 * num + den := by
  have hd := Nat.div_add_mod num den
  have hr := Nat.mod_lt num h
  have hc : den * (num / den) = num / den * den := Nat.mul_comm _ _
  unfold roundDiv
  simp only
  split
  · omega
  · split
    · rw [Nat.add_mul]; omega
    · split
      · omega
      · rw [Nat.add_mul]; omega

theorem two_mul_le_roundDiv (num : Nat) {den : Nat} (h : 0 < den) :
    2 * num ≤ 2 * (roundDiv num den * den) + den := by
  have hd := Nat.div_add_mod num den
  have hr := Nat.mod_lt num h
  have hc : den * (num / den) = num / den * den := Nat.mul_comm _ _
  unfold roundDiv
  simp only
  split
  · omega
  · split
    · rw [Nat.add_mul]; omega
    · split
      · omega
      · rw [Nat.add_mul]; omega

/-- Where rounding goes up. -/
theorem roundDiv_eq (num den : Nat) : roundDiv num den = num / den +
    if den < 2 * (num % den) ∨ den = 2 * (num % den) ∧ num / den % 2 = 1 then 1 else 0 := by
  unfold roundDiv
  simp only
  split
  · rw [if_neg (by omega), Nat.add_zero]
  · split
    · rw [if_pos (by omega)]
    · split
      · rw [if_neg (by omega), Nat.add_zero]
      · rw [if_pos (by omega)]

theorem roundDiv_mono {a b : Nat} (den : Nat) (h : a ≤ b) : roundDiv a den ≤ roundDiv b den := by
  have hdiv : a / den ≤ b / den := Nat.div_le_div_right h
  rw [roundDiv_eq, roundDiv_eq]
  rcases Nat.lt_or_eq_of_le hdiv with hlt | heq
  · split <;> split <;> omega
  · -- Of two numbers with one quotient the larger one has the larger rest.
    have ha := Nat.div_add_mod a den
    have hb := Nat.div_add_mod b den
    rw [← heq] at hb ⊢
    have hrest : a % den ≤ b % den := by omega
    split <;> split <;> omega

theorem roundDiv_mul_self (k : Nat) {den : Nat} (h : 0 < den) : roundDiv (k * den) den = k := by
  simp [roundDiv, Nat.mul_div_cancel k h, h]

theorem roundDiv_le_of_le_mul {num den q : Nat} (hden : 0 < den) (h : num ≤ q * den) :
    roundDiv num den ≤ q :=
  roundDiv_mul_self q hden ▸ roundDiv_mono den h

theorem le_roundDiv_of_mul_le {num den q : Nat} (hden : 0 < den) (h : q * den ≤ num) :
    q ≤ roundDiv num den :=
  roundDiv_mul_self q hden ▸ roundDiv_mono den h

/-- An even number is reached from half a unit below it on. -/
theorem le_roundDiv_iff_of_even {num den q : Nat} (hden : 0 < den) (heven : q % 2 = 0) :
    q ≤ roundDiv num den ↔ 2 * (q * den) ≤ 2 * num + den := by
  constructor
  · intro h
    have hmul := Nat.mul_le_mul_right den h
    have hnear := two_mul_roundDiv_le num hden
    omega
  · intro h
    have hdiv := Nat.div_add_mod num den
    have hrest := Nat.mod_lt num hden
    have hcomm : den * (num / den) = num / den * den := Nat.mul_comm _ _
    have hnext : q ≤ num / den + 1 := by
      refine Nat.le_of_not_lt fun hlt => ?_
      have hmul := Nat.mul_le_mul_right den (Nat.succ_le_of_lt hlt)
      simp only [Nat.succ_eq_add_one, Nat.add_mul] at hmul
      omega
    rw [roundDiv_eq]
    rcases Nat.lt_or_eq_of_le hnext with hlt | heq
    · omega
    · -- The quotient is odd, so that a tie goes up to the even number.
      have hmul : q * den = num / den * den + den := by rw [heq, Nat.add_mul, Nat.one_mul]
      rw [if_pos (by omega)]
      omega

/-- The number nearest to `n` that has at most `digits` significant binary digits. -/
def roundToBinary (digits n : Nat) : Nat :=
  let excess := n.log2 + 1 - digits
  roundDiv n (1 <<< excess) * (1 <<< excess)

theorem roundDiv_one (n : Nat) : roundDiv n 1 = n := by
  simp [roundDiv, Nat.mod_one]

theorem roundDiv_zero (den : Nat) : roundDiv 0 den = 0 := by
  by_cases h : den = 0
  · simp [roundDiv, h]
  · have : 0 < den := Nat.pos_of_ne_zero h
    simp [roundDiv, this]

theorem roundToBinary_of_lt {digits n : Nat} (h : n < 1 <<< digits) :
    roundToBinary digits n = n := by
  by_cases hn : n = 0
  · simp [roundToBinary, hn, roundDiv_zero]
  · have hlog : n.log2 < digits := (Nat.log2_lt hn).2 (Nat.one_shiftLeft digits ▸ h)
    have hexcess : n.log2 + 1 - digits = 0 := by omega
    simp [roundToBinary, hexcess, roundDiv_one]

theorem two_mul_roundToBinary_le (digits n : Nat) :
    2 * roundToBinary digits n ≤ 2 * n + 1 <<< (n.log2 + 1 - digits) :=
  two_mul_roundDiv_le n (Nat.one_shiftLeft _ ▸ Nat.two_pow_pos _)

theorem two_mul_le_roundToBinary (digits n : Nat) :
    2 * n ≤ 2 * roundToBinary digits n + 1 <<< (n.log2 + 1 - digits) :=
  two_mul_le_roundDiv n (Nat.one_shiftLeft _ ▸ Nat.two_pow_pos _)

/-- A power of two is a multiple of the smaller ones. -/
theorem one_shiftLeft_eq_mul {e k : Nat} (h : e ≤ k) : 1 <<< k = 1 <<< (k - e) * 1 <<< e := by
  simp only [Nat.one_shiftLeft, ← Nat.pow_add, Nat.sub_add_cancel h]

theorem roundDiv_one_shiftLeft_mul {e k : Nat} (h : e ≤ k) :
    roundDiv (1 <<< k) (1 <<< e) * 1 <<< e = 1 <<< k := by
  have hpos : 0 < 1 <<< e := Nat.one_shiftLeft _ ▸ Nat.two_pow_pos _
  rw [one_shiftLeft_eq_mul h, roundDiv_mul_self _ hpos]

/-- Rounding does not go beyond the next power of two. -/
theorem roundToBinary_le_one_shiftLeft (digits n : Nat) :
    roundToBinary digits n ≤ 1 <<< (n.log2 + 1) := by
  have hle : n ≤ 1 <<< (n.log2 + 1) := Nat.one_shiftLeft _ ▸ Nat.le_of_lt Nat.lt_log2_self
  have hexcess : n.log2 + 1 - digits ≤ n.log2 + 1 := Nat.sub_le _ _
  rw [← roundDiv_one_shiftLeft_mul hexcess]
  exact Nat.mul_le_mul_right _ (roundDiv_mono _ hle)

theorem one_shiftLeft_le_roundToBinary {digits n : Nat} (hdigits : 0 < digits) (hn : n ≠ 0) :
    1 <<< n.log2 ≤ roundToBinary digits n := by
  have hle : 1 <<< n.log2 ≤ n := Nat.one_shiftLeft _ ▸ Nat.log2_self_le hn
  have hexcess : n.log2 + 1 - digits ≤ n.log2 := by omega
  rw [← roundDiv_one_shiftLeft_mul hexcess]
  exact Nat.mul_le_mul_right _ (roundDiv_mono _ hle)

theorem log2_mono {n m : Nat} (hn : n ≠ 0) (h : n ≤ m) : n.log2 ≤ m.log2 :=
  (Nat.le_log2 (by omega)).mpr (Nat.le_trans (Nat.log2_self_le hn) h)

theorem roundToBinary_mono {digits n m : Nat} (hdigits : 0 < digits) (h : n ≤ m) :
    roundToBinary digits n ≤ roundToBinary digits m := by
  by_cases hn : n = 0
  · simp [roundToBinary, hn, roundDiv_zero]
  rcases Nat.lt_or_eq_of_le (log2_mono hn h) with hlt | heq
  · calc
      roundToBinary digits n ≤ 1 <<< (n.log2 + 1) := roundToBinary_le_one_shiftLeft digits n
      _ ≤ 1 <<< m.log2 := by
        simp only [Nat.one_shiftLeft]
        exact Nat.pow_le_pow_right (by decide) hlt
      _ ≤ roundToBinary digits m := one_shiftLeft_le_roundToBinary hdigits (by omega)
  · simp only [roundToBinary, heq]
    exact Nat.mul_le_mul_right _ (roundDiv_mono _ h)

end StagingMemory
