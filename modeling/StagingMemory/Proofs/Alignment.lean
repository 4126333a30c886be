import Mathlib.Algebra.Group.Nat.Defs
import Mathlib.Order.Bounds.Basic
import StagingMemory.Memory.AddressSpace
/-!
Rounding up to a power of two. The addition leaves the word exactly if the multiple of the power
that comes next does, because the power divides the number of words, and the mask rounds the sum
down to that multiple. Everything else about rounding up follows from the result being the least
multiple that is not smaller. Main statement: `aligns_of_isPowerOfTwo`.
-/
namespace StagingMemory.Page

/-- The least multiple of `alignment` from `length` on. -/
def nextMultiple (length alignment : Nat) : Nat :=
  (length + (alignment - 1)) / alignment * alignment

theorem isLeast_nextMultiple (length : Nat) {alignment : Nat} (hpos : 0 < alignment) :
    IsLeast { m | alignment ∣ m ∧ length ≤ m } (nextMultiple length alignment) := by
  refine ⟨⟨Nat.dvd_mul_left _ _, ?_⟩, ?_⟩
  · have hsum := Nat.div_add_mod' (length + (alignment - 1)) alignment
    have hrest := Nat.mod_lt (length + (alignment - 1)) hpos
    simp only [nextMultiple]
    omega
  · rintro m ⟨⟨q, rfl⟩, hle⟩
    -- A smaller quotient would leave the sum below the multiple after `m`.
    have hquotient : (length + (alignment - 1)) / alignment ≤ q := by
      rw [← Nat.lt_succ_iff, Nat.div_lt_iff_lt_mul hpos, Nat.succ_mul, Nat.mul_comm q]
      omega
    simpa only [nextMultiple, Nat.mul_comm alignment] using Nat.mul_le_mul_right alignment hquotient

/-- Masking the low bits off a word rounds it down to a multiple of a power of two. -/
theorem and_mask {n k : Nat} (hk : k ≤ 64) (h : n < Size.wordValues) :
    n &&& (Size.wordValues - 2 ^ k) = n / 2 ^ k * 2 ^ k := by
  apply Nat.eq_of_testBit_eq
  intro i
  have hmask : Size.wordValues - 2 ^ k = (2 ^ (64 - k) - 1) * 2 ^ k := by
    rw [Nat.sub_mul, ← Nat.pow_add, Nat.sub_add_cancel hk, Nat.one_mul]
    rfl
  rw [hmask, Nat.testBit_and, Nat.testBit_mul_two_pow, Nat.testBit_mul_two_pow,
    Nat.testBit_two_pow_sub_one, Nat.testBit_div_two_pow]
  by_cases hlow : k ≤ i
  · by_cases hhigh : i - k < 64 - k
    · simp [hlow, hhigh]
    · have hle : 2 ^ 64 ≤ 2 ^ i := Nat.pow_le_pow_right (by decide) (by omega)
      have hbit : n.testBit i = false := Nat.testBit_lt_two_pow (Nat.lt_of_lt_of_le h hle)
      simp [hlow, hhigh, hbit]
  · simp [hlow]

/-- Where the sum leaves the word, the next multiple does so too: the number of words is a multiple
itself. -/
theorem wordValues_le_nextMultiple {k length : Nat} (hk : k ≤ 64)
    (h : Size.wordValues ≤ length + (2 ^ k - 1)) :
    Size.wordValues ≤ nextMultiple length (2 ^ k) := by
  have hwords : Size.wordValues = 2 ^ (64 - k) * 2 ^ k := by
    rw [← Nat.pow_add, Nat.sub_add_cancel hk]
    rfl
  rw [hwords] at h ⊢
  exact Nat.mul_le_mul_right _ ((Nat.le_div_iff_mul_le (Nat.two_pow_pos k)).mpr h)

section

variable {alignment : UInt64}

theorem pos_of_isPowerOfTwo (h : alignment.toNat.isPowerOfTwo) : 0 < alignment.toNat := by
  obtain ⟨k, hpow⟩ := h
  exact hpow ▸ Nat.two_pow_pos k

theorem toNat_sub_one (h : 0 < alignment.toNat) : (alignment - 1).toNat = alignment.toNat - 1 :=
  UInt64.toNat_sub_of_le _ _ (UInt64.le_iff_toNat_le.mpr h)

theorem toNat_mask (h : 0 < alignment.toNat) :
    (~~~(alignment - 1)).toNat = Size.wordValues - alignment.toNat := by
  rw [UInt64.toNat_not, toNat_sub_one h]
  simp only [UInt64.size, Size.wordValues]
  omega

/-- What rounding up comes to: the next multiple, if that is a word. -/
theorem alignUp?_cases (h : alignment.toNat.isPowerOfTwo) (length : UInt64) :
    (∃ v, alignUp? length alignment = .returned (some v) ∧
        v.toNat = nextMultiple length.toNat alignment.toNat) ∨
      alignUp? length alignment = .returned none ∧
        Size.wordValues ≤ nextMultiple length.toNat alignment.toNat := by
  have hpos := pos_of_isPowerOfTwo h
  obtain ⟨k, hpow⟩ := h
  have hk : k < 64 := (Nat.pow_lt_pow_iff_right (by decide)).mp (hpow ▸ alignment.toNat_lt)
  have hne : alignment ≠ 0 := by
    rintro rfl
    exact absurd hpos (by decide)
  unfold alignUp?
  rw [if_neg hne, toNat_sub_one hpos]
  by_cases hlt : length.toNat + (alignment.toNat - 1) < Size.wordValues
  · refine Or.inl ⟨_, by rw [if_pos hlt], ?_⟩
    have hsum : (length + (alignment - 1)).toNat = length.toNat + (alignment.toNat - 1) := by
      rw [UInt64.toNat_add, toNat_sub_one hpos]
      exact Nat.mod_eq_of_lt hlt
    rw [UInt64.toNat_and, toNat_mask hpos, hsum, hpow, and_mask hk.le (hpow ▸ hlt)]
    rfl
  · refine Or.inr ⟨by rw [if_neg hlt], ?_⟩
    rw [hpow] at hlt ⊢
    exact wordValues_le_nextMultiple hk.le (Nat.not_lt.mp hlt)

theorem alignUp?_eq_some_iff (h : alignment.toNat.isPowerOfTwo) (length v : UInt64) :
    alignUp? length alignment = .returned (some v) ↔
      IsLeast { m | alignment.toNat ∣ m ∧ length.toNat ≤ m } v.toNat := by
  have hleast := isLeast_nextMultiple length.toNat (pos_of_isPowerOfTwo h)
  rcases alignUp?_cases h length with ⟨w, hw, hnext⟩ | ⟨hnone, hle⟩
  · rw [hw, Outcome.returned.injEq, Option.some.injEq, ← UInt64.toNat_inj, hnext]
    exact ⟨fun heq => heq ▸ hleast, hleast.unique⟩
  · rw [hnone]
    refine ⟨nofun, fun hv => ?_⟩
    have hlt : v.toNat < Size.wordValues := v.toNat_lt
    have heq := hv.unique hleast
    omega

theorem alignUp?_eq_none_iff (h : alignment.toNat.isPowerOfTwo) (length : UInt64) :
    alignUp? length alignment = .returned none ↔
      ¬ ∃ m, alignment.toNat ∣ m ∧ length.toNat ≤ m ∧ m < Size.wordValues := by
  have hleast := isLeast_nextMultiple length.toNat (pos_of_isPowerOfTwo h)
  rcases alignUp?_cases h length with ⟨w, hw, hnext⟩ | ⟨hnone, hle⟩
  · rw [hw]
    rw [← hnext] at hleast
    exact ⟨nofun, fun hno => absurd ⟨_, hleast.1.1, hleast.1.2, w.toNat_lt⟩ hno⟩
  · refine ⟨fun _ => ?_, fun _ => hnone⟩
    rintro ⟨m, hdvd, hm, hlt⟩
    have hnext := hleast.2 ⟨hdvd, hm⟩
    omega

/-- Rounding up to the alignment is exact, for every length. -/
structure Aligns (alignment : UInt64) : Prop where
  /-- It never faults. -/
  returned : ∀ length, ∃ rounded, alignUp? length alignment = .returned rounded
  some_iff : ∀ length v, alignUp? length alignment = .returned (some v) ↔
    IsLeast { m | alignment.toNat ∣ m ∧ length.toNat ≤ m } v.toNat
  none_iff : ∀ length, alignUp? length alignment = .returned none ↔
    ¬ ∃ m, alignment.toNat ∣ m ∧ length.toNat ≤ m ∧ m < Size.wordValues
  /-- More is not rounded to less. -/
  monotone : ∀ a b w, a ≤ b → alignUp? b alignment = .returned (some w) →
    ∃ v, alignUp? a alignment = .returned (some v) ∧ v ≤ w
  idempotent : ∀ a v, alignUp? a alignment = .returned (some v) →
    alignUp? v alignment = .returned (some v)

/-- **Rounding up to a power of two** gives the least multiple of it that is not smaller, and gives
nothing exactly where no such multiple is a word. -/
theorem aligns_of_isPowerOfTwo (h : alignment.toNat.isPowerOfTwo) : Aligns alignment := by
  refine ⟨fun length => ?_, alignUp?_eq_some_iff h, alignUp?_eq_none_iff h, fun a b w hab hb => ?_,
    fun a v hv => ?_⟩
  · rcases alignUp?_cases h length with ⟨w, hw, -⟩ | ⟨hnone, -⟩
    · exact ⟨_, hw⟩
    · exact ⟨_, hnone⟩
  · -- What `b` is rounded to is a multiple from `a` on as well.
    obtain ⟨hdvd, hle⟩ := ((alignUp?_eq_some_iff h b w).mp hb).1
    have hle := (UInt64.le_iff_toNat_le.mp hab).trans hle
    rcases alignUp?_cases h a with ⟨v, hv, -⟩ | ⟨hnone, -⟩
    · have hleast := ((alignUp?_eq_some_iff h a v).mp hv).2
      exact ⟨v, hv, UInt64.le_iff_toNat_le.mpr (hleast ⟨hdvd, hle⟩)⟩
    · exact absurd ⟨w.toNat, hdvd, hle, w.toNat_lt⟩ ((alignUp?_eq_none_iff h a).mp hnone)
  · obtain ⟨hdvd, -⟩ := ((alignUp?_eq_some_iff h a v).mp hv).1
    exact (alignUp?_eq_some_iff h v v).mpr ⟨⟨hdvd, le_refl _⟩, fun m hm => hm.2⟩

end

/-! ### Whole pages -/

theorem isPowerOfTwo_size : (UInt64.ofNat size).toNat.isPowerOfTwo := ⟨12, by decide⟩

/-- As many bytes as the pages that hold `bytes` have. -/
theorem roundUp?_eq_some_iff {bytes length : UInt64} : roundUp? bytes = some length ↔
    length.toNat = Memory.AddressSpace.pagesFor bytes.toNat * size := by
  have hsize : (UInt64.ofNat size).toNat = size := by decide
  have hpages : nextMultiple bytes.toNat size = Memory.AddressSpace.pagesFor bytes.toNat * size :=
    rfl
  have hlt : length.toNat < Size.wordValues := length.toNat_lt
  unfold roundUp?
  rcases alignUp?_cases isPowerOfTwo_size bytes with ⟨v, hv, hnext⟩ | ⟨hnone, hle⟩
  · rw [hsize, hpages] at hnext
    rw [hv, Option.some.injEq, ← UInt64.toNat_inj, hnext]
    exact eq_comm
  · rw [hsize, hpages] at hle
    rw [hnone]
    refine ⟨nofun, fun heq => ?_⟩
    omega

theorem roundUp?_eq_none_iff {bytes : UInt64} : roundUp? bytes = none ↔
    Size.wordValues ≤ Memory.AddressSpace.pagesFor bytes.toNat * size := by
  cases hround : roundUp? bytes with
  | none =>
    refine ⟨fun _ => Nat.not_lt.mp fun hlt => ?_, fun _ => rfl⟩
    have hsome := roundUp?_eq_some_iff.mpr (UInt64.toNat_ofNat_of_lt' hlt)
    cases hround.symm.trans hsome
  | some length =>
    have heq := roundUp?_eq_some_iff.mp hround
    have hlt : length.toNat < Size.wordValues := length.toNat_lt
    refine ⟨nofun, fun hle => ?_⟩
    omega

end StagingMemory.Page
