import StagingMemory.Proofs.Alignment
import StagingMemory.Proofs.PinnedMemory
/-!
Requests in whole pages. The host rounds what is asked for up to pages, both where it allocates and
where it frees, so what is freed is what was mapped. It answers that memory has run out exactly if
the pages of the request have as many bytes as there are words or more; whatever else can go wrong
with an allocation is an error of the system's or a fault. Main statement: `rounding_exact`.
-/
namespace StagingMemory

namespace Process

theorem hostAllocate_eq_outOfMemory_iff {p : Process} {policy : LockPolicy} {bytes n : UInt64} :
    (p.hostAllocate policy bytes).1 = .returned (.error (.outOfMemory n)) ↔
      n = bytes ∧ Page.roundUp? bytes = none := by
  unfold hostAllocate
  cases hlength : Page.roundUp? bytes with
  | none => simp [eq_comm]
  | some length =>
    refine ⟨fun h => ?_, nofun⟩
    dsimp only at h
    cases hmap : p.space.mapOwn length.toNat with
    | error e =>
      rw [hmap] at h
      cases h
    | ok mapped =>
      obtain ⟨address, space⟩ := mapped
      rw [hmap] at h
      dsimp only at h
      have hlocks := locksPages { p with space } policy address length
      rcases hlocking : lockPages { p with space } policy address length with ⟨locking, q⟩
      rw [hlocking] at hlocks h
      -- A lock that is refused is the system's error, or else a report.
      cases hlocks with
      | skipped | locked | refused => cases h
      | @reported _ _ o => cases o <;> cases h

theorem hostFree_eq_outOfMemory_iff {p : Process} {address : Nat} {bytes n : UInt64} :
    (p.hostFree address bytes).1 = .error (.outOfMemory n) ↔
      n = bytes ∧ Page.roundUp? bytes = none := by
  unfold hostFree
  cases hlength : Page.roundUp? bytes with
  | none => simp [eq_comm]
  | some length =>
    dsimp only
    cases p.space.unmap address length.toNat <;> simp

end Process

open Process Memory.AddressSpace in
/-- How the host rounds requests for so many bytes. -/
structure RoundsToPages (bytes : UInt64) : Prop where
  /-- No fewer bytes than asked for: those of the pages that hold them. -/
  enough : ∀ length, Page.roundUp? bytes = some length →
    bytes ≤ length ∧ length.toNat = pagesFor bytes.toNat * Page.size
  /-- What an allocation maps and what freeing as many bytes unmaps has one length. -/
  frees : ∀ p q policy address, (∃ pid, (Process.fresh pid).Moves p) →
    p.hostAllocate policy bytes = (.returned (.ok address), q) →
    ∃ length, Page.roundUp? bytes = some length ∧
      p.Grown address length.toNat (p.hostGrants policy bytes) q ∧
      Frees address bytes length.toNat
  allocate_outOfMemory_iff : ∀ p policy n,
    (hostAllocate p policy bytes).1 = .returned (.error (.outOfMemory n)) ↔
      n = bytes ∧ Size.wordValues ≤ pagesFor bytes.toNat * Page.size
  free_outOfMemory_iff : ∀ p address n,
    (hostFree p address bytes).1 = .error (.outOfMemory n) ↔
      n = bytes ∧ Size.wordValues ≤ pagesFor bytes.toNat * Page.size

theorem roundsToPages (bytes : UInt64) : RoundsToPages bytes := by
  refine ⟨fun length hlength => ?_, fun p q policy address hmoves hallocate => ?_,
    fun p policy n => ?_, fun p address n => ?_⟩
  · have heq := Page.roundUp?_eq_some_iff.mp hlength
    refine ⟨UInt64.le_iff_toNat_le.mpr ?_, heq⟩
    simp only [heq, Memory.AddressSpace.pagesFor, Page.size]
    omega
  · have hends := p.hostEnds hmoves policy bytes
    rw [hallocate] at hends
    cases hends with
    | granted hlength hgrown hfrees => exact ⟨_, hlength, hgrown, hfrees⟩
  · rw [Process.hostAllocate_eq_outOfMemory_iff, Page.roundUp?_eq_none_iff]
  · rw [Process.hostFree_eq_outOfMemory_iff, Page.roundUp?_eq_none_iff]

/-- **Rounding up** to any power of two is exact up to the end of the words, and so it is for the
pages of a request to the host. -/
theorem rounding_exact {alignment : UInt64} (h : alignment.toNat.isPowerOfTwo) :
    Page.Aligns alignment ∧ ∀ bytes, RoundsToPages bytes :=
  ⟨Page.aligns_of_isPowerOfTwo h, roundsToPages⟩

/-- The largest power of two in a word, where all lengths beyond it have no next multiple. -/
theorem rounding_exact_largest :
    (∀ length : UInt64, 0x8000000000000000 < length →
      Page.alignUp? length 0x8000000000000000 = .returned none) ∧
    ((Process.fresh 1).hostAllocate .disabled 0xfffffffffffff001).1 =
      .returned (.error (.outOfMemory 0xfffffffffffff001)) := by
  have hpow : (0x8000000000000000 : UInt64).toNat.isPowerOfTwo := ⟨63, by decide⟩
  obtain ⟨haligns, hpages⟩ := rounding_exact hpow
  refine ⟨fun length hlength => (haligns.none_iff length).mpr ?_, ?_⟩
  · rintro ⟨m, ⟨q, rfl⟩, hle, hlt⟩
    have hlarge := UInt64.lt_iff_toNat_lt.mp hlength
    have hhalf : (0x8000000000000000 : UInt64).toNat = 0x8000000000000000 := by decide
    rw [hhalf] at hle hlt hlarge
    simp only [Size.wordValues] at hlt
    omega
  · exact ((hpages _).allocate_outOfMemory_iff _ _ _).mpr ⟨rfl, by decide⟩

end StagingMemory
