import Mathlib.Data.Nat.ModEq
import StagingMemory.Proofs.Attendance
/-!
The counts in a segment's header, in every run of one leader and followers. A count is a word, and
nothing keeps it from wrapping; but it never differs from what the accesses entered by anything but
whole words (`Machine.ledgered_of_run`). What a reader may conclude from a count it may conclude at
the moment it reads it: the joined count never reads too high, and the live count reads right if few
enough stand in it by then.
-/
namespace StagingMemory

/-! ### Counting in words -/

namespace Header

variable (h : Header)

theorem live_raiseLive_modEq : h.raiseLive.live.toNat ≡ h.live.toNat + 1 [MOD UInt32.size] := by
  show (h.live + 1).toNat ≡ h.live.toNat + 1 [MOD UInt32.size]
  rw [UInt32.toNat_add]
  exact Nat.mod_modEq _ _

theorem live_lowerLive_modEq : h.lowerLive.live.toNat + 1 ≡ h.live.toNat [MOD UInt32.size] := by
  have hraised := h.lowerLive.live_raiseLive_modEq
  have hback : h.lowerLive.raiseLive.live = h.live := UInt32.sub_add_cancel _ _
  rw [hback] at hraised
  exact hraised.symm

theorem joined_raiseJoined_modEq :
    h.raiseJoined.joined.toNat ≡ h.joined.toNat + 1 [MOD UInt32.size] := by
  show (h.joined + 1).toNat ≡ h.joined.toNat + 1 [MOD UInt32.size]
  rw [UInt32.toNat_add]
  exact Nat.mod_modEq _ _

end Header

/-- The header agrees with how often each mark was made, but for whole words. -/
structure Ledger (h : Header) (count : Mark → Nat) : Prop where
  early : h.state = 0 → ∀ mark, count mark = 0
  live_modEq : h.state ≠ 0 →
    h.live.toNat + count .lower + count .depart ≡ 1 + count .raise [MOD UInt32.size]
  joined_modEq : h.state ≠ 0 → h.joined.toNat ≡ 1 + count .join [MOD UInt32.size]

namespace Ledger

variable {h : Header} {count : Mark → Nat}

/-- While nothing is published nothing is entered. -/
theorem unpublished (hzero : h.state = 0) (hnone : ∀ mark, count mark = 0) : Ledger h count where
  early _ := hnone
  live_modEq hstate := absurd hzero hstate
  joined_modEq hstate := absurd hzero hstate

/-- Who leaves lowers the live count, whoever it is. -/
theorem lowered (hledger : Ledger h count) (hstate : h.state ≠ 0) :
    h.lowerLive.live.toNat + 1 + count .lower + count .depart ≡ 1 + count .raise
      [MOD UInt32.size] := by
  calc h.lowerLive.live.toNat + 1 + count .lower + count .depart
      ≡ h.live.toNat + count .lower + count .depart [MOD UInt32.size] :=
        (h.live_lowerLive_modEq.add_right _).add_right _
    _ ≡ 1 + count .raise [MOD UInt32.size] := hledger.live_modEq hstate

theorem retire (hledger : Ledger h count) (hstate : h.state ≠ 0) : Ledger h.retire count where
  early hzero := absurd hzero Header.retiredMark_ne_zero
  live_modEq _ := hledger.live_modEq hstate
  joined_modEq _ := hledger.joined_modEq hstate

/-- The joined count never reads higher than the joins that were entered. -/
theorem joined_le (hledger : Ledger h count) (hstate : h.state ≠ 0) :
    h.joined.toNat ≤ 1 + count .join := by
  have hmod := hledger.joined_modEq hstate
  have hlt : h.joined.toNat < UInt32.size := h.joined.toNat_lt
  calc h.joined.toNat = h.joined.toNat % UInt32.size := (Nat.mod_eq_of_lt hlt).symm
    _ = (1 + count .join) % UInt32.size := hmod
    _ ≤ 1 + count .join := Nat.mod_le _ _

/-- Where few enough stand in the live count, it reads what was entered. -/
theorem live_eq (hledger : Ledger h count) (hstate : h.state ≠ 0) (hdepart : count .depart = 0)
    (hlower : count .lower ≤ count .raise)
    (hfew : count .raise + 1 < count .lower + UInt32.size) :
    h.live.toNat + count .lower = 1 + count .raise := by
  obtain ⟨standing, hstanding⟩ := Nat.exists_eq_add_of_le hlower
  have hmod := hledger.live_modEq hstate
  rw [hdepart, hstanding] at hmod
  have hcancel : h.live.toNat ≡ 1 + standing [MOD UInt32.size] := by
    apply Nat.ModEq.add_right_cancel' (count .lower)
    calc h.live.toNat + count .lower ≡ 1 + (count .lower + standing) [MOD UInt32.size] := hmod
      _ = 1 + standing + count .lower := by omega
  have hlt : h.live.toNat < UInt32.size := h.live.toNat_lt
  have heq := hcancel.eq_of_lt_of_lt hlt (by omega)
  omega

end Ledger

theorem Tread.ledger {g g' : Grade} {h h' : Header} {mark? : Option Mark} {count : Mark → Nat}
    (ht : Tread g h mark? g' h') (hledger : Ledger h count)
    (hpassed : g ≠ .away → h.state ≠ 0) : Ledger h' (enter count mark?) := by
  cases ht with
  | stay | fade | pass | refuse => simpa using hledger
  | raise =>
    have hstate : h.state ≠ 0 := hpassed (by simp)
    refine ⟨fun hzero => absurd hzero hstate, ?_, ?_⟩
    · intro _
      simp only [enter]
      calc h.raiseLive.live.toNat + count .lower + count .depart
          ≡ h.live.toNat + 1 + count .lower + count .depart [MOD UInt32.size] :=
            (h.live_raiseLive_modEq.add_right _).add_right _
        _ = h.live.toNat + count .lower + count .depart + 1 := by omega
        _ ≡ 1 + count .raise + 1 [MOD UInt32.size] := (hledger.live_modEq hstate).add_right 1
    · intro _
      exact hledger.joined_modEq hstate
  | lower hstands =>
    have hstate : h.state ≠ 0 := hpassed (by rintro rfl; cases hstands)
    refine ⟨fun hzero => absurd hzero hstate, ?_, ?_⟩
    · intro _
      simp only [enter]
      calc h.lowerLive.live.toNat + (count .lower + 1) + count .depart
          = h.lowerLive.live.toNat + 1 + count .lower + count .depart := by omega
        _ ≡ 1 + count .raise [MOD UInt32.size] := hledger.lowered hstate
    · intro _
      exact hledger.joined_modEq hstate
  | join =>
    have hstate : h.state ≠ 0 := hpassed (by simp)
    refine ⟨fun hzero => absurd hzero hstate, ?_, ?_⟩
    · intro _
      exact hledger.live_modEq hstate
    · intro _
      simp only [enter]
      calc h.raiseJoined.joined.toNat ≡ h.joined.toNat + 1 [MOD UInt32.size] :=
            h.joined_raiseJoined_modEq
        _ ≡ 1 + count .join + 1 [MOD UInt32.size] := (hledger.joined_modEq hstate).add_right 1

theorem Stride.ledger {bound fresh : Prop} {p p' : Lead} {h h' : Header} {mark? : Option Mark}
    {count : Mark → Nat} (hs : Stride bound fresh p h mark? p' h') (hledger : Ledger h count)
    (hfits : p.Fits h count) : Ledger h' (enter count mark?) := by
  cases hs with
  | stay | find | stop | create | giveUp | takeBack => simpa using hledger
  | retireLeftover =>
    rw [enter_none]
    exact hledger.retire hfits
  | prepare hkeeps =>
    rw [enter_none]
    exact .unpublished (hkeeps hfits.1) (hledger.early hfits.1)
  | putJoined | putLive =>
    rw [enter_none]
    exact .unpublished hfits.1 (hledger.early hfits.1)
  | putState =>
    obtain ⟨hzero, hlive, hjoined⟩ := hfits
    have hnone := hledger.early hzero
    rw [enter_none]
    refine ⟨fun hz => absurd hz Header.readyMark_ne_zero, ?_, ?_⟩
    · intro _
      show h.live.toNat + count .lower + count .depart ≡ 1 + count .raise [MOD UInt32.size]
      rw [hlive, hnone, hnone, hnone]
      rfl
    · intro _
      show h.joined.toNat ≡ 1 + count .join [MOD UInt32.size]
      rw [hjoined, hnone]
      rfl
  | retire =>
    have hstate : h.state ≠ 0 := by
      rw [hfits.1]
      exact Header.readyMark_ne_zero
    rw [enter_none]
    exact hledger.retire hstate
  | depart =>
    have hstate : h.state ≠ 0 := by
      rw [hfits.1]
      exact Header.retiredMark_ne_zero
    refine ⟨fun hzero => absurd hzero hstate, ?_, ?_⟩
    · intro _
      simp only [enter]
      calc h.lowerLive.live.toNat + count .lower + (count .depart + 1)
          = h.lowerLive.live.toNat + 1 + count .lower + count .depart := by omega
        _ ≡ 1 + count .raise [MOD UInt32.size] := hledger.lowered hstate
    · intro _
      exact hledger.joined_modEq hstate

namespace Machine

variable {κ : Type u} {ι : Type v} {m next : Machine κ ι} {roster : ι → Member κ} {leader : ι}
  {id : SegmentId} {history : List (Access ι)}

/-- The header and the leader's position agree with what the accesses entered, but for whole words
in the counts. -/
structure Ledgered (m : Machine κ ι) (roster : ι → Member κ) (leader : ι) (id : SegmentId)
    (history : List (Access ι)) : Prop where
  ledger : Ledger (m.kernel.header id) (entries id · history)
  fits : (m.lead roster id leader).Fits (m.kernel.header id) (entries id · history)

theorem ledgered_of_idle (hidle : ∀ i, m.stage i = .idle) (hnew : m.kernel.segments.length ≤ id) :
    m.Ledgered roster leader id [] := by
  constructor
  · apply Ledger.unpublished
    · rw [Kernel.header_of_le hnew]
      rfl
    · intro _
      rfl
  · rw [lead_of_idle (hidle leader)]
    trivial

/-- A leader that releases the segment and has not retired it yet reads its header as published. -/
theorem Ledgered.active (h : m.Ledgered roster leader id history) {d : Detach}
    {phase : Detach.Phase} {mapping : Mapping}
    (hcalling : m.stage leader = .calling (.detach d phase))
    (hmapping : Detach.mapping? phase = some mapping) (hid : mapping.segment = id)
    (hactive : Detach.lead phase = .active) :
    (m.kernel.header id).state ≠ 0 ∧ entries id .depart history = 0 := by
  have hfits := h.fits
  rw [lead_of_detach hcalling hmapping hid, hactive] at hfits
  refine ⟨?_, hfits.2⟩
  rw [hfits.1]
  exact Header.readyMark_ne_zero

variable [DecidableEq κ] [DecidableEq ι]

/-- Every step keeps the ledger. -/
theorem Ledgered.step (h : m.Ledgered roster leader id history)
    (hagreed : m.Agreed roster leader id) (hsound : m.Sound roster)
    (hone : ∀ i, (roster i).config.isLeader = true ↔ i = leader) {access : Option (Access ι)}
    (hstep : Step roster m access next) :
    next.Ledgered roster leader id (access.toList ++ history) := by
  have hmoved := moved_of_step hsound hstep id
  have hentries : ∀ i c, (entries id · (⟨i, c⟩ :: history)) =
      enter (entries id · history) (c.mark? id) := by
    intro i c
    funext mark
    exact entries_cons
  cases hmoved with
  | rest hheader _ _ hlead =>
    constructor
    · rw [hheader]
      exact h.ledger
    · rw [hheader, hlead]
      exact h.fits
  | @follow _ i c hrole _ hlead htread _ =>
    have hi : i ≠ leader := ne_of_roles hrole ((hone leader).mpr rfl)
    have hpassed := hagreed.passed i hi
    simp only [Option.toList_some, List.singleton_append]
    constructor
    · rw [hentries]
      exact htread.ledger h.ledger hpassed
    · rw [hentries, hlead leader (Ne.symm hi)]
      exact htread.fits hpassed h.fits
  | @lead _ i c hrole _ _ hstride _ =>
    obtain rfl := (hone i).mp hrole
    simp only [Option.toList_some, List.singleton_append]
    constructor
    · rw [hentries]
      exact hstride.ledger h.ledger h.fits
    · rw [hentries]
      exact hstride.fits h.ledger.early h.fits hagreed.published_of_bound

theorem ledgered_of_run {m₀ : Machine κ ι}
    (hone : ∀ i, (roster i).config.isLeader = true ↔ i = leader)
    (hidle : ∀ i, m₀.stage i = .idle) (hnew : m₀.kernel.segments.length ≤ id)
    (hrun : Run roster (fun _ => True) m₀ history m) : m.Ledgered roster leader id history := by
  induction hrun with
  | start => exact ledgered_of_idle hidle hnew
  | step hrun hstep _ ih =>
    exact ih.step (agreed_of_run hone hidle hnew hrun) (sound_of_run hrun hidle) hone hstep

end Machine
end StagingMemory
