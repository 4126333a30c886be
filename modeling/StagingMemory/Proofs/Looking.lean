import StagingMemory.Proofs.Atomicity
import StagingMemory.Proofs.Course
import StagingMemory.Proofs.Publication
/-!
One look of a follower, carried out with nobody else about: from opening the name to the mapping it
joins, to finding nothing to join, or to an error that ends the call. The order of the checks is
what decides between waiting on and failing for good, whatever the segment's header holds. Main
statement: `Attach.look_exact`.
-/
namespace StagingMemory

/-- A segment that is published, by a leader that is alive. -/
structure Kernel.Offers (k : Kernel) (id : SegmentId) : Prop where
  header_le : Page.headerLength ≤ k.segmentLength id
  ready : (k.header id).isReady = true
  owned : k.ownerAlive id = true

namespace Memory.AddressSpace

/-- Mapping does not write the process's own memory. -/
theorem memories_of_map_eq_ok {a mapped : AddressSpace} {length base : Nat} {backing : Backing}
    (h : a.map length backing = .ok (base, mapped)) : mapped.memories = a.memories := by
  unfold map place? at h
  split at h
  · cases h
  · cases hs : a.stretchFor? (pagesFor length) with
    | none => simp [hs] at h
    | some stretch =>
      simp only [hs, Option.map_some] at h
      cases h
      rfl

end Memory.AddressSpace

namespace Site

/-- Nothing differs but which addresses the process has had mapped before. -/
structure Same (s t : Site) : Prop where
  kernel_eq : t.kernel = s.kernel
  process_eq : t.process = { s.process with space := t.process.space }
  memory : s.process.SameMemory t.process
  memories_eq : t.process.space.memories = s.process.space.memories
  lockLimit_eq : t.process.space.lockLimit = s.process.space.lockLimit

/-- One participant more is counted in the segment's header, and the process has the segment mapped
once more; nothing else differs. -/
structure Joins (s : Site) (m : Mapping) (t : Site) : Prop where
  kernel_eq : t.kernel = s.kernel.modifyHeader m.segment fun h =>
    { h with live := h.live + 1, joined := h.joined + 1 }
  live_eq : (t.kernel.header m.segment).live.toNat =
    ((s.kernel.header m.segment).live.toNat + 1) % 2 ^ 32
  joined_eq : (t.kernel.header m.segment).joined.toNat =
    ((s.kernel.header m.segment).joined.toNat + 1) % 2 ^ 32
  process_eq : t.process = { s.process with space := t.process.space }
  mapped : s.process.space.Mapped m.length (.segment m.segment) m.base t.process.space

theorem Same.refl (s : Site) : s.Same s := ⟨rfl, rfl, .refl _, rfl, rfl⟩

variable {s t : Site} {id : SegmentId} {length : Nat} {m : Mapping}

/-- A mapping that is removed again leaves nothing. -/
theorem same_of_mapSegment (h : s.mapSegment id length = .ok (m, t)) : s.Same (t.unmap m) := by
  have hmemories : t.process.space.memories = s.process.space.memories := by
    unfold mapSegment at h
    split at h
    case h_1 hm =>
      cases h
      exact Memory.AddressSpace.memories_of_map_eq_ok hm
    case h_2 => cases h
  obtain ⟨rfl, rfl, ht, hmapped⟩ := mapped_of_mapSegment h
  have hkernel : t.kernel = s.kernel := by rw [ht]
  have hprocess : t.process = { s.process with space := t.process.space } := by
    rw [ht]
  refine ⟨hkernel, ?_, ⟨hmapped.page?_release, hmapped.mem_locked_release, fun index => ?_⟩,
    hmemories, hmapped.lockLimit_eq⟩
  · simp only [unmap]
    rw [hprocess]
  · simp only [unmap, Process.dummy]
    rw [hprocess]

theorem joins_of_mapSegment (hbound : id < s.kernel.segments.length)
    (h : s.mapSegment id length = .ok (m, t)) :
    s.Joins m ((t.modifyHeader m .raiseLive).modifyHeader m .raiseJoined) := by
  obtain ⟨rfl, rfl, ht, hmapped⟩ := mapped_of_mapSegment h
  have hkernel : ((t.modifyHeader m .raiseLive).modifyHeader m .raiseJoined).kernel =
      s.kernel.modifyHeader m.segment fun h =>
        { h with live := h.live + 1, joined := h.joined + 1 } := by
    simp only [modifyHeader, Kernel.modifyHeader_modifyHeader]
    rw [ht]
    rfl
  refine ⟨hkernel, ?_, ?_, ?_, hmapped⟩
  · rw [hkernel, Kernel.header_modifyHeader hbound, if_pos rfl]
    exact UInt32.toNat_add _ _
  · rw [hkernel, Kernel.header_modifyHeader hbound, if_pos rfl]
    exact UInt32.toNat_add _ _
  · simp only [modifyHeader]
    rw [ht]

end Site

namespace Attach

/-- What a look comes to: nothing to join, a mapping that was joined, or an error. -/
abbrev Sight := Except AllocationError (Option Mapping)

def sight? : Phase → Option Sight
  | .missed _ => some (.ok none)
  | .register m => some (.ok (some m))
  | .fail error => some (.error error)
  | _ => none

def lookOn (a : Attach) : (more : Nat) → Phase → Site → Option Sight × Site
  | more + 1, phase, s =>
    match sight? phase, a.step phase s with
    | none, (.running next, t) => a.lookOn more next t
    | none, (.done _, t) => (none, t)
    | some seen, _ => (some seen, s)
  | 0, phase, s => (sight? phase, s)

/-- The most steps of a look: it opens, measures and maps, checks three times and joins in three
accesses. -/
def lookLength : Nat := 9

def look (a : Attach) (w : Wait) (s : Site) : Option Sight × Site := a.lookOn lookLength (.find w) s

structure Matches (a : Attach) (k : Kernel) (id : SegmentId) : Prop where
  length_eq : k.segmentLength id = a.total
  bytes_eq : (k.header id).bytes = a.bytes

/-- Everything that one look can do, with what it leaves. -/
inductive Looked (a : Attach) (s : Site) : Sight → Site → Prop
  | absent (h : s.openSegment a.config.segment = .error .notFound) : Looked a s (.ok none) s
  | unopened {e : SystemError} (h : s.openSegment a.config.segment = .error e)
      (hne : e ≠ .notFound) : Looked a s (.error (.openFailed a.config.segment e)) s
  | short {id : SegmentId} (h : s.openSegment a.config.segment = .ok id)
      (hshort : s.kernel.segmentLength id < Page.headerLength) : Looked a s (.ok none) s
  | unmapped {id : SegmentId} {e : SystemError} (h : s.openSegment a.config.segment = .ok id)
      (hlong : Page.headerLength ≤ s.kernel.segmentLength id)
      (hmap : s.mapSegment id (s.kernel.segmentLength id) = .error e) :
      Looked a s
        (.error (.mapFailed a.config.segment (s.kernel.segmentLength id) e)) s
  | unoffered {id : SegmentId} {m : Mapping} {t : Site}
      (h : s.openSegment a.config.segment = .ok id)
      (hmap : s.mapSegment id (s.kernel.segmentLength id) = .ok (m, t))
      (hoffers : ¬ s.kernel.Offers id) : Looked a s (.ok none) (t.unmap m)
  | mismatched {id : SegmentId} {m : Mapping} {t : Site}
      (h : s.openSegment a.config.segment = .ok id)
      (hmap : s.mapSegment id (s.kernel.segmentLength id) = .ok (m, t))
      (hoffers : s.kernel.Offers id) (hmatch : ¬ a.Matches s.kernel id) :
      Looked a s
        (.error (.lengthMismatch a.config.segment a.bytes (s.kernel.header id).bytes)) (t.unmap m)
  | joined {id : SegmentId} {m : Mapping} {t : Site}
      (h : s.openSegment a.config.segment = .ok id)
      (hmap : s.mapSegment id (s.kernel.segmentLength id) = .ok (m, t))
      (hoffers : s.kernel.Offers id) (hmatch : a.Matches s.kernel id) :
      Looked a s (.ok (some m)) ((t.modifyHeader m .raiseLive).modifyHeader m .raiseJoined)

variable {a : Attach} {s t : Site} {w : Wait}

/-! ### Step by step -/

/-- What the mapping of the whole segment shows, check by check. -/
theorem lookOn_checkReady {id : SegmentId} {m : Mapping}
    (hopen : s.openSegment a.config.segment = .ok id)
    (hlong : Page.headerLength ≤ s.kernel.segmentLength id)
    (hmap : s.mapSegment id (s.kernel.segmentLength id) = .ok (m, t)) :
    ∃ seen u, a.lookOn 6 (.checkReady w m) t = (some seen, u) ∧ a.Looked s seen u := by
  obtain ⟨rfl, hlength, ht, -⟩ := Site.mapped_of_mapSegment hmap
  have hkernel : t.kernel = s.kernel := by rw [ht]
  by_cases hready : (s.kernel.header m.segment).isReady = true
  case neg =>
    refine ⟨_, _, ?_, .unoffered hopen hmap fun hoffers => hready hoffers.ready⟩
    simp [lookOn, sight?, step, stepFind, Site.header, hkernel, hready]
  by_cases howned : s.kernel.ownerAlive m.segment = true
  case neg =>
    refine ⟨_, _, ?_, .unoffered hopen hmap fun hoffers => howned hoffers.owned⟩
    simp [lookOn, sight?, step, stepFind, Site.header, hkernel, hready, howned]
  have hoffers : s.kernel.Offers m.segment := ⟨hlong, hready, howned⟩
  by_cases hmatch : (s.kernel.header m.segment).bytes = a.bytes ∧ m.length = a.total
  case neg =>
    refine ⟨_, _, ?_, .mismatched hopen hmap hoffers fun hs =>
      hmatch ⟨hs.bytes_eq, hlength.trans hs.length_eq⟩⟩
    have hdiffers := not_and_or.mp hmatch
    simp [lookOn, sight?, step, stepFind, Site.header, hkernel, hready, howned, hdiffers]
  refine ⟨_, _, ?_, .joined hopen hmap hoffers ⟨hlength ▸ hmatch.2, hmatch.1⟩⟩
  -- Raising the live count leaves the state as it is, so the second reading agrees with the first.
  have hraised : ((t.modifyHeader m .raiseLive).kernel.header m.segment).isReady = true := by
    have hstate := Kernel.word_modifyHeader Header.state t.kernel m.segment m.segment
      (f := Header.raiseLive) fun _ => rfl
    unfold Header.isReady at hready ⊢
    dsimp only [Site.modifyHeader]
    rwa [hstate, hkernel]
  simp [lookOn, sight?, step, stepFind, stepJoin, hraised, Site.header, hkernel, hready, howned,
    hmatch]

theorem look_spec (a : Attach) (w : Wait) (s : Site) :
    ∃ seen t, a.look w s = (some seen, t) ∧ a.Looked s seen t := by
  unfold look lookLength
  cases hopen : s.openSegment a.config.segment with
  | error e =>
    by_cases he : e = .notFound
    · subst he
      refine ⟨_, s, ?_, .absent hopen⟩
      simp [lookOn, sight?, step, stepFind, hopen]
    · refine ⟨_, s, ?_, .unopened hopen he⟩
      simp [lookOn, sight?, step, stepFind, hopen, he]
  | ok id =>
    by_cases hshort : s.kernel.segmentLength id < Page.headerLength
    · refine ⟨_, s, ?_, .short hopen hshort⟩
      simp [lookOn, sight?, step, stepFind, hopen, hshort]
    have hlong := Nat.not_lt.mp hshort
    cases hmap : s.mapSegment id (s.kernel.segmentLength id) with
    | error e =>
      refine ⟨_, s, ?_, .unmapped hopen hlong hmap⟩
      simp [lookOn, sight?, step, stepFind, hopen, hshort, hmap]
    | ok mapped =>
      obtain ⟨m, t⟩ := mapped
      obtain ⟨seen, u, hlook, hlooked⟩ := lookOn_checkReady (w := w) hopen hlong hmap
      refine ⟨seen, u, ?_, hlooked⟩
      rw [← hlook]
      simp [lookOn, sight?, step, stepFind, hopen, hshort, hmap]

/-! ### What decides -/

theorem offers_and_matches_iff {k : Kernel} {id : SegmentId} :
    (k.segmentLength id = a.total ∧ (k.header id).isReady = true ∧ k.ownerAlive id = true ∧
      (k.header id).bytes = a.bytes) ↔ k.Offers id ∧ a.Matches k id :=
  ⟨fun ⟨hlength, hready, howned, hbytes⟩ =>
    ⟨⟨hlength ▸ Nat.le_add_right _ _, hready, howned⟩, hlength, hbytes⟩,
    fun ⟨hoffers, hmatch⟩ =>
      ⟨hmatch.length_eq, hoffers.ready, hoffers.owned, hmatch.bytes_eq⟩⟩

theorem not_matches_iff {k : Kernel} {id : SegmentId} :
    ¬ a.Matches k id ↔ (k.header id).bytes ≠ a.bytes ∨ k.segmentLength id ≠ a.total := by
  rw [← not_and_or, not_iff_not]
  exact ⟨fun h => ⟨h.bytes_eq, h.length_eq⟩, fun h => ⟨h.2, h.1⟩⟩

/-- **What a look may do.** When whatever is bound to the name can be opened and mapped, the
follower joins if and only if the segment has the length it asks for, is published by a leader that
is alive and records the length it asks for; a length that differs is an error if and only if the
segment is so published; and otherwise there is nothing to join yet. Only joining changes
anything. -/
theorem look_exact (a : Attach) (w : Wait) (s : Site)
    (hopens : ∀ e, s.openSegment a.config.segment = .error e → e = .notFound)
    (hmaps : ∀ id e, s.openSegment a.config.segment = .ok id →
      Page.headerLength ≤ s.kernel.segmentLength id →
      s.mapSegment id (s.kernel.segmentLength id) ≠ .error e) :
    ∃ seen t, a.look w s = (some seen, t) ∧
      ((∃ m, seen = .ok (some m)) ↔ ∃ id, s.openSegment a.config.segment = .ok id ∧
        s.kernel.segmentLength id = a.total ∧ (s.kernel.header id).isReady = true ∧
        s.kernel.ownerAlive id = true ∧ (s.kernel.header id).bytes = a.bytes) ∧
      (∀ expected found,
        seen = .error (.lengthMismatch a.config.segment expected found) ↔
          expected = a.bytes ∧ ∃ id, s.openSegment a.config.segment = .ok id ∧
            found = (s.kernel.header id).bytes ∧ s.kernel.Offers id ∧
            ((s.kernel.header id).bytes ≠ a.bytes ∨ s.kernel.segmentLength id ≠ a.total)) ∧
      (seen = .ok none ↔
        ∀ id, s.openSegment a.config.segment = .ok id → ¬ s.kernel.Offers id) ∧
      (∀ m, seen = .ok (some m) → s.openSegment a.config.segment = .ok m.segment ∧
        m.length = a.total ∧ s.Joins m t) ∧
      ((∀ m, seen ≠ .ok (some m)) → s.Same t) := by
  obtain ⟨seen, t, hlook, hlooked⟩ := a.look_spec w s
  simp only [offers_and_matches_iff, ← not_matches_iff]
  refine ⟨seen, t, hlook, ?_⟩
  cases hlooked with
  | absent h => simp [h, Site.Same.refl]
  | unopened h hne => exact absurd (hopens _ h) hne
  | short h hshort =>
    have hoffers : ¬ s.kernel.Offers _ := fun hoffers => Nat.not_le.mpr hshort hoffers.header_le
    simp [h, hoffers, Site.Same.refl]
  | unmapped h hlong hmap => exact absurd hmap (hmaps _ _ h hlong)
  | unoffered h hmap hoffers => simp [h, hoffers, Site.same_of_mapSegment hmap]
  | mismatched h hmap hoffers hmatch =>
    simp [h, hoffers, hmatch, Site.same_of_mapSegment hmap, eq_comm]
  | joined h hmap hoffers hmatch =>
    obtain ⟨rfl, hlength, -⟩ := Site.mapped_of_mapSegment hmap
    have hbound := s.kernel.names_bound _ _ (Site.names_of_openSegment h)
    have hjoins := Site.joins_of_mapSegment hbound hmap
    simp [h, hoffers, hmatch, hlength, hmatch.length_eq, hjoins]

/-! ### Counts that wrap -/

def wornSite : Site :=
  { publishedSite with
    kernel := publishedSite.kernel.modifyHeader 0 fun h =>
      { h with live := 0xFFFFFFFF, joined := 0xFFFFFFFF } }

def wornFollower : Attach :=
  ⟨{ (Machine.sample () id).config with rank := 1 }, .host .disabled, 0, 4096⟩

/-- It joins, and the counts begin again at zero. -/
theorem look_exact_worn : ∃ m t, wornFollower.look ⟨0, 0, 0⟩ wornSite = (some (.ok (some m)), t) ∧
    (t.kernel.header m.segment).live.toNat = 0 ∧ (t.kernel.header m.segment).joined.toNat = 0 ∧
    wornSite.Joins m t := by
  have hopen : wornSite.openSegment wornFollower.config.segment = .ok 0 := by decide +kernel
  have hmap : (wornSite.mapSegment 0 (wornSite.kernel.segmentLength 0)).isOk = true := by
    decide +kernel
  obtain ⟨seen, t, hlook, hjoin, -, -, hjoins, -⟩ := look_exact wornFollower ⟨0, 0, 0⟩ wornSite
    (fun e he => by rw [hopen] at he; cases he) (fun id e hid _ he => by
      rw [hopen] at hid
      cases hid
      rw [he] at hmap
      cases hmap)
  obtain ⟨m, rfl⟩ := hjoin.mpr ⟨0, hopen, by decide +kernel, by decide +kernel, by decide +kernel,
    by decide +kernel⟩
  obtain ⟨hid, -, hm⟩ := hjoins m rfl
  have hzero : m.segment = 0 := (Except.ok.inj (hopen.symm.trans hid)).symm
  refine ⟨m, t, hlook, ?_, ?_, hm⟩
  · rw [hm.live_eq, hzero]
    decide +kernel
  · rw [hm.joined_eq, hzero]
    decide +kernel

end Attach
end StagingMemory
