import StagingMemory.Proofs.Interchange
import StagingMemory.Proofs.Locking
/-!
Pinned memory of the host. An allocation that hands out a block has mapped the block's bytes,
rounded up to whole pages, on fresh pages, and freeing the same number of bytes unmaps exactly
these. One that returns an error leaves the mappings and the locks of the process as they were. One
that faults does not: what it mapped stays mapped, although nobody knows the address. It faults over
the warning that pages could not be locked exactly if the policy is best effort, the lock is refused
and warnings are fatal. Main statement: `pinned_exact`.
-/
namespace StagingMemory

namespace Process

/-- `q` has one mapping of its own memory more than `p`, of so many bytes from a page's address on,
where nothing was mapped or locked; its pages are locked if that was granted. -/
structure Grown (p : Process) (address length : Nat) (granted : Bool) (q : Process) : Prop where
  aligned : address % Page.size = 0
  fresh : ∀ page ∈ Memory.AddressSpace.mappingSpan address length,
    p.space.page? page = none ∧ page ∉ p.space.locked
  page?_eq : ∃ id, ∀ page, q.space.page? page =
    if page ∈ Memory.AddressSpace.mappingSpan address length then
      some (.own id, address / Page.size)
    else p.space.page? page
  mem_locked_iff : ∀ page, page ∈ q.space.locked ↔
    page ∈ p.space.locked ∨ granted = true ∧ page ∈ Memory.AddressSpace.mappingSpan address length
  registered_eq : ∀ index, (q.dummy index).registered = (p.dummy index).registered

/-- Freeing memory of so many bytes at the address unmaps the pages of a mapping of that length, and
nothing else, whatever the state of the process. -/
def Frees (address : Nat) (bytes : UInt64) (length : Nat) : Prop :=
  ∀ p : Process, ∃ q, p.hostFree address bytes = (.ok (), q) ∧
    q = { p with space := q.space } ∧
    (∀ page, q.space.page? page =
      if page ∈ Memory.AddressSpace.mappingSpan address length then none
      else p.space.page? page) ∧
    ∀ page, page ∈ q.space.locked ↔
      page ∈ p.space.locked ∧ page ∉ Memory.AddressSpace.mappingSpan address length

def Unlockable (p : Process) (bytes : UInt64) : Prop :=
  ∃ length address space error, Page.roundUp? bytes = some length ∧
    p.space.mapOwn length.toNat = .ok (address, space) ∧
    space.lock address length.toNat = .error error

variable {p q : Process} {address : Nat} {bytes length : UInt64} {policy : LockPolicy}

/-- What was mapped is freed again without a trace. -/
theorem Grown.free {granted : Bool} {n : Nat} (h : p.Grown address n granted q)
    (hfrees : Frees address bytes n) :
    ∃ u, q.hostFree address bytes = (.ok (), u) ∧ p.SameMemory u := by
  obtain ⟨u, hfree, hu, hpage, hlocked⟩ := hfrees q
  obtain ⟨id, hgrown⟩ := h.page?_eq
  refine ⟨u, hfree, fun page => ?_, fun page => ?_, fun index => ?_⟩
  · rw [hpage, hgrown]
    split
    case isTrue hp => exact (h.fresh page hp).1.symm
    case isFalse => rfl
  · rw [hlocked, h.mem_locked_iff]
    constructor
    · rintro ⟨hold | ⟨-, hnew⟩, hout⟩
      · exact hold
      · exact absurd hnew hout
    · exact fun hold => ⟨Or.inl hold, fun hp => (h.fresh page hp).2 hold⟩
  · rw [hu]
    exact h.registered_eq index

/-- Neither accounts nor what was put out say what is mapped. -/
theorem Grown.counted {granted : Bool} {n : Nat} (h : p.Grown address n granted q)
    (accounts : List Statistics) (output : List Output) :
    p.Grown address n granted { q with accounts, output } :=
  ⟨h.aligned, h.fresh, h.page?_eq, h.mem_locked_iff, h.registered_eq⟩

/-- A mapping of the process's own memory, and locks on its pages at most. -/
theorem grown_of_mapOwn {n : Nat} {space : Memory.AddressSpace} {granted : Bool}
    (hmap : p.space.mapOwn n = .ok (address, space)) (hrelocked : space.Relocked q.space)
    (hlocked : ∀ page, page ∈ q.space.locked ↔ page ∈ space.locked ∨
      granted = true ∧ page ∈ Memory.AddressSpace.mappingSpan address n)
    (hregistered : ∀ index, (q.dummy index).registered = (p.dummy index).registered) :
    p.Grown address n granted q := by
  have hmapped := Memory.AddressSpace.mapped_of_mapOwn hmap
  have hfirst : address / Page.size = p.space.nextPage := by
    rw [hmapped.base_eq, Nat.mul_div_cancel _ (by decide)]
  refine ⟨by rw [hmapped.base_eq, Nat.mul_mod_left], fun page hp => ?_,
    ⟨p.space.memories.length, fun page => ?_⟩, fun page => ?_, hregistered⟩
  · have hle := hmapped.le_of_mem hp
    refine ⟨Memory.AddressSpace.page?_eq_none_of_le hle, fun hlock => ?_⟩
    have hlt := p.space.locked_below page hlock
    omega
  · rw [hrelocked.page?_eq, hmapped.page?_eq, hfirst]
  · rw [hlocked, hmapped.locked_eq]

/-- Unmapping what was just mapped leaves the process as it was. -/
theorem sameMemory_release {n : Nat} {space : Memory.AddressSpace}
    (hmap : p.space.mapOwn n = .ok (address, space)) :
    p.SameMemory { p with space := space.release address n } := by
  have hmapped := Memory.AddressSpace.mapped_of_mapOwn hmap
  exact ⟨hmapped.page?_release, hmapped.mem_locked_release, fun _ => rfl⟩

theorem frees_of_mapOwn {space : Memory.AddressSpace} (hlength : Page.roundUp? bytes = some length)
    (hmap : p.space.mapOwn length.toNat = .ok (address, space))
    (hhigh : Memory.AddressSpace.wordPages ≤ p.space.nextPage) :
    Frees address bytes length.toNat := by
  intro r
  have hunmap := Memory.AddressSpace.unmap_of_mapOwn hmap hhigh r.space
  refine ⟨{ r with space := r.space.release address length.toNat }, ?_, rfl,
    Memory.AddressSpace.page?_release _ _ _, Memory.AddressSpace.mem_locked_release _ _ _⟩
  unfold hostFree
  rw [hlength]
  dsimp only
  rw [hunmap]

theorem LocksPages.dummies_eq {o : Outcome (Except DeviceError Unit)} {address : Nat}
    (h : p.LocksPages policy address length o q) : q.dummies = p.dummies := by
  cases h with
  | skipped | locked | refused => rfl
  | reported _ _ hemit => exact (wrote_of_emit hemit).dummies_eq

/-- Memory that was mapped and need not be locked, or was locked, or was reported not to be. -/
theorem LocksPages.grown {space : Memory.AddressSpace} (hlength : Page.roundUp? bytes = some length)
    (hmap : p.space.mapOwn length.toNat = .ok (address, space))
    (h : { p with space }.LocksPages policy address length (.returned (.ok ())) q) :
    p.Grown address length.toNat (p.hostGrants policy bytes) q := by
  have hmapped := Memory.AddressSpace.mapped_of_mapOwn hmap
  have hpages := Memory.AddressSpace.pagesFor_roundUp? hlength
  have haligned : address % Page.size = 0 := by rw [hmapped.base_eq, Nat.mul_mod_left]
  have hlatched := h.latched.1.mem_locked_iff
  rw [Memory.AddressSpace.touched_eq_mappingSpan haligned (hpages.1 ▸ hpages.2),
    ← hostGrants_eq policy hlength hmap] at hlatched
  refine grown_of_mapOwn hmap h.relocked hlatched fun index => ?_
  have hdummies : q.dummies = p.dummies := h.dummies_eq
  simp only [dummy, hdummies]

inductive HostEnds (p : Process) (policy : LockPolicy) (bytes : UInt64) :
    Outcome (Except DeviceError Nat) → Process → Prop
  | refused {error : DeviceError} {q : Process} (hsame : p.SameMemory q)
      (hlockable : policy = .bestEffort → ¬ p.Unlockable bytes) :
      HostEnds p policy bytes (.returned (.error error)) q
  | granted {length : UInt64} {address : Nat} {q : Process}
      (hlength : Page.roundUp? bytes = some length)
      (hgrown : p.Grown address length.toNat (p.hostGrants policy bytes) q)
      (hfrees : Frees address bytes length.toNat)
      (hlockable : policy = .bestEffort → p.Unlockable bytes →
        p.readStrictMode.1 ≠ .fatalWarnings) :
      HostEnds p policy bytes (.returned (.ok address)) q
  | fatal {length : UInt64} {address : Nat} {context : String} {q : Process}
      (hlength : Page.roundUp? bytes = some length)
      (hgrown : p.Grown address length.toNat false q)
      (hpolicy : policy = .bestEffort) (hlockable : p.Unlockable bytes)
      (hmode : p.readStrictMode.1 = .fatalWarnings) :
      HostEnds p policy bytes (.faulted (strictFault .lockFailed context)) q

theorem hostEnds (hmoves : ∃ pid, (Process.fresh pid).Moves p) (policy : LockPolicy)
    (bytes : UInt64) : p.HostEnds policy bytes (p.hostAllocate policy bytes).1
      (p.hostAllocate policy bytes).2 := by
  have hhigh : Memory.AddressSpace.wordPages ≤ p.space.nextPage := by
    obtain ⟨pid, h⟩ := hmoves
    exact Nat.le_trans Memory.AddressSpace.wordPages_le_firstPage h.nextPage_le
  unfold hostAllocate
  cases hlength : Page.roundUp? bytes with
  | none =>
    refine .refused (.refl p) ?_
    rintro - ⟨length, _, _, _, hrounds, -⟩
    cases hlength.symm.trans hrounds
  | some length =>
    dsimp only
    cases hmap : p.space.mapOwn length.toNat with
    | error e =>
      refine .refused (.refl p) ?_
      rintro - ⟨length', _, _, _, hrounds, hmaps, -⟩
      cases hlength.symm.trans hrounds
      cases hmap.symm.trans hmaps
    | ok mapped =>
      obtain ⟨address, space⟩ := mapped
      dsimp only
      have hlocks := locksPages { p with space } policy address length
      rcases hlocking : lockPages { p with space } policy address length with ⟨outcome, q⟩
      rw [hlocking] at hlocks
      dsimp only at hlocks
      have hfrees := frees_of_mapOwn hlength hmap hhigh
      cases hlocks with
      | skipped hpolicy =>
        refine .granted hlength (LocksPages.grown hlength hmap (.skipped hpolicy)) hfrees ?_
        rintro rfl
        cases hpolicy
      | locked hpolicy hlock =>
        refine .granted hlength (LocksPages.grown hlength hmap (.locked hpolicy hlock)) hfrees ?_
        rintro - ⟨length', address', space', error, hrounds, hmaps, hrefuses⟩
        cases hlength.symm.trans hrounds
        cases hmap.symm.trans hmaps
        cases hrefuses.symm.trans hlock
      | refused hpolicy hlock =>
        refine .refused (sameMemory_release hmap) ?_
        rintro rfl
        cases hpolicy
      | @reported error context o _ hpolicy hlock hemit =>
        have hlockable : p.Unlockable bytes := ⟨length, address, space, error, hlength, hmap, hlock⟩
        cases o with
        | returned _ =>
          refine .granted hlength
            (LocksPages.grown hlength hmap (.reported hpolicy hlock hemit)) hfrees ?_
          rintro - - hmode
          have hfatal : p.readStrictMode.1.warningsFatal = true := by
            rw [hmode]
            rfl
          cases hfatal.symm.trans (calm_of_emit hemit)
        | faulted fault =>
          obtain ⟨hfatal, rfl⟩ := fatal_of_emit hemit
          have hwrote := wrote_of_emit hemit
          have hmode : p.readStrictMode.1 = .fatalWarnings :=
            mode_eq_of_fatal (p := { p with space }) hfatal rfl
          have hgrown : p.Grown address length.toNat false q := by
            refine grown_of_mapOwn hmap (.of_eq hwrote.space_eq) (fun page => ?_) fun index => ?_
            · rw [hwrote.space_eq]
              simp
            · rw [dummy, hwrote.dummies_eq, dummy]
          exact .fatal hlength hgrown hpolicy hlockable hmode
        | aborted =>
          rcases emit_cases { p with space } .lockFailed context with ⟨u, hu⟩ | ⟨u, hu⟩
          · cases hu.symm.trans hemit
          · cases hu.symm.trans hemit

end Process

namespace Pinned

variable {r : Pinned} {bytes : UInt64} {p : Process}

/-- Counting what the device answered changes the account and the output. A block is handed out
unless the account has no room for it. -/
theorem allocated_eq (r : Pinned) (bytes : UInt64) (result : Except DeviceError Nat)
    (p : Process) : ∃ accounts output,
      (r.allocated bytes result p).2 = { p with accounts, output } ∧
      (r.allocated bytes result p).1 = match result with
        | .ok address =>
          if (p.account r.account).Fits bytes then .returned (.ok ⟨address, bytes⟩)
          else .faulted .addOverflow
        | .error e => .returned (.error (.device DeviceCall.allocate.name e)) := by
  cases result with
  | error e => exact ⟨_, _, rfl, rfl⟩
  | ok address =>
    simp only [allocated, Process.recordAllocation]
    by_cases hfits : (p.account r.account).Fits bytes
    · rw [Statistics.recordAllocation_of_fits hfits, if_pos hfits]
      exact ⟨_, _, rfl, rfl⟩
    · have hover : ((p.account r.account).recordAllocation bytes).1 = .faulted .addOverflow := by
        simp [Statistics.recordAllocation, Gauge.add, Gauge.overflows, Nat.not_lt.mp hfits]
      rw [hover, if_neg hfits]
      exact ⟨_, p.output, rfl, rfl⟩

end Pinned

open Process in
structure PinnedEnds (policy : LockPolicy) (account : Nat) (bytes : UInt64) (s : Site)
    (o : Outcome Reply) (t : Site) : Prop where
  kernel_eq : t.kernel = s.kernel
  /-- A block lies on its own fresh mapping, and freeing its bytes undoes the mapping. -/
  granted : ∀ block?, o = .returned (.allocated block?) → ∃ address length,
    block? = some ⟨address, bytes⟩ ∧ Page.roundUp? bytes = some length ∧
      s.process.Grown address length.toNat (s.process.hostGrants policy bytes) t.process ∧
      Frees address bytes length.toNat ∧
      ∃ u, t.process.hostFree address bytes = (.ok (), u) ∧ s.process.SameMemory u
  /-- Neither a block nor a fault, so nothing was mapped. -/
  unchanged : (∀ block?, o ≠ .returned (.allocated block?)) → (∀ fault, o ≠ .faulted fault) →
    s.process.SameMemory t.process
  lost_iff : (∃ context, o = .faulted (strictFault .lockFailed context)) ↔
    policy = .bestEffort ∧ s.process.Unlockable bytes ∧
      s.process.readStrictMode.1 = .fatalWarnings
  /-- Every fault loses a mapping. -/
  faulted : ∀ fault, o = .faulted fault → ∃ address length, Page.roundUp? bytes = some length ∧
    ((∃ context, fault = strictFault .lockFailed context) ∧
        s.process.Grown address length.toNat false t.process ∨
      fault = .addOverflow ∧ ¬ (s.process.account account).Fits bytes ∧
        s.process.Grown address length.toNat (s.process.hostGrants policy bytes) t.process)

/-- **Pinned memory of the host.** Asking for it ends at once, whatever the policy, the limit on
locks and the strict mode. It hands out a block with a mapping of its own, which freeing the block
undoes, or it refuses and leaves the mappings and the locks as they were, or it faults. Each fault
loses what was mapped: the one over pages that could not be locked, and the one of a gauge that
overflows. -/
theorem pinned_exact (policy : LockPolicy) (account : Nat) {bytes : UInt64} {s : Site}
    (hbytes : bytes ≠ 0) (hmoves : ∃ pid, (Process.fresh pid).Moves s.process) :
    ∃ o t, (⟨.pinned, .host policy, account⟩ : Resource).allocate bytes s = (.done o, t) ∧
      PinnedEnds policy account bytes s o t := by
  have hends := s.process.hostEnds hmoves policy bytes
  rcases hasked : s.process.hostAllocate policy bytes with ⟨asked, q⟩
  rw [hasked] at hends
  have hdevice : (Device.host policy).allocate s.process bytes = (asked, q) := by
    simp only [Device.allocate, hasked]
  have haccount : q.account account = s.process.account account := by
    simp only [Process.account, (Process.allocate_spec hdevice).1]
  simp only [Resource.allocate, Resource.beginAllocate, if_neg hbytes, Pinned.allocate, hdevice]
  cases hends with
  | @refused error _ hsame hlockable =>
    refine ⟨_, _, runAlone_done _ _ _, rfl, ?_, fun _ _ => ?_, ?_, ?_⟩
    · rintro _ ⟨⟩
    · exact ⟨hsame.page?_eq, hsame.mem_locked_iff, hsame.registered_eq⟩
    · constructor
      · rintro ⟨_, ⟨⟩⟩
      · rintro ⟨hpolicy, hunlockable, -⟩
        exact absurd hunlockable (hlockable hpolicy)
    · rintro _ ⟨⟩
  | @granted length address _ hlength hgrown hfrees hlockable =>
    obtain ⟨accounts, output, hafter, hresult⟩ :=
      Pinned.allocated_eq ⟨.host policy, account⟩ bytes (.ok address) q
    have hcounted := hgrown.counted accounts output
    have hnever : ¬ (policy = .bestEffort ∧ s.process.Unlockable bytes ∧
        s.process.readStrictMode.1 = .fatalWarnings) := by
      rintro ⟨hpolicy, hunlockable, hmode⟩
      exact hlockable hpolicy hunlockable hmode
    dsimp only at hresult ⊢
    rw [hafter, hresult]
    by_cases hfits : (q.account account).Fits bytes
    · rw [if_pos hfits]
      refine ⟨_, _, runAlone_done _ _ _, rfl, ?_, fun hno => absurd rfl (hno _),
        ⟨?_, fun h => absurd h hnever⟩, ?_⟩
      · rintro _ ⟨⟩
        exact ⟨address, length, rfl, hlength, hcounted, hfrees, hcounted.free hfrees⟩
      · rintro ⟨_, ⟨⟩⟩
      · rintro _ ⟨⟩
    · rw [if_neg hfits]
      refine ⟨_, _, runAlone_done _ _ _, rfl, ?_, fun _ hno => absurd rfl (hno _),
        ⟨?_, fun h => absurd h hnever⟩, ?_⟩
      · rintro _ ⟨⟩
      · rintro ⟨_, ⟨⟩⟩
      · rintro _ ⟨⟩
        exact ⟨address, length, hlength, Or.inr ⟨rfl, haccount ▸ hfits, hcounted⟩⟩
  | @fatal length address context _ hlength hgrown hpolicy hunlockable hmode =>
    refine ⟨_, _, runAlone_done _ _ _, rfl, ?_, fun _ hno => absurd rfl (hno _),
      ⟨fun _ => ⟨hpolicy, hunlockable, hmode⟩, fun _ => ⟨context, rfl⟩⟩, ?_⟩
    · rintro _ ⟨⟩
    · rintro _ ⟨⟩
      exact ⟨address, length, hlength, Or.inl ⟨⟨context, rfl⟩, hgrown⟩⟩

theorem unlockable_lockless : lockless.process.Unlockable 4096 :=
  ⟨4096, _, _, .notPermitted, by decide, rfl, rfl⟩

/-- Where no page can be locked and warnings are fatal, best effort loses what it maps. -/
theorem pinned_exact_lockless : ∃ context address t,
    (⟨.pinned, .host .bestEffort, 0⟩ : Resource).allocate 4096 lockless =
      (.done (.faulted (Process.strictFault .lockFailed context)), t) ∧
    lockless.process.Grown address 4096 false t.process := by
  obtain ⟨o, t, hallocate, hends⟩ := pinned_exact .bestEffort 0
    (by decide : (4096 : UInt64) ≠ 0) (s := lockless) ⟨1, rfl, fun _ _ _ h => h, Nat.le_refl _⟩
  obtain ⟨context, rfl⟩ := hends.lost_iff.mpr ⟨rfl, unlockable_lockless, by decide⟩
  obtain ⟨address, length, hlength, hlost | ⟨hover, -⟩⟩ := hends.faulted _ rfl
  · cases hlength.symm.trans (by decide : Page.roundUp? 4096 = some 4096)
    exact ⟨context, address, t, hallocate, hlost.2⟩
  · cases hover

/-- So what hands out no block need not leave the mappings as they were. -/
theorem pinned_fault_leaks :
    ((⟨.pinned, .host .bestEffort, 0⟩ : Resource).allocate 4096 lockless).1.fault?.isSome ∧
      ¬ lockless.process.SameMemory
        ((⟨.pinned, .host .bestEffort, 0⟩ : Resource).allocate 4096 lockless).2.process := by
  refine ⟨by decide +kernel, fun hsame => ?_⟩
  have hpage := hsame.page?_eq Memory.AddressSpace.firstPage
  revert hpage
  decide +kernel

end StagingMemory
