import StagingMemory.Proofs.Alignment
import StagingMemory.Proofs.Traffic
/-!
Locking and unlocking pages on the host. A lock that is granted locks all pages that a range
touches, and one that is refused locks none; what the policy then makes of a refusal, an error, a
report or nothing, is what the caller sees. For a range that begins on a page these are the pages
that its bytes are rounded up to, so that unmapping the rounded range takes off exactly these locks.
Main statements: who answers that a range is locked has locked it if that was granted, and otherwise
was not asked to or has reported it (`Process.LocksPages.latched`, and
`Process.HostAllocates.latched` for memory of the host's own); where nothing is handed out nothing
stays locked (`Process.HostAllocates.unlatched`).
-/
namespace StagingMemory

/-! ### Ranges of whole pages -/

namespace Memory.AddressSpace

/-- A range that begins on a page, and that is not as long as all words, touches as many pages as
hold its bytes. -/
theorem touched_eq_mappingSpan {address length : Nat} (haligned : address % Page.size = 0)
    (hshort : pagesFor length < wordPages) :
    touched address length = mappingSpan address length := by
  simp only [touched, mappingSpan, haligned, Nat.zero_add, Nat.mod_eq_of_lt hshort]

/-- Rounding up takes no more pages, and fewer than all words have. -/
theorem pagesFor_roundUp? {bytes length : UInt64} (h : Page.roundUp? bytes = some length) :
    pagesFor length.toNat = pagesFor bytes.toNat ∧ pagesFor bytes.toNat < wordPages := by
  have hlength := Page.roundUp?_eq_some_iff.mp h
  have hlt : length.toNat < Size.wordValues := length.toNat_lt
  simp only [pagesFor, wordPages, hlength, Page.size, Size.wordValues] at hlength hlt ⊢
  omega

theorem mappingSpan_roundUp? {bytes length : UInt64} (h : Page.roundUp? bytes = some length)
    (address : Nat) : mappingSpan address length.toNat = mappingSpan address bytes.toNat := by
  simp only [mappingSpan, (pagesFor_roundUp? h).1]

theorem mapped_of_mapOwn {a b : AddressSpace} {length address : Nat}
    (h : a.mapOwn length = .ok (address, b)) :
    a.Mapped length (.own a.memories.length) address b := by
  have hmapped := mapped_of_map_eq_ok h
  exact ⟨hmapped.length_pos, hmapped.base_eq, hmapped.nextPage_eq, hmapped.locked_eq,
    hmapped.lockLimit_eq, hmapped.page?_eq⟩

theorem mem_locked_of_lock {a b : AddressSpace} {address length : Nat}
    (h : a.lock address length = .ok b) : wraps (touched address length) = false ∧
      ∀ page, page ∈ b.locked ↔ page ∈ touched address length ∨ page ∈ a.locked := by
  unfold lock at h
  dsimp only at h
  split at h
  · cases h
  · split at h
    · cases h
    · split at h
      · cases h
      case isFalse hwraps =>
        split at h
        · cases h
          exact ⟨Bool.not_eq_true _ ▸ hwraps, PageSet.mem_insert a.locked _⟩
        · cases h

end Memory.AddressSpace

/-! ### What is told of a diagnostic -/

/-- The line tells the log of the diagnostic, under whatever circumstances. Every report has such a
line, also of a process that is quiet and has no sink. -/
def Output.tells (d : Diagnostic) : Output → Bool
  | logged line => line.level == (⟨d, none⟩ : Report).logLevel &&
      ("[" ++ d.code ++ "]").toList.isPrefixOf line.text.toList
  | _ => false

/-- What is noted of the memory that was asked for in a slot: under which policy its pages were to
be locked, whether it was then reported that they could not be, and whether the kernel granted it.
-/
structure LockNote where
  policy : LockPolicy
  warned : Bool
  granted : Bool
  deriving DecidableEq, Repr

/-- Memory is handed out under `required` if the lock was granted, under `bestEffort` if it was
granted or else was reported, and under `disabled` without a lock. -/
def LockNote.Settled (n : LockNote) : Prop :=
  n.granted = match n.policy with
    | .required => true
    | .bestEffort => !n.warned
    | .disabled => false

namespace Process

def told (p q : Process) (d : Diagnostic) : Bool :=
  (q.output.drop p.output.length).any (Output.tells d)

theorem told_congr {p q r : Process} (h : r.output = q.output) (d : Diagnostic) :
    p.told r d = p.told q d := by
  rw [told, h, told]

theorem told_self_nothing (p : Process) (d : Diagnostic) : p.told p d = false := by
  simp [told]

theorem Spoke.told_eq {p q : Process} {more : List Output} (h : p.Spoke more q) (d : Diagnostic) :
    p.told q d = more.any (Output.tells d) := by
  rw [told, h.output_eq, List.drop_left]

/-- A report tells in the line with its code. The line with its help is for those who look closely.
-/
theorem any_tells_notice (p : Process) (r : Report) (d : Diagnostic) :
    (p.notice r).any (Output.tells d) = Output.tells d (.logged ⟨r.logLevel,
      "[" ++ r.diagnostic.code ++ "] " ++ r.diagnostic.message ++ " " ++ r.context.getD ""⟩) := by
  have hlevel : ∀ text, Output.tells d (.logged ⟨.debug, text⟩) = false := fun text => by
    unfold Output.tells Report.logLevel
    cases d.severity <;> rfl
  have hprinted : ∀ r', Output.tells d (.printed r') = false := fun _ => rfl
  have hdelivered : ∀ sink, Output.tells d (.delivered sink r) = false := fun _ => rfl
  unfold notice Report.logLines
  cases p.quiet <;> cases p.sink <;> cases r.diagnostic.help <;>
    simp [hlevel, hprinted, hdelivered]

theorem told_self (p : Process) (r : Report) :
    (p.notice r).any (Output.tells r.diagnostic) = true := by
  rw [any_tells_notice]
  simp [Output.tells, Report.logLevel, String.toList_append, List.append_assoc]

/-- A report of another severity does not tell of the diagnostic. -/
theorem untold_of_logLevel (p : Process) {r : Report} {d : Diagnostic}
    (h : r.logLevel ≠ (⟨d, none⟩ : Report).logLevel) :
    (p.notice r).any (Output.tells d) = false := by
  rw [any_tells_notice]
  simp [Output.tells, h]

/-- Nor does one with another code of the same length. -/
theorem untold_of_code (p : Process) {r : Report} {d : Diagnostic}
    (hlength : r.diagnostic.code.toList.length = d.code.toList.length)
    (h : r.diagnostic.code ≠ d.code) : (p.notice r).any (Output.tells d) = false := by
  rw [any_tells_notice]
  refine Bool.eq_false_iff.mpr fun htells => h (String.toList_inj.mp ?_)
  simp only [Output.tells, Bool.and_eq_true, List.isPrefixOf_iff_prefix, String.toList_append,
    List.append_assoc] at htells
  have hprefix := (List.prefix_append_right_inj _).mp htells.2
  have hcode : d.code.toList <+: r.diagnostic.code.toList ++ _ :=
    (List.prefix_append ..).trans hprefix
  exact ((List.prefix_of_prefix_length_le hcode (List.prefix_append ..)
    (Nat.le_of_eq hlength.symm)).eq_of_length hlength.symm).symm

/-! ### Locking and unlocking on the host -/

def grants (p : Process) (policy : LockPolicy) (address : Nat) (bytes : UInt64) : Bool :=
  policy != .disabled && (p.space.lock address bytes.toNat).isOk

def hostGrants (p : Process) (policy : LockPolicy) (bytes : UInt64) : Bool :=
  match Page.roundUp? bytes with
  | none => false
  | some length =>
    match p.space.mapOwn length.toNat with
    | .error _ => false
    | .ok (address, space) => { p with space }.grants policy address length

theorem hostGrants_eq {p : Process} {bytes length : UInt64} {address : Nat}
    {space : Memory.AddressSpace} (policy : LockPolicy)
    (hlength : Page.roundUp? bytes = some length)
    (hmap : p.space.mapOwn length.toNat = .ok (address, space)) :
    p.hostGrants policy bytes = { p with space }.grants policy address length := by
  unfold hostGrants
  rw [hlength]
  dsimp only
  rw [hmap]

inductive LocksPages (p : Process) (policy : LockPolicy) (address : Nat) (bytes : UInt64) :
    Outcome (Except DeviceError Unit) → Process → Prop
  | skipped (hpolicy : policy = .disabled) :
      LocksPages p policy address bytes (.returned (.ok ())) p
  | locked {space : Memory.AddressSpace} (hpolicy : policy ≠ .disabled)
      (h : p.space.lock address bytes.toNat = .ok space) :
      LocksPages p policy address bytes (.returned (.ok ())) { p with space }
  | refused {error : SystemError} (hpolicy : policy = .required)
      (h : p.space.lock address bytes.toNat = .error error) :
      LocksPages p policy address bytes (.returned (.error (.system "mlock" error))) p
  | reported {error : SystemError} {context : String} {o : Outcome Unit} {q : Process}
      (hpolicy : policy = .bestEffort) (h : p.space.lock address bytes.toNat = .error error)
      (hemit : p.emit .lockFailed context = (o, q)) :
      LocksPages p policy address bytes (o.map fun _ => .ok ()) q

theorem locksPages (p : Process) (policy : LockPolicy) (address : Nat) (bytes : UInt64) :
    p.LocksPages policy address bytes (p.lockPages policy address bytes).1
      (p.lockPages policy address bytes).2 := by
  unfold lockPages
  cases policy with
  | disabled => exact .skipped rfl
  | required | bestEffort =>
    dsimp only
    split
    case h_1 hlock => exact .locked nofun hlock
    case h_2 error hlock =>
      first
      | exact .refused rfl hlock
      | exact .reported rfl hlock rfl

/-- The pages were locked, if that was granted, and nothing else was. -/
structure Latched (p : Process) (granted : Bool) (pages : Memory.Span) (q : Process) : Prop where
  mem_locked_iff : ∀ page,
    page ∈ q.space.locked ↔ page ∈ p.space.locked ∨ granted = true ∧ page ∈ pages
  wraps_eq : granted = true → Memory.AddressSpace.wraps pages = false

theorem latched_nothing {p q : Process} {granted : Bool} {pages : Memory.Span}
    (hspace : q.space.locked = p.space.locked) (hgranted : granted = false) :
    p.Latched granted pages q := by
  subst hgranted
  refine ⟨fun page => ?_, nofun⟩
  simp [hspace]

namespace LocksPages

variable {p q : Process} {policy : LockPolicy} {address : Nat} {bytes : UInt64}
  {o : Outcome (Except DeviceError Unit)}

theorem relocked (h : p.LocksPages policy address bytes o q) : p.space.Relocked q.space := by
  cases h with
  | skipped | refused => exact .refl _
  | locked _ h => exact Memory.AddressSpace.relocked_of_lock h
  | reported _ _ hemit => exact .of_eq (wrote_of_emit hemit).space_eq

theorem spoke (h : p.LocksPages policy address bytes o q) : ∃ more, p.Spoke more q := by
  cases h with
  | skipped | refused | locked => exact ⟨[], spoke_nothing ⟨rfl, rfl, rfl⟩ rfl⟩
  | @reported _ context _ _ _ _ hemit =>
    have hspoke := (p.emit_spec .lockFailed context).2
    rw [hemit] at hspoke
    exact ⟨_, hspoke⟩

/-- Who answers that the pages are locked has locked them if that was granted, and otherwise was not
asked to or has reported it. -/
theorem latched (h : p.LocksPages policy address bytes (.returned (.ok ())) q) :
    p.Latched (p.grants policy address bytes) (Memory.AddressSpace.touched address bytes.toNat) q ∧
      (LockNote.mk policy (p.told q .lockFailed) (p.grants policy address bytes)).Settled := by
  generalize ho : Outcome.returned (Except.ok ()) = o at h
  cases h with
  | skipped hpolicy =>
    subst hpolicy
    exact ⟨latched_nothing rfl rfl, rfl⟩
  | @locked space hpolicy h =>
    obtain ⟨hwraps, hlocked⟩ := Memory.AddressSpace.mem_locked_of_lock h
    have htold : p.told { p with space } .lockFailed = false :=
      (told_congr rfl _).trans (p.told_self_nothing _)
    have hgranted : p.grants policy address bytes = true := by
      simp [grants, hpolicy, h, Except.isOk, Except.toBool]
    refine ⟨⟨fun page => by rw [hgranted, hlocked]; simp [or_comm], fun _ => hwraps⟩, ?_⟩
    rw [htold, hgranted]
    cases policy <;> trivial
  | refused => cases ho
  | @reported _ context _ _ hpolicy h hemit =>
    have hspoke := (p.emit_spec .lockFailed context).2
    rw [hemit] at hspoke
    have htold : p.told q .lockFailed = true := (hspoke.told_eq .lockFailed).trans (told_self p _)
    have hgranted : p.grants policy address bytes = false := by
      simp [grants, h, Except.isOk, Except.toBool]
    rw [htold, hgranted, hpolicy]
    exact ⟨latched_nothing (congrArg _ (wrote_of_emit hemit).space_eq) rfl, rfl⟩

theorem locked_eq_of_ne (h : p.LocksPages policy address bytes o q) (hne : o ≠ .returned (.ok ())) :
    q.space.locked = p.space.locked := by
  cases h with
  | skipped | locked => exact absurd rfl hne
  | refused => rfl
  | reported _ _ hemit => exact congrArg _ (wrote_of_emit hemit).space_eq

end LocksPages

inductive HostAllocates (p : Process) (policy : LockPolicy) (bytes : UInt64) :
    Outcome (Except DeviceError Nat) → Process → Prop
  | refused (error : DeviceError) : HostAllocates p policy bytes (.returned (.error error)) p
  | granted {length : UInt64} {address : Nat} {space : Memory.AddressSpace} {q : Process}
      (hlength : Page.roundUp? bytes = some length)
      (hmap : p.space.mapOwn length.toNat = .ok (address, space))
      (hlocks : { p with space }.LocksPages policy address length (.returned (.ok ())) q) :
      HostAllocates p policy bytes (.returned (.ok address)) q
  | unlocked {length : UInt64} {address : Nat} {space : Memory.AddressSpace} {q : Process}
      {error : DeviceError}
      (hmap : p.space.mapOwn length.toNat = .ok (address, space))
      (hlocks : { p with space }.LocksPages policy address length (.returned (.error error)) q) :
      HostAllocates p policy bytes (.returned (.error error))
        { q with space := q.space.release address length.toNat }
  | fatal {length : UInt64} {address : Nat} {space : Memory.AddressSpace} {q : Process}
      {fault : Fault}
      (hmap : p.space.mapOwn length.toNat = .ok (address, space))
      (hlocks : { p with space }.LocksPages policy address length (.faulted fault) q) :
      HostAllocates p policy bytes (.faulted fault) q

theorem hostAllocates (p : Process) (policy : LockPolicy) (bytes : UInt64) :
    p.HostAllocates policy bytes (p.hostAllocate policy bytes).1
      (p.hostAllocate policy bytes).2 := by
  unfold hostAllocate
  cases hlength : Page.roundUp? bytes with
  | none => exact .refused _
  | some length =>
    dsimp only
    cases hmap : p.space.mapOwn length.toNat with
    | error e => exact .refused _
    | ok mapped =>
      obtain ⟨address, space⟩ := mapped
      dsimp only
      have hlocks := locksPages { p with space } policy address length
      rcases hlocking : lockPages { p with space } policy address length with ⟨outcome, q⟩
      rw [hlocking] at hlocks
      obtain ⟨-, -, hne, -⟩ := kept_of_lockPages hlocking
      cases outcome with
      | returned result =>
        cases result with
        | ok _ => exact .granted hlength hmap hlocks
        | error e => exact .unlocked hmap hlocks
      | faulted fault => exact .fatal hmap hlocks
      | aborted => exact absurd rfl hne

namespace HostAllocates

variable {p q : Process} {policy : LockPolicy} {bytes : UInt64}
  {o : Outcome (Except DeviceError Nat)} {address : Nat}

theorem spoke (h : p.HostAllocates policy bytes o q) : ∃ more, p.Spoke more q := by
  cases h with
  | refused => exact ⟨[], spoke_nothing (.refl _) rfl⟩
  | granted _ _ hlocks | unlocked _ hlocks | fatal _ hlocks =>
    obtain ⟨more, hspoke⟩ := hlocks.spoke
    exact ⟨more, ⟨hspoke.mode_eq, hspoke.quiet_eq, hspoke.sink_eq⟩, hspoke.output_eq⟩

/-- What is handed out lies on fresh pages, which are locked if that was granted. -/
theorem latched (h : p.HostAllocates policy bytes (.returned (.ok address)) q) :
    address % Page.size = 0 ∧
      Memory.AddressSpace.pagesFor bytes.toNat < Memory.AddressSpace.wordPages ∧
      p.space.Claims none (some (Memory.AddressSpace.mappingSpan address bytes.toNat)) q.space ∧
      (∀ page ∈ Memory.AddressSpace.mappingSpan address bytes.toNat, q.space.Occupied page) ∧
      p.Latched (p.hostGrants policy bytes)
        (Memory.AddressSpace.mappingSpan address bytes.toNat) q ∧
      (LockNote.mk policy (p.told q .lockFailed) (p.hostGrants policy bytes)).Settled := by
  cases h with
  | @granted length _ space _ hlength hmap hlocks =>
    have hmapped := Memory.AddressSpace.mapped_of_mapOwn hmap
    have hpages := Memory.AddressSpace.pagesFor_roundUp? hlength
    have hspan := Memory.AddressSpace.mappingSpan_roundUp? hlength address
    have haligned : address % Page.size = 0 := by rw [hmapped.base_eq, Nat.mul_mod_left]
    have hgrants := hostGrants_eq policy hlength hmap
    obtain ⟨hlatched, hsettled⟩ := hlocks.latched
    rw [Memory.AddressSpace.touched_eq_mappingSpan haligned (hpages.1 ▸ hpages.2), hspan,
      ← hgrants] at hlatched
    rw [← hgrants] at hsettled
    have hpage? : ∀ page, q.space.page? page = space.page? page := hlocks.relocked.page?_eq
    have hclaims := hmapped.claims
    rw [hspan] at hclaims
    refine ⟨haligned, hpages.2,
      ⟨fun page hp hout => (hpage? page).trans (hclaims.page?_eq page hp hout), hclaims.fresh⟩,
      fun page hp => ?_, ⟨fun page => ?_, hlatched.wraps_eq⟩, hsettled⟩
    · rw [Memory.AddressSpace.Occupied, hpage?, hmapped.page?_eq, if_pos (hspan ▸ hp)]
      rfl
    · rw [hlatched.mem_locked_iff, hmapped.locked_eq]

/-- Where nothing is handed out, what was mapped stays as it was, and no more is locked. -/
theorem unlatched (h : p.HostAllocates policy bytes o q)
    (hne : ∀ address, o ≠ .returned (.ok address)) :
    p.space.Claims none none q.space ∧ ∀ page, page ∈ q.space.locked ↔ page ∈ p.space.locked := by
  cases h with
  | refused => exact ⟨.refl _ none, fun _ => Iff.rfl⟩
  | granted => exact absurd rfl (hne _)
  | @unlocked length address space r _ hmap hlocks =>
    have hmapped := Memory.AddressSpace.mapped_of_mapOwn hmap
    have hlocked : r.space.locked = space.locked := hlocks.locked_eq_of_ne (by simp)
    have hrelocked : space.Relocked r.space := hlocks.relocked
    refine ⟨⟨fun page _ _ => ?_, by simp⟩, fun page => ?_⟩
    · rw [Memory.AddressSpace.page?_release, hrelocked.page?_eq,
        ← Memory.AddressSpace.page?_release, hmapped.page?_release]
    · rw [Memory.AddressSpace.mem_locked_release, hlocked,
        ← Memory.AddressSpace.mem_locked_release, hmapped.mem_locked_release]
  | @fatal length address space r _ hmap hlocks =>
    have hmapped := Memory.AddressSpace.mapped_of_mapOwn hmap
    have hlocked : q.space.locked = space.locked := hlocks.locked_eq_of_ne (by simp)
    have hrelocked : space.Relocked q.space := hlocks.relocked
    refine ⟨⟨fun page hp hout => ?_, by simp⟩, fun page => ?_⟩
    · rw [hrelocked.page?_eq]
      exact hmapped.claims.page?_eq page hp hout
    · rw [hlocked, hmapped.locked_eq]

end HostAllocates

/-- What the process does for itself is not told as a report. -/
theorem told_trace {p q : Process} {more : List Output} (h : p.Spoke more q) (text : String) :
    p.told (q.trace text) .lockFailed = p.told q .lockFailed := by
  have htraced : p.Spoke (more ++ [.logged ⟨.debug, text⟩]) (q.trace text) :=
    ⟨⟨h.mode_eq, h.quiet_eq, h.sink_eq⟩, by
      rw [trace, write, h.output_eq, List.append_assoc]⟩
  rw [htraced.told_eq, h.told_eq, List.any_append]
  exact Bool.or_false _

/-- What was freed is unmapped, all of its pages. -/
theorem space_of_hostFree {p q : Process} {address : Nat} {bytes : UInt64}
    (h : p.hostFree address bytes = (.ok (), q)) :
    q = { p with space := p.space.release address bytes.toNat } := by
  unfold hostFree at h
  split at h
  · cases h
  case h_2 length hlength =>
    split at h
    · cases h
    case h_2 space hunmap =>
      cases h
      unfold Memory.AddressSpace.unmap at hunmap
      split at hunmap <;> cases hunmap
      simp only [Memory.AddressSpace.release, Memory.AddressSpace.mappingSpan_roundUp? hlength]

end Process

namespace Resource

variable {r : Resource} {policy : LockPolicy} {bytes : UInt64} {block : Block} {s : Site}

/-- Asking for pinned memory is asking the host and counting the answer, which locks nothing and
reports nothing. -/
theorem beginAllocate_host (hkind : r.kind = .pinned) (hdevice : r.device = .host policy)
    (hbytes : bytes ≠ 0) (hroomy : r.Roomy bytes s.process) :
    ∃ o q, s.process.HostAllocates policy bytes o q ∧
      (r.beginAllocate bytes s).2.process.space = q.space ∧
      s.process.told (r.beginAllocate bytes s).2.process .lockFailed =
        s.process.told q .lockFailed ∧
      Stage.after (r.beginAllocate bytes s).1 = match o with
        | .returned (.ok address) => .holding ⟨address, bytes⟩
        | _ => .idle := by
  obtain ⟨strategy, device, account⟩ := r
  cases strategy with
  | shared => cases hkind
  | pinned =>
    cases hdevice
    rw [beginAllocate, if_neg hbytes]
    have hallocates := s.process.hostAllocates policy bytes
    simp only [Roomy, Device.allocate] at hroomy
    simp only [Pinned.allocate, Device.allocate]
    cases hasked : s.process.hostAllocate policy bytes with
    | mk o q =>
      rw [hasked] at hallocates hroomy
      have hdevice : (Device.host policy).allocate s.process bytes = (o, q) := by
        simp only [Device.allocate, hasked]
      have haccounts := (Process.allocate_spec hdevice).1
      refine ⟨o, q, hallocates, ?_⟩
      cases o with
      | aborted => cases hallocates
      | faulted => exact ⟨rfl, Process.told_congr rfl _, rfl⟩
      | returned answer =>
        cases answer with
        | error e => exact ⟨rfl, Process.told_congr rfl _, rfl⟩
        | ok address =>
          have hroom : (q.account account).Fits bytes := by
            simp only [Process.account, haccounts]
            exact hroomy
          obtain ⟨more, hspoke⟩ := hallocates.spoke
          simp only [Pinned.allocated, Process.recordAllocation,
            Statistics.recordAllocation_of_fits hroom]
          have hcounted : s.process.Spoke more (q.modifyAccount account fun a =>
              (a.recordAllocation bytes).2) :=
            ⟨⟨hspoke.mode_eq, hspoke.quiet_eq, hspoke.sink_eq⟩, hspoke.output_eq⟩
          exact ⟨rfl, (Process.told_trace hcounted _).trans (Process.told_congr rfl _), rfl⟩

/-- Releasing pinned memory unmaps it, or the process ends. -/
theorem beginRelease_host (hkind : r.kind = .pinned) (hdevice : r.device = .host policy)
    (hgoes : (r.beginRelease block s).1 ≠ .done .aborted) :
    Stage.after (r.beginRelease block s).1 = .idle ∧ (r.beginRelease block s).2.process.space =
      s.process.space.release block.address block.bytes.toNat := by
  obtain ⟨strategy, device, account⟩ := r
  cases strategy with
  | shared => cases hkind
  | pinned =>
    cases hdevice
    simp only [beginRelease, Pinned.release, Device.free] at hgoes ⊢
    cases hfreed : s.process.hostFree block.address block.bytes with
    | mk answer q =>
      rw [hfreed] at hgoes
      cases answer with
      | error e => exact absurd rfl hgoes
      | ok _ =>
        have hspace := Process.space_of_hostFree hfreed
        subst hspace
        exact ⟨rfl, rfl⟩

end Resource

end StagingMemory
