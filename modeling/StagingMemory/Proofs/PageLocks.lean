import StagingMemory.Proofs.Locking
/-!
Which pages of a process are locked, over any run of requests to resources on the host, under any
mix of lock policies. Pages of a shared block are locked and unlocked by calls of their own, those
of a pinned block are unmapped with their locks, and the device that a block goes back through may
have another policy than the one that handed it out. What carries the proofs is that no page is in
use twice, so that each slot answers for its own pages alone; and that a shared block stays locked
until its mapping is gone where nothing unlocks it. Main statement: the pages are locked of exactly
those outstanding blocks of which the lock was granted (`Depot.locks_of_traffic`).
-/
namespace StagingMemory

theorem Device.exists_policy {d : Device} (h : d.backend = .host) : ∃ policy, d = .host policy := by
  cases d with
  | host policy => exact ⟨policy, rfl⟩
  | dummy => cases h

/-! ### What is locked, and for whom -/

def Block.pages (block : Block) : Memory.Span :=
  Memory.AddressSpace.mappingSpan block.address block.bytes.toNat

theorem Block.exists_mem_pages {block : Block} (h : block.bytes ≠ 0) :
    ∃ page, page ∈ block.pages := by
  have hpos : block.bytes.toNat ≠ 0 := fun hzero => h (UInt64.toNat_inj.mp hzero)
  refine ⟨block.address / Page.size, ?_⟩
  simp only [pages, Memory.AddressSpace.mappingSpan, Memory.AddressSpace.pagesFor,
    Memory.Span.mem_def, Page.size]
  omega

/-- The block of which the pages are locked if that was granted: of an allocation from the moment on
at which it registers its payload; of a release until it unregisters it, or until it unmaps it where
the device it unregisters with locks nothing and unlocks nothing. -/
def Call.lockable? : Call → Option Block
  | attach a phase => a.registered? phase
  | detach d .unregister => some d.block
  | detach d _ => if d.device = .host .disabled then some d.block else none

def Stage.lockable? : Stage → Option Block
  | calling c => c.lockable?
  | holding block => some block
  | _ => none

/-- A step neither locks nor unlocks: the block in question stays the same, or the mapping is
unmapped with all of its locks. -/
inductive LeavesLocks (s : Site) (before : Option Block) (m? : Option Mapping) :
    Option Block → Site → Prop
  | keeps {t : Site} (h : t.process.space.locked = s.process.space.locked) :
      LeavesLocks s before m? before t
  | unmaps {t : Site} {m : Mapping} (hm : m? = some m)
      (h : ∀ page, page ∈ t.process.space.locked ↔ page ∈ s.process.space.locked ∧ page ∉ m.span) :
      LeavesLocks s before m? none t

namespace Attach

def preparing : Phase → Bool
  | .undo _ _ | .publishBytes _ | .publishJoined _ | .publishLive _ | .publishState _ | .finish _
  | .fail _ => false
  | _ => true

variable {a : Attach} {phase : Phase} {s t : Site} {progress : Progress Phase Result}

/-- A call begins with no payload registered, unless its deadline cannot be set. -/
theorem begin_cases (a : Attach) (s : Site) :
    (∃ phase, a.begin s = (.running phase, s) ∧ a.registered? phase = none ∧
        ((∃ error, phase = .fail error) ∨ a.total < Size.wordValues)) ∨
      a.begin s = (.done (.faulted .deadlineOverflow), s) := by
  unfold begin
  split
  · exact Or.inl ⟨_, rfl, rfl, Or.inl ⟨_, rfl⟩⟩
  case isFalse htotal =>
    have hlt := Nat.not_le.mp htotal
    split
    · refine Or.inl ⟨_, rfl, ?_, Or.inr hlt⟩
      split <;> rfl
    · split
      · exact Or.inl ⟨_, rfl, rfl, Or.inr hlt⟩
      · exact Or.inr rfl

theorem locked_undone (a : Attach) (s : Site) (m : Mapping) (page : Nat) :
    page ∈ (a.undone s m).process.space.locked ↔ page ∈ s.process.space.locked ∧ page ∉ m.span := by
  unfold undone
  split <;> exact Memory.AddressSpace.mem_locked_release ..

namespace Transition

/-- No step but the one that registers locks or unlocks anything. -/
theorem leavesLocks (h : Transition a phase s progress t) (hphase : ∀ m, phase ≠ .register m)
    (hroomy : a.Roomy s phase) (hgoes : progress ≠ .done .aborted) :
    LeavesLocks s (a.registered? phase) (mapping? phase)
      (Stage.after (progress.map (.attach a) .ofResult)).lockable? t := by
  cases h with
  | leftoverMapped h | mapped h | foundMapped h =>
    exact .keeps (Site.mapped_of_mapSegment h).2.2.2.locked_eq
  | leftoverReported h | leftoverFatal h =>
    exact .keeps (congrArg _ (Process.wrote_of_emit h).space_eq)
  | created h => exact .keeps (by rw [(Site.created_of_createSegment h).2])
  | resized h => exact .keeps (by rw [Site.of_resizeSegment h])
  | leftoverOwned | leftoverRetired | unready | orphaned | mismatched | withdrawn =>
    exact .unmaps rfl (Memory.AddressSpace.mem_locked_release _ _ _)
  | undoneError | undoneFault => exact .unmaps rfl (a.locked_undone s _)
  | undoneAbort => exact absurd rfl hgoes
  | registered | unregistered | registerFatal => exact absurd rfl (hphase _)
  | @finished _ m o p h =>
    obtain ⟨hbooked, ho⟩ := succeeded_spec h
    have hroom : (s.process.account a.account).bytes.current.toNat + a.bytes.toNat < UInt64.size :=
      hroomy rfl
    rw [if_pos hroom] at ho
    subst ho
    exact .keeps (congrArg _ hbooked.space_eq)
  | failed h =>
    obtain ⟨hbooked, ho⟩ := failed_spec h
    rcases ho with rfl | ⟨_, _, _, rfl⟩ <;> exact .keeps (congrArg _ hbooked.space_eq)
  | _ => exact .keeps rfl

theorem preparing_of (h : Transition a phase s (.running next) t) (hnext : preparing next = true) :
    preparing phase = true ∧ ∀ m, phase ≠ .register m := by
  cases h with
  | registered => split at hnext <;> cases hnext
  | unregistered | registerFatal => cases hnext
  | _ => first | exact ⟨rfl, nofun⟩ | cases hnext

/-- No step but the one that registers reports that pages could not be locked. -/
theorem untold (h : Transition a phase s progress t) (hphase : ∀ m, phase ≠ .register m) :
    s.process.told t.process .lockFailed = false := by
  rw [h.spoke.told_eq]
  cases phase with
  | register m => exact absurd rfl (hphase m)
  | reportLeftover =>
    have hlength : Diagnostic.staleRemoved.code.toList.length =
      Diagnostic.lockFailed.code.toList.length := by decide
    have hcode : Diagnostic.staleRemoved.code ≠ Diagnostic.lockFailed.code := by decide
    exact s.process.untold_of_code hlength hcode
  | fail e =>
    rw [List.any_eq_false]
    intro output hmem
    obtain ⟨r, hr, hmem⟩ := List.mem_flatMap.mp hmem
    have herror : r.logLevel = .error := by
      rw [Option.mem_toList] at hr
      unfold errorReport? at hr
      cases e <;> cases hr <;> rfl
    have huntold := s.process.untold_of_logLevel (r := r) (d := .lockFailed) (herror ▸ nofun)
    exact List.any_eq_false.mp huntold output hmem
  | _ => rfl

theorem register_cases {policy : LockPolicy} {m : Mapping}
    (h : Transition a (.register m) s progress t) (hdevice : a.device = .host policy) :
    (s.process.LocksPages policy m.payload a.bytes (.returned (.ok ())) t.process ∧
        progress = .running (if a.config.isLeader then .publishBytes m else .finish m)) ∨
      t.process.space.locked = s.process.space.locked ∧
        ∃ ending, progress = .running (.undo m ending) := by
  have hlocks := s.process.locksPages policy m.payload a.bytes
  have hregister : a.device.register s.process m.payload a.bytes .portable =
      s.process.lockPages policy m.payload a.bytes := by
    rw [hdevice]
    rfl
  cases h with
  | registered h =>
    rw [← hregister, h] at hlocks
    exact Or.inl ⟨hlocks, rfl⟩
  | unregistered h | registerFatal h =>
    rw [← hregister, h] at hlocks
    exact Or.inr ⟨hlocks.locked_eq_of_ne nofun, _, rfl⟩

end Transition

end Attach

namespace Detach.Transition

variable {d : Detach} {phase : Phase} {s t : Site} {progress : Progress Phase Unit}

/-- No step of a release but the one that unregisters locks or unlocks anything. -/
theorem leavesLocks (h : Transition d phase s progress t) (hphase : phase ≠ .unregister) :
    LeavesLocks s (Call.detach d phase).lockable? (mapping? phase)
      (Stage.after (progress.map (.detach d) fun _ => .released)).lockable? t := by
  cases h with
  | refused | lost | unregistered => exact absurd rfl hphase
  | overflowed => exact .unmaps rfl (Memory.AddressSpace.mem_locked_release _ _ _)
  | @closed _ m _ _ o p h =>
    obtain ⟨-, hbooked, hne⟩ := closed_spec h
    have hstage : (Stage.after ((Progress.done o : Progress Phase Unit).map (.detach d)
        fun _ => Reply.released)).lockable? = none := by
      cases o with
      | aborted => exact absurd rfl hne
      | returned | faulted => rfl
    rw [hstage]
    refine .unmaps rfl fun page => ?_
    have hspace : p.space = s.process.space.release m.base m.length := hbooked.space_eq
    rw [hspace]
    exact Memory.AddressSpace.mem_locked_release ..
  | _ => exact .keeps rfl

/-- On the host the block is unlocked, if the device locks pages at all. -/
theorem unlocks {policy : LockPolicy} (h : Transition d .unregister s progress t)
    (hdevice : d.device = .host policy) (hgoes : progress ≠ .done .aborted) :
    (∃ m, progress = .running (if d.config.isLeader then .gather m else .leave m none none)) ∧
      if policy = .disabled then t.process.space.locked = s.process.space.locked
      else s.process.space.unlock d.block.address d.block.bytes.toNat = .ok t.process.space ∨
        policy = .bestEffort ∧ t = s ∧
          ∃ error, s.process.space.unlock d.block.address d.block.bytes.toNat = .error error := by
  cases h with
  | refused | lost => exact absurd rfl hgoes
  | @unregistered _ p m h hm =>
    refine ⟨⟨m, rfl⟩, ?_⟩
    clear hm
    rw [hdevice] at h
    unfold Device.unregister Process.unlockPages at h
    cases policy with
    | disabled =>
      cases h
      rfl
    | required =>
      dsimp only at h
      split at h <;> cases h
      case h_1 hunlock => exact Or.inl hunlock
    | bestEffort =>
      dsimp only at h
      split at h <;> cases h
      case h_1 hunlock => exact Or.inl hunlock
      case h_2 error hunlock => exact Or.inr ⟨rfl, rfl, error, hunlock⟩

end Detach.Transition

/-! ### What is noted of a slot -/

namespace Depot

universe v

variable {ι : Type v}

def Event.warns (s : Site) (event : Event ι) : Bool :=
  s.process.told (event.result s).2.process .lockFailed

def Event.grants (s : Site) : Event ι → Bool
  | asked _ ⟨.pinned, .host policy, _⟩ bytes => s.process.hostGrants policy bytes
  | stepped _ (.attach a (.register m)) =>
    match a.device with
    | .host policy => s.process.grants policy m.payload a.bytes
    | _ => false
  | _ => false

def Event.note? (s : Site) (event : Event ι) (noted? : Option LockNote) : Option LockNote :=
  match event with
  | asked _ ⟨_, .host policy, _⟩ _ => some ⟨policy, event.warns s, event.grants s⟩
  | stepped _ (.attach _ _) => noted?.map fun n =>
      { n with warned := n.warned || event.warns s, granted := n.granted || event.grants s }
  | _ => noted?

theorem Event.note?_asked {r : Resource} {policy : LockPolicy} (hdevice : r.device = .host policy)
    {i : ι} {bytes : UInt64} {s : Site} {noted? : Option LockNote} :
    (Event.asked i r bytes).note? s noted? = some ⟨policy, (Event.asked i r bytes).warns s,
      match r.kind with
      | .pinned => s.process.hostGrants policy bytes
      | .shared => false⟩ := by
  obtain ⟨strategy, device, account⟩ := r
  cases hdevice
  cases strategy <;> rfl

variable [DecidableEq ι]

def note? (i : ι) : Past ι → Option LockNote
  | [] => none
  | (event, e) :: past =>
    if event.slot = i then event.note? e.site (note? i past) else note? i past

end Depot

/-- The block is one that can be locked: it begins on a page, and its pages are in use. -/
structure Block.Lockable (block : Block) (granted : Bool) (span? : Option Memory.Span) : Prop where
  bytes_ne : block.bytes ≠ 0
  aligned : block.address % Page.size = 0
  short : Memory.AddressSpace.pagesFor block.bytes.toNat < Memory.AddressSpace.wordPages
  inside : ∃ span, span? = some span ∧ ∀ page ∈ block.pages, page ∈ span
  wraps_eq : granted = true → Memory.AddressSpace.wraps block.pages = false

theorem Block.Lockable.touched_eq {block : Block} {granted : Bool} {span? : Option Memory.Span}
    (h : block.Lockable granted span?) :
    Memory.AddressSpace.touched block.address block.bytes.toNat = block.pages :=
  Memory.AddressSpace.touched_eq_mappingSpan h.aligned h.short

/-- The call is one that was asked of the host under the policy that is noted; before it registers
its payload nothing was reported of it and nothing granted; and a call that does not fail is for a
length that fits a word. -/
structure Attach.AskedAs (a : Attach) (note? : Option LockNote) (phase : Phase) : Prop where
  noted : ∃ n, note? = some n ∧ a.device = .host n.policy ∧
    (preparing phase = true → n = ⟨n.policy, false, false⟩)
  bytes_ne : a.bytes ≠ 0
  total_lt : (∃ error, phase = .fail error) ∨ a.total < Size.wordValues

/-- The next phase is asked as the one before. What is noted changes at most with the registration.
-/
theorem Attach.AskedAs.next {a : Attach} {n n' : LockNote} {phase next : Phase} {s t : Site}
    (h : a.AskedAs (some n) phase) (ht : Transition a phase s (.running next) t)
    (hpolicy : n'.policy = n.policy) (hsame : (∀ m, phase ≠ .register m) → n' = n) :
    a.AskedAs (some n') next := by
  obtain ⟨⟨_, hn, hdevice, hprepares⟩, hbytes, htotal⟩ := h
  cases hn
  refine ⟨⟨_, rfl, hpolicy ▸ hdevice, fun hnext => ?_⟩, hbytes, Or.inr (htotal.resolve_left ?_)⟩
  · obtain ⟨hphase, hne⟩ := ht.preparing_of hnext
    rw [hsame hne]
    exact hprepares hphase
  · rintro ⟨error, rfl⟩
    cases ht

/-- The pages of a payload that begins a page behind the start of its mapping. -/
theorem Mapping.Placed.lockable {m : Mapping} {a : Memory.AddressSpace} (h : m.Placed a)
    {bytes : UInt64} {granted : Bool} (hbytes : bytes ≠ 0)
    (hlength : m.length = Page.headerLength + bytes.toNat) (hshort : m.length < Size.wordValues)
    (hwraps : granted = true → Memory.AddressSpace.wraps
      (Memory.AddressSpace.touched m.payload bytes.toNat) = false) :
    (⟨m.payload, bytes⟩ : Block).Lockable granted (some m.span) := by
  have haligned := h.aligned
  have hpayload : m.payload % Page.size = 0 := by
    simp only [Mapping.payload, Page.headerLength, Page.size] at haligned ⊢
    omega
  have hpages : Memory.AddressSpace.pagesFor bytes.toNat < Memory.AddressSpace.wordPages := by
    simp only [Memory.AddressSpace.pagesFor, Memory.AddressSpace.wordPages, Page.headerLength,
      Page.size, Size.wordValues] at hlength hshort ⊢
    omega
  refine ⟨hbytes, hpayload, hpages, ⟨_, rfl, fun page hp => ?_⟩, ?_⟩
  · simp only [Block.pages, Mapping.span, Memory.AddressSpace.mappingSpan,
      Memory.AddressSpace.pagesFor, Memory.Span.mem_def, Mapping.payload, hlength,
      Page.headerLength, Page.size] at hp haligned ⊢
    omega
  · rw [Memory.AddressSpace.touched_eq_mappingSpan hpayload hpages] at hwraps
    exact hwraps

namespace Slot

def Locks (x : Slot) (note? : Option LockNote) (page : Nat) : Prop :=
  ∃ n block, note? = some n ∧ n.granted = true ∧ x.stage.lockable? = some block ∧ page ∈ block.pages

structure Asked (x : Slot) (note? : Option LockNote) : Prop where
  host : x.stage ≠ .idle → x.source.device.backend = .host
  device_eq : ∀ c, x.stage = .calling c → c.device = x.source.device
  attach : ∀ a phase, x.stage = .calling (.attach a phase) → a.AskedAs note? phase
  policy_eq : ∀ block, x.stage = .holding block →
    ∃ n, note? = some n ∧ x.source.device = .host n.policy

structure Noted (x : Slot) (note? : Option LockNote) (s : Site) : Prop extends x.Asked note? where
  lockable : ∀ block, x.stage.lockable? = some block →
    ∃ n, note? = some n ∧ n.Settled ∧ block.Lockable n.granted (x.span? s)

variable {x : Slot} {note? : Option LockNote} {s t : Site} {page : Nat}

theorem Noted.mem_span (h : x.Noted note? s) (hlocks : x.Locks note? page) :
    ∃ span, x.span? s = some span ∧ page ∈ span := by
  obtain ⟨n, block, -, -, hblock, hp⟩ := hlocks
  obtain ⟨_, _, _, hlockable⟩ := h.lockable block hblock
  obtain ⟨span, hspan, hinside⟩ := hlockable.inside
  exact ⟨span, hspan, hinside page hp⟩

theorem Noted.stays (h : x.Noted note? s) (hspan : x.span? t = x.span? s) : x.Noted note? t :=
  ⟨h.toAsked, fun block hblock => hspan ▸ h.lockable block hblock⟩

/-- A slot that does nothing and holds nothing has nothing to be noted of. -/
theorem Noted.idle (source : Resource) (note? : Option LockNote) (s : Site) :
    (⟨.idle, source⟩ : Slot).Noted note? s where
  host h := absurd rfl h
  device_eq _ hcalling := by cases hcalling
  attach _ _ hcalling := by cases hcalling
  policy_eq _ hholding := by cases hholding
  lockable _ hblock := by cases hblock

theorem Asked.holding {source : Resource} {n : LockNote} (hdevice : source.device = .host n.policy)
    (block : Block) : (⟨.holding block, source⟩ : Slot).Asked (some n) where
  host _ := congrArg Device.backend hdevice
  device_eq _ hcalling := by cases hcalling
  attach _ _ hcalling := by cases hcalling
  policy_eq _ _ := ⟨n, rfl, hdevice⟩

/-- A release holds nothing, and was not asked for memory. -/
theorem Asked.detach {source : Resource} {d : Detach} {phase : Detach.Phase} {t : Site}
    (hhost : source.device.backend = .host) (hdevice : d.device = source.device) :
    (⟨.after ((Call.detach d phase).step t).1, source⟩ : Slot).Asked note? where
  host _ := hhost
  device_eq c hc := (Call.target_step (Stage.after_eq_calling hc)).2.trans hdevice
  attach a next hnext := by
    obtain ⟨before, heq, -⟩ := Call.attach_of_step (Stage.after_eq_calling hnext)
    cases heq
  policy_eq block hholding := by
    simp only [Call.step, Call.ofDetach] at hholding
    cases hprogress : (d.step phase t).1 with
    | running next => simp [hprogress, Stage.after] at hholding
    | done o => cases o <;> simp [hprogress, Stage.after] at hholding

theorem not_locks {stage : Stage} {source : Resource} (h : stage.lockable? = none) :
    ¬ (⟨stage, source⟩ : Slot).Locks note? page := by
  rintro ⟨_, _, _, _, hblock, _⟩
  cases h.symm.trans hblock

theorem locks_iff {stage : Stage} {source : Resource} (n : LockNote) {block : Block}
    (h : stage.lockable? = some block) : (⟨stage, source⟩ : Slot).Locks (some n) page ↔
      n.granted = true ∧ page ∈ block.pages := by
  constructor
  · rintro ⟨_, _, hn, hgranted, hblock, hp⟩
    cases hn
    cases h.symm.trans hblock
    exact ⟨hgranted, hp⟩
  · rintro ⟨hgranted, hp⟩
    exact ⟨n, block, rfl, hgranted, h, hp⟩

/-- A slot with no block that can be locked has no more to be noted of. -/
theorem Asked.noted_of_none (h : x.Asked note?) (hnone : x.stage.lockable? = none) :
    x.Noted note? s where
  toAsked := h
  lockable block hblock := by
    rw [hnone] at hblock
    cases hblock

theorem Asked.noted_of_some {n : LockNote} {block : Block} (h : x.Asked (some n))
    (hblock : x.stage.lockable? = some block) (hsettled : n.Settled)
    (hlockable : block.Lockable n.granted (x.span? s)) : x.Noted (some n) s where
  toAsked := h
  lockable block' hblock' := by
    cases hblock.symm.trans hblock'
    exact ⟨n, rfl, hsettled, hlockable⟩

end Slot

/-- Who has a block that can be locked has a mapping. -/
theorem Stage.mapping?_of_lockable? {stage : Stage} {config : SharingConfig} {s : Site}
    {block : Block} (hsuits : stage.Suits config s) (h : stage.lockable? = some block) :
    ∃ m, stage.mapping? s = some m := by
  cases stage with
  | idle | halted => cases h
  | holding => exact hsuits
  | calling c =>
    cases c with
    | attach a phase => cases phase <;> first | exact ⟨_, rfl⟩ | cases h
    | detach d phase =>
      cases phase with
      | unregister => exact hsuits.2.2 rfl
      | _ => exact ⟨_, rfl⟩

/-- A call that has a mapping before and after a step has the same one. -/
theorem Handles.eq_of_some {m m' : Mapping} {a b : Memory.AddressSpace}
    (h : Handles (some m) a (some m') b) : m' = m := by
  cases h
  rfl

namespace Depot

universe v

variable {ι : Type v} {e : Depot ι} {i : ι} {source : Resource}
  {result : Progress Call Reply × Site} {before? after? : Option LockNote}

/-- A slot acted as it may with locked pages: what it no longer has locked is not locked any more,
and what it has locked is. -/
structure Relocks (e : Depot ι) (i : ι) (source : Resource) (result : Progress Call Reply × Site)
    (before? after? : Option LockNote) : Prop extends Seats e i source result where
  noted : (⟨.after result.1, source⟩ : Slot).Noted after? result.2
  mem_locked_iff : ∀ page, page ∈ result.2.process.space.locked ↔
    page ∈ e.site.process.space.locked ∧ ¬ (e.slot i).Locks before? page ∨
      (⟨.after result.1, source⟩ : Slot).Locks after? page

/-- Of the pages that are in use by the slot, those are locked that it has locked. -/
def Knows (e : Depot ι) (i : ι) (note? : Option LockNote) : Prop :=
  ∀ span, (e.slot i).span? e.site = some span → ∀ page ∈ span,
    (page ∈ e.site.process.space.locked ↔ (e.slot i).Locks note? page)

theorem Knows.mem_locked (h : e.Knows i before?) (hnoted : (e.slot i).Noted before? e.site)
    {page : Nat} (hlocks : (e.slot i).Locks before? page) : page ∈ e.site.process.space.locked := by
  obtain ⟨span, hspan, hp⟩ := hnoted.mem_span hlocks
  exact (h span hspan page hp).mpr hlocks

theorem not_locks_of_idle (hidle : (e.slot i).stage = .idle) (page : Nat) :
    ¬ (e.slot i).Locks before? page := Slot.not_locks (by rw [hidle]; rfl)

/-- A slot that ends idle, where it used pages has none of them locked any more. -/
theorem relocks_of_idle (hseats : e.Seats i source result) (hafter : Stage.after result.1 = .idle)
    (hlocked : ∀ page, page ∈ result.2.process.space.locked ↔
      page ∈ e.site.process.space.locked ∧ ¬ (e.slot i).Locks before? page) :
    e.Relocks i source result before? after? := by
  refine ⟨hseats, ?_, fun page => ?_⟩
  · rw [hafter]
    exact .idle _ _ _
  · rw [hlocked, hafter]
    exact (or_iff_left (Slot.not_locks rfl)).symm

theorem relocks_nothing {o : Outcome Reply} (hidle : (e.slot i).stage = .idle)
    (hafter : Stage.after (.done o) = .idle) :
    e.Relocks i source (.done o, e.site) before? after? :=
  relocks_of_idle (seats_nothing hidle hafter) hafter fun _ =>
    (and_iff_left (not_locks_of_idle hidle _)).symm

/-! ### Pinned memory -/

/-- Asking for pinned memory: the pages are locked if that was granted, and nothing is left locked
if no block was handed out. -/
theorem relocks_pinned_allocate {r : Resource} {policy : LockPolicy} {bytes : UInt64}
    (hkind : r.kind = .pinned) (hdevice : r.device = .host policy)
    (hidle : (e.slot i).stage = .idle) (hbytes : bytes ≠ 0)
    (hroomy : r.Roomy bytes e.site.process) :
    e.Relocks i r (r.beginAllocate bytes e.site) before?
      (some ⟨policy, (Event.asked i r bytes).warns e.site,
        e.site.process.hostGrants policy bytes⟩) := by
  obtain ⟨o, q, hallocates, hspace, htold, hafter⟩ :=
    Resource.beginAllocate_host hkind hdevice hbytes hroomy
  have hspan : (e.slot i).span? e.site = none :=
    Slot.span?_eq_none (by rw [hidle]; rfl) (by rw [hidle]; rfl)
  have hwarns : (Event.asked i r bytes).warns e.site = e.site.process.told q .lockFailed := htold
  by_cases hgiven : ∃ address, o = .returned (.ok address)
  · obtain ⟨address, rfl⟩ := hgiven
    obtain ⟨haligned, hshort, hclaims, hoccupied, hlatched, hsettled⟩ := hallocates.latched
    rw [← hwarns] at hsettled
    generalize e.site.process.hostGrants policy bytes = granted at hlatched hsettled ⊢
    have hafter : Stage.after (r.beginAllocate bytes e.site).1 = .holding ⟨address, bytes⟩ := hafter
    have hlockable : (Stage.holding ⟨address, bytes⟩).lockable? = some ⟨address, bytes⟩ := rfl
    have hspan' : (⟨.holding ⟨address, bytes⟩, r⟩ : Slot).span? (r.beginAllocate bytes e.site).2 =
        some (Block.pages ⟨address, bytes⟩) := by
      simp only [Slot.span?, hkind, Stage.block?, Option.map_some, Block.pages]
    refine ⟨⟨?_, ?_⟩, ?_, fun page => ?_⟩
    · rw [hspan, hafter, hspan', hspace]
      exact hclaims
    · rw [hafter]
      exact .pinned_holding hkind fun page hp => hspace ▸ hoccupied page hp
    · rw [hafter]
      exact (Slot.Asked.holding hdevice _).noted_of_some hlockable hsettled
        ⟨hbytes, haligned, hshort, ⟨_, hspan', fun _ hp => hp⟩, hlatched.wraps_eq⟩
    · rw [hspace, hafter, hlatched.mem_locked_iff, and_iff_left (not_locks_of_idle hidle page)]
      exact or_congr_right (Slot.locks_iff ⟨policy, _, granted⟩ hlockable).symm
  · have hnone : ∀ address, o ≠ .returned (.ok address) := fun address ho => hgiven ⟨address, ho⟩
    obtain ⟨hclaims, hlocked⟩ := hallocates.unlatched hnone
    have hafter : Stage.after (r.beginAllocate bytes e.site).1 = .idle := by
      rw [hafter]
      split
      case h_1 address => exact absurd rfl (hnone address)
      case h_2 => rfl
    refine relocks_of_idle ⟨?_, ?_⟩ hafter fun page => ?_
    · rw [hspan, hafter, Slot.span?_eq_none rfl rfl, hspace]
      exact hclaims
    · rw [hafter]
      exact .idle _ _
    · rw [hspace, hlocked, and_iff_left (not_locks_of_idle hidle page)]

/-- Releasing pinned memory unmaps it with its locks, whatever policy the second resource has. -/
theorem relocks_pinned_release (hknows : e.Knows i before?) {r : Resource} {policy : LockPolicy}
    {block : Block} (hnoted : (e.slot i).Noted before? e.site) (hkind : r.kind = .pinned)
    (hdevice : r.device = .host policy) (hsource : (e.slot i).source.kind = .pinned)
    (hholding : (e.slot i).stage = .holding block)
    (hgoes : (r.beginRelease block e.site).1 ≠ .done .aborted) :
    e.Relocks i r (r.beginRelease block e.site) before? after? := by
  obtain ⟨hafter, hspace⟩ := Resource.beginRelease_host hkind hdevice hgoes
  have hspan : (e.slot i).span? e.site = some block.pages := by
    simp only [Slot.span?, hsource, hholding, Stage.block?, Option.map_some, Block.pages]
  refine relocks_of_idle ⟨?_, ?_⟩ hafter fun page => ?_
  · rw [hspan, hafter, Slot.span?_eq_none rfl rfl, hspace]
    exact Memory.AddressSpace.claims_release ..
  · rw [hafter]
    exact .idle _ _
  · rw [hspace, Memory.AddressSpace.mem_locked_release]
    refine and_congr_right fun hlocked => not_congr ⟨fun hp => ?_, fun hlocks => ?_⟩
    · exact (hknows _ hspan page hp).mp hlocked
    · obtain ⟨span, hmine, hp⟩ := hnoted.mem_span hlocks
      cases hspan.symm.trans hmine
      exact hp

/-! ### Shared memory -/

/-- A step that neither locks nor unlocks, or that unmaps. -/
theorem relocks_of_leavesLocks {note? : Option LockNote} (h : e.Seated) (hknows : e.Knows i note?)
    (hnoted : (e.slot i).Noted note? e.site) (hkind : (e.slot i).source.kind = .shared)
    (hsource : source.kind = .shared) (hseats : e.Seats i source result)
    (hasked : (⟨.after result.1, source⟩ : Slot).Asked note?)
    (hhandles : Handles ((e.slot i).mapping? e.site) e.site.process.space
      ((Stage.after result.1).mapping? result.2) result.2.process.space)
    (hleaves : LeavesLocks e.site (e.slot i).stage.lockable? ((e.slot i).mapping? e.site)
      (Stage.after result.1).lockable? result.2) : e.Relocks i source result note? note? := by
  obtain ⟨_, hsuits⟩ := (h.slots i).shared hkind
  obtain ⟨_, hsuits'⟩ := hseats.seated.shared hsource
  have hmapping : (e.slot i).mapping? e.site = (e.slot i).stage.mapping? e.site := by
    simp only [Slot.mapping?, hkind]
  have hspan : (⟨.after result.1, source⟩ : Slot).span? result.2 =
      ((Stage.after result.1).mapping? result.2).map Mapping.span := by
    simp only [Slot.span?, hsource]
  generalize hlockable' : (Stage.after result.1).lockable? = lockable?' at hleaves
  cases hleaves with
  | keeps hlocked =>
    refine ⟨hseats, ⟨hasked, fun block hblock => ?_⟩, fun page => ?_⟩
    · have hblock' : (Stage.after result.1).lockable? = some block := hblock
      obtain ⟨n, hn, hsettled, hold⟩ := hnoted.lockable block (hlockable'.symm.trans hblock')
      obtain ⟨m, hm⟩ := Stage.mapping?_of_lockable? hsuits (hlockable'.symm.trans hblock')
      obtain ⟨m', hm'⟩ := Stage.mapping?_of_lockable? hsuits' hblock'
      rw [hmapping, hm, hm'] at hhandles
      have hsame : (⟨.after result.1, source⟩ : Slot).span? result.2 =
          (e.slot i).span? e.site := by
        rw [hspan, hm', hhandles.eq_of_some, Slot.span?_eq_map hkind, hmapping, hm]
      exact ⟨n, hn, hsettled, hsame ▸ hold⟩
    · have hlocks : (⟨.after result.1, source⟩ : Slot).Locks note? page ↔
          (e.slot i).Locks note? page := by
        simp only [Slot.Locks, hlockable']
      rw [hlocked, hlocks]
      by_cases hmine : (e.slot i).Locks note? page
      · simp [hmine, hknows.mem_locked hnoted hmine]
      · simp [hmine]
  | @unmaps _ m hm hlocked =>
    have hmine : (e.slot i).span? e.site = some m.span := by
      rw [Slot.span?_eq_map hkind, hm, Option.map_some]
    refine ⟨hseats, hasked.noted_of_none hlockable', fun page => ?_⟩
    rw [hlocked, or_iff_left (Slot.not_locks hlockable')]
    refine and_congr_right fun hheld => not_congr ⟨fun hp => ?_, fun hlocks => ?_⟩
    · exact (hknows _ hmine page hp).mp hheld
    · obtain ⟨span, hits, hp⟩ := hnoted.mem_span hlocks
      cases hmine.symm.trans hits
      exact hp

/-- Asking for shared memory locks nothing yet. -/
theorem relocks_shared_allocate {r : Resource} {policy : LockPolicy} {bytes : UInt64}
    (hkind : r.kind = .shared) (hdevice : r.device = .host policy)
    (hidle : (e.slot i).stage = .idle) :
    e.Relocks i r (r.beginAllocate bytes e.site) before?
      (some ⟨policy, (Event.asked i r bytes).warns e.site, false⟩) := by
  have hseats := seats_shared_allocate bytes hkind hidle
  obtain ⟨strategy, device, account⟩ := r
  cases strategy with
  | pinned => cases hkind
  | shared config =>
    cases hdevice
    by_cases hbytes : bytes = 0
    · subst hbytes
      exact relocks_nothing hidle rfl
    · have hresult : (⟨.shared config, .host policy, account⟩ : Resource).beginAllocate bytes
          e.site = Call.ofAttach ⟨config, .host policy, account, bytes⟩
            ((⟨config, .host policy, account, bytes⟩ : Attach).begin e.site) := by
        rw [Resource.beginAllocate, if_neg hbytes]
      rw [hresult] at hseats ⊢
      have hwarns : (Event.asked i ⟨.shared config, .host policy, account⟩ bytes).warns e.site =
          e.site.process.told (Call.ofAttach ⟨config, .host policy, account, bytes⟩
            ((⟨config, .host policy, account, bytes⟩ : Attach).begin e.site)).2.process
            .lockFailed := by
        rw [Event.warns, Event.result, hresult]
      rw [hwarns]
      rcases (⟨config, .host policy, account, bytes⟩ : Attach).begin_cases e.site with
        ⟨phase, hbegin, hunregistered, htotal⟩ | hbegin
      · rw [hbegin] at hseats ⊢
        have hnone : (Stage.calling (.attach ⟨config, .host policy, account, bytes⟩
          phase)).lockable? = none := hunregistered
        refine ⟨hseats, Slot.Asked.noted_of_none ⟨fun _ => rfl, ?_, ?_, ?_⟩ hnone, fun page => ?_⟩
        · rintro _ ⟨⟩
          rfl
        · rintro _ _ ⟨⟩
          refine ⟨⟨_, rfl, rfl, fun _ => ?_⟩, hbytes, htotal⟩
          exact congrArg (LockNote.mk policy · false) (e.site.process.told_self_nothing _)
        · rintro _ ⟨⟩
        · exact ((or_iff_left (Slot.not_locks hnone)).trans
            (and_iff_left (not_locks_of_idle hidle page))).symm
      · rw [hbegin]
        exact relocks_nothing hidle rfl

/-- A release of shared memory begins with nothing unlocked yet. -/
theorem relocks_shared_release {note? : Option LockNote} (h : e.Seated) (hknows : e.Knows i note?)
    (hnoted : (e.slot i).Noted note? e.site) {r : Resource} {policy : LockPolicy} {block : Block}
    (hkind : r.kind = .shared) (hdevice : r.device = .host policy)
    (hsource : (e.slot i).source.kind = .shared) (hholding : (e.slot i).stage = .holding block) :
    e.Relocks i r (r.beginRelease block e.site) note? note? := by
  have hseats := seats_shared_release h hkind hsource hholding
  obtain ⟨strategy, device, account⟩ := r
  cases strategy with
  | pinned => cases hkind
  | shared config =>
    cases hdevice
    have hmapping : (e.slot i).mapping? e.site = e.site.mappingOf? block := by
      simp only [Slot.mapping?, hsource, hholding, Stage.mapping?]
    refine relocks_of_leavesLocks h hknows hnoted hsource rfl hseats
      ⟨fun _ => rfl, ?_, ?_, ?_⟩ ?_ ?_
    · rintro _ ⟨⟩
      rfl
    · rintro _ _ ⟨⟩
    · rintro _ ⟨⟩
    · rw [hmapping]
      exact .keeps (.refl _)
    · rw [hholding]
      exact .keeps rfl

/-- The step of an allocation that registers the payload: its pages are locked, if that is granted.
-/
theorem relocks_register {n : LockNote} (hnoted : (e.slot i).Noted (some n) e.site) (h : e.Seated)
    {a : Attach} {m : Mapping} (hcalling : (e.slot i).stage = .calling (.attach a (.register m)))
    {n' : LockNote}
    (hn' : (Event.stepped i (.attach a (.register m))).note? e.site (some n) = some n')
    (hasked : (⟨.after ((Call.attach a (.register m)).step e.site).1,
      (e.slot i).source⟩ : Slot).Asked (some n')) :
    e.Relocks i (e.slot i).source ((Call.attach a (.register m)).step e.site) (some n)
      (some n') := by
  have hseats := seats_access h hcalling
  have hshared := (h.slots i).shared_of_calling hcalling
  obtain ⟨_, hsuits⟩ := (h.slots i).shared hshared
  rw [hcalling] at hsuits
  have hplaced : m.Placed e.site.process.space := (h.slots i).placed m (by
    simp only [Slot.mapping?, hshared, hcalling, Stage.mapping?, Call.mapping?, Attach.mapping?])
  obtain ⟨⟨_, hn, hhost, hprepares⟩, hbytes, htotal⟩ := hnoted.attach a _ hcalling
  cases hn
  have hbefore : ∀ {page}, ¬ (e.slot i).Locks (some n) page :=
    Slot.not_locks (by rw [hcalling]; rfl)
  rcases (a.step_transition (.register m) e.site).register_cases hhost with
    ⟨hlocks, hprogress⟩ | ⟨hlocked, ending, hprogress⟩
  · obtain ⟨hlatched, hsettled⟩ := hlocks.latched
    have hafter : Stage.after ((Call.attach a (.register m)).step e.site).1 =
        .calling (.attach a (if a.config.isLeader then .publishBytes m else .finish m)) := by
      simp [Call.step, Call.ofAttach, hprogress, Stage.after]
    have hgranted : n' = ⟨n.policy, e.site.process.told (a.step (.register m) e.site).2.process
        .lockFailed, e.site.process.grants n.policy m.payload a.bytes⟩ := by
      obtain ⟨config, device, account, bytes⟩ := a
      cases hhost
      rw [hprepares rfl] at hn'
      exact (Option.some.inj hn').symm
    have hmine : (⟨Stage.after ((Call.attach a (.register m)).step e.site).1,
        (e.slot i).source⟩ : Slot).span? ((Call.attach a (.register m)).step e.site).2 =
          some m.span := by
      rw [hafter]
      simp only [Slot.span?, hshared, Stage.mapping?, Call.mapping?]
      split <;> rfl
    have hlockable : (Stage.after ((Call.attach a (.register m)).step e.site).1).lockable? =
        some ⟨m.payload, a.bytes⟩ := by
      rw [hafter]
      simp only [Stage.lockable?, Call.lockable?]
      split <;> rfl
    have hblock := hplaced.lockable hbytes hsuits.2
      (hsuits.2.symm ▸ htotal.resolve_left (by simp)) hlatched.wraps_eq
    subst hgranted
    refine ⟨hseats, hasked.noted_of_some hlockable hsettled (hmine ▸ hblock), fun page => ?_⟩
    rw [and_iff_left hbefore]
    refine (hlatched.mem_locked_iff page).trans (or_congr_right ?_)
    rw [hblock.touched_eq]
    exact (Slot.locks_iff ⟨n.policy, _, e.site.process.grants n.policy m.payload a.bytes⟩
      hlockable).symm
  · have hnone : (Stage.after ((Call.attach a (.register m)).step e.site).1).lockable? = none := by
      simp [Call.step, Call.ofAttach, hprogress, Stage.after, Stage.lockable?, Call.lockable?,
        Attach.registered?]
    refine ⟨hseats, hasked.noted_of_none hnone, fun page => ?_⟩
    rw [or_iff_left (Slot.not_locks hnone), and_iff_left hbefore]
    exact iff_of_eq (congrArg (page ∈ ·) hlocked)

/-- The step of an allocation: no other locks anything, and what is noted stays. -/
theorem relocks_attach {note? : Option LockNote} (h : e.Seated) (hknows : e.Knows i note?)
    (hnoted : (e.slot i).Noted note? e.site) {a : Attach} {phase : Attach.Phase}
    (hcalling : (e.slot i).stage = .calling (.attach a phase)) (hroomy : a.Roomy e.site phase)
    (hgoes : ((Call.attach a phase).step e.site).1 ≠ .done .aborted) :
    e.Relocks i (e.slot i).source ((Call.attach a phase).step e.site) note?
      ((Event.stepped i (.attach a phase)).note? e.site note?) := by
  have hseats := seats_access h hcalling
  have hshared := (h.slots i).shared_of_calling hcalling
  obtain ⟨_, hsuits⟩ := (h.slots i).shared hshared
  rw [hcalling] at hsuits
  have hasked := hnoted.attach a phase hcalling
  have hdevice := hnoted.device_eq _ hcalling
  obtain ⟨n, rfl, hhost, -⟩ := hasked.noted
  have ht := a.step_transition phase e.site
  have hmapping : (e.slot i).mapping? e.site = Attach.mapping? phase := by
    simp only [Slot.mapping?, hshared, hcalling, Stage.mapping?, Call.mapping?]
  have hnote : (Event.stepped i (.attach a phase)).note? e.site (some n) = some { n with
      warned := n.warned || (Event.stepped i (.attach a phase)).warns e.site
      granted := n.granted || (Event.stepped i (.attach a phase)).grants e.site } := rfl
  have hsame : (∀ m, phase ≠ .register m) →
      (Event.stepped i (.attach a phase)).note? e.site (some n) = some n := by
    intro hphase
    have hwarns : (Event.stepped i (.attach a phase)).warns e.site = false := ht.untold hphase
    have hgrants : (Event.stepped i (.attach a phase)).grants e.site = false := by
      cases phase with
      | register m => exact absurd rfl (hphase m)
      | _ => rfl
    rw [hnote, hwarns, hgrants, Bool.or_false, Bool.or_false]
  have hasked' : (⟨.after ((Call.attach a phase).step e.site).1, (e.slot i).source⟩ : Slot).Asked
      ((Event.stepped i (.attach a phase)).note? e.site (some n)) := by
    refine ⟨fun _ => hnoted.host (by simp [hcalling]),
      fun c hc => (Call.target_step (Stage.after_eq_calling hc)).2.trans hdevice,
      fun b next hnext => ?_, fun block _ => ⟨_, hnote, hdevice.symm.trans hhost⟩⟩
    obtain ⟨before, heq, hstep⟩ := Call.attach_of_step (Stage.after_eq_calling hnext)
    cases heq
    exact hasked.next hstep rfl fun hphase => Option.some.inj (hsame hphase)
  by_cases hphase : ∀ m, phase ≠ .register m
  · rw [hsame hphase] at hasked' ⊢
    have hleaves := ht.leavesLocks hphase hroomy fun haborted => hgoes (by
      simp [Call.step, Call.ofAttach, haborted])
    refine relocks_of_leavesLocks h hknows hnoted hshared hshared hseats hasked' ?_ ?_
    · rw [hmapping]
      exact ht.handles hsuits.2 fun m hm => (h.slots i).placed m (hmapping.trans hm)
    · rw [hmapping, hcalling]
      exact hleaves
  · obtain ⟨m, rfl⟩ : ∃ m, phase = .register m := by simpa using hphase
    exact relocks_register hnoted h hcalling hnote hasked'

/-- The pages of a block that are locked are mapped, so they can be unlocked. -/
theorem Seated.exists_unlock (h : e.Seated) {block : Block}
    (hblock : block.Lockable true ((e.slot i).span? e.site)) :
    ∃ space, e.site.process.space.unlock block.address block.bytes.toNat = .ok space := by
  obtain ⟨span, hspan, hinside⟩ := hblock.inside
  have hwraps := hblock.wraps_eq rfl
  rw [← hblock.touched_eq] at hwraps
  refine Memory.AddressSpace.unlock_of_mapped hwraps fun page hp => ?_
  rw [hblock.touched_eq] at hp
  have hoccupied := (h.slots i).occupied span hspan page (hinside page hp)
  obtain ⟨content, hcontent⟩ := Option.isSome_iff_exists.mp hoccupied
  exact Memory.AddressSpace.mem_mapped_of_page?_eq_some hcontent

/-- The step of a release that unregisters through a device that locks pages: the pages of the block
are not locked any more. -/
theorem relocks_unregister {note? : Option LockNote} (h : e.Seated) (hknows : e.Knows i note?)
    (hnoted : (e.slot i).Noted note? e.site) {d : Detach} {policy : LockPolicy}
    (hcalling : (e.slot i).stage = .calling (.detach d .unregister))
    (hdevice : d.device = .host policy) (hlocks : policy ≠ .disabled)
    (hgoes : (d.step .unregister e.site).1 ≠ .done .aborted)
    (hasked : (⟨.after ((Call.detach d .unregister).step e.site).1,
      (e.slot i).source⟩ : Slot).Asked note?) :
    e.Relocks i (e.slot i).source ((Call.detach d .unregister).step e.site) note? note? := by
  obtain ⟨⟨m, hprogress⟩, hunlocked⟩ := (d.step_transition .unregister e.site).unlocks hdevice hgoes
  rw [if_neg hlocks] at hunlocked
  have hdisabled : d.device ≠ .host .disabled := by
    rw [hdevice]
    simpa using hlocks
  have hafter : (Stage.after ((Call.detach d .unregister).step e.site).1).lockable? = none := by
    simp only [Call.step, Call.ofDetach, hprogress, Progress.map_running, Stage.after,
      Stage.lockable?]
    split <;> exact if_neg hdisabled
  have hbefore : (e.slot i).stage.lockable? = some d.block := by
    rw [hcalling]
    rfl
  obtain ⟨n, rfl, -, hblock⟩ := hnoted.lockable d.block hbefore
  obtain ⟨span, hspan, hinside⟩ := hblock.inside
  refine ⟨seats_access h hcalling, hasked.noted_of_none hafter, fun page => ?_⟩
  rw [or_iff_left (Slot.not_locks hafter)]
  rcases hunlocked with hunlock | ⟨-, hsame, error, hrefused⟩
  · refine (Memory.AddressSpace.mem_locked_of_unlock hunlock page).trans ?_
    rw [hblock.touched_eq]
    refine and_congr_right fun hlocked => not_congr ⟨fun hp => ?_, fun hmine => ?_⟩
    · exact (hknows span hspan page (hinside page hp)).mp hlocked
    · exact ((Slot.locks_iff n hbefore).mp hmine).2
  · -- unlocking was refused and that is ignored, so the pages were not locked
    have hnever : ¬ (e.slot i).Locks (some n) page := fun hmine => by
      rw [((Slot.locks_iff n hbefore).mp hmine).1] at hblock
      obtain ⟨space, hunlock⟩ := h.exists_unlock hblock
      rw [hunlock] at hrefused
      cases hrefused
    rw [and_iff_left hnever]
    exact iff_of_eq (congrArg (fun s : Site => page ∈ s.process.space.locked) hsame)

/-- The step of a release: with the one that unregisters the pages are unlocked, if the device that
the block goes back through locks pages at all. Otherwise they stay locked until they are
unmapped. -/
theorem relocks_detach {note? : Option LockNote} (h : e.Seated) (hknows : e.Knows i note?)
    (hnoted : (e.slot i).Noted note? e.site) {d : Detach} {phase : Detach.Phase}
    (hcalling : (e.slot i).stage = .calling (.detach d phase))
    (hgoes : ((Call.detach d phase).step e.site).1 ≠ .done .aborted) :
    e.Relocks i (e.slot i).source ((Call.detach d phase).step e.site) note? note? := by
  have hshared := (h.slots i).shared_of_calling hcalling
  have hhost := hnoted.host (by simp [hcalling])
  have hsame := hnoted.device_eq _ hcalling
  have ht := d.step_transition phase e.site
  have hmapping : (e.slot i).mapping? e.site = (Call.detach d phase).mapping? e.site := by
    simp only [Slot.mapping?, hshared, hcalling, Stage.mapping?]
  have hasked : (⟨.after ((Call.detach d phase).step e.site).1, (e.slot i).source⟩ : Slot).Asked
      note? := .detach hhost hsame
  have hgoes' : (d.step phase e.site).1 ≠ .done .aborted := fun haborted => hgoes (by
    simp [Call.step, Call.ofDetach, haborted])
  have hleave := relocks_of_leavesLocks h hknows hnoted hshared hshared (seats_access h hcalling)
    hasked (by rw [hmapping]; exact ht.handles)
  rw [hmapping, hcalling] at hleave
  by_cases hphase : phase = .unregister
  · subst hphase
    obtain ⟨policy, hpolicy⟩ := Device.exists_policy ((congrArg Device.backend hsame).trans hhost)
    by_cases hdisabled : policy = .disabled
    · subst hdisabled
      obtain ⟨⟨m, hprogress⟩, hunlocked⟩ := ht.unlocks hpolicy hgoes'
      rw [if_pos rfl] at hunlocked
      have hafter : (Stage.after ((Call.detach d .unregister).step e.site).1).lockable? =
          some d.block := by
        simp only [Call.step, Call.ofDetach, hprogress, Progress.map_running, Stage.after,
          Stage.lockable?]
        split <;> exact if_pos hpolicy
      refine hleave ?_
      rw [hafter]
      exact .keeps hunlocked
    · exact relocks_unregister h hknows hnoted hcalling hpolicy hdisabled hgoes' hasked
  · refine hleave ?_
    cases phase with
    | unregister => exact absurd rfl hphase
    | _ => exact ht.leavesLocks hphase

/-! ### Runs on the host -/

/-- Resources on the host, under lock policies that may differ, also between the one that was asked
for a block and the one that takes it back, and in any strict mode. Elsewhere pages in use stay
mapped as they are, and no page is locked or unlocked; the limit of what may be locked can become
any other. -/
def Rules.hosts : Rules ι where
  Modes _ := True
  Asks r := r.backend = .host
  Permits a b := b.kind = a.kind ∧ b.backend = .host
  Between e s := (∀ i span, (e.slot i).span? e.site = some span → ∀ page ∈ span,
      s.process.space.page? page = e.site.process.space.page? page) ∧
    ∀ page, page ∈ s.process.space.locked ↔ page ∈ e.site.process.space.locked

instance : DecidablePred (Rules.hosts (ι := ι)).Modes := fun _ => inferInstanceAs (Decidable True)

instance : DecidablePred (Rules.hosts (ι := ι)).Asks :=
  fun r => inferInstanceAs (Decidable (r.backend = .host))

instance : DecidableRel (Rules.hosts (ι := ι)).Permits :=
  fun a b => inferInstanceAs (Decidable (b.kind = a.kind ∧ b.backend = .host))

section

variable [DecidableEq ι] {e₀ : Depot ι} {past : Past ι} {event : Event ι}

structure LocksNoted (past : Past ι) (e : Depot ι) : Prop where
  seated : e.Seated
  noted : ∀ i, (e.slot i).Noted (note? i past) e.site
  mem_locked_iff : ∀ page,
    page ∈ e.site.process.space.locked ↔ ∃ i, (e.slot i).Locks (note? i past) page

/-- No page is in use twice, so a slot's pages are locked for the slot. -/
theorem LocksNoted.knows (h : LocksNoted past e) (i : ι) : e.Knows i (note? i past) := by
  intro span hspan page hp
  rw [h.mem_locked_iff]
  refine ⟨fun ⟨j, hlocks⟩ => ?_, fun hlocks => ⟨i, hlocks⟩⟩
  obtain ⟨its, hits, hp'⟩ := (h.noted j).mem_span hlocks
  by_cases hij : i = j
  · exact hij ▸ hlocks
  · exact absurd hp' (h.seated.apart i j hij span its hspan hits page hp)

/-- What may happen in a slot leaves the slot as it is then noted. -/
theorem LocksNoted.relocks (h : LocksNoted past e) (hmay : e.May .hosts event)
    (hgoes : (event.result e.site).1 ≠ .done .aborted) :
    e.Relocks event.slot (event.source e) (event.result e.site) (note? event.slot past)
      (event.note? e.site (note? event.slot past)) := by
  have hknows := h.knows event.slot
  have hnoted := h.noted event.slot
  cases hmay with
  | ask i r bytes hidle hasks hopen hroomy =>
    obtain ⟨policy, hdevice⟩ := Device.exists_policy hasks
    simp only [Event.slot, Event.source, Event.result, Event.note?_asked hdevice]
    cases hkind : r.kind with
    | shared => exact relocks_shared_allocate hkind hdevice hidle
    | pinned =>
      by_cases hbytes : bytes = 0
      · subst hbytes
        exact relocks_nothing hidle rfl
      · exact relocks_pinned_allocate hkind hdevice hidle hbytes hroomy
  | give i r block hholding hopen hpermits =>
    obtain ⟨hkind, hbackend⟩ := hpermits
    obtain ⟨policy, hdevice⟩ := Device.exists_policy hbackend
    cases hsource : (e.slot i).source.kind with
    | shared =>
      exact relocks_shared_release h.seated hknows hnoted (hkind.trans hsource) hdevice hsource
        hholding
    | pinned =>
      exact relocks_pinned_release hknows hnoted (hkind.trans hsource) hdevice hsource hholding
        hgoes
  | step i c hcalling hroomy =>
    cases c with
    | attach a phase => exact relocks_attach h.seated hknows hnoted hcalling hroomy hgoes
    | detach d phase => exact relocks_detach h.seated hknows hnoted hcalling hgoes

theorem LocksNoted.act (h : LocksNoted past e) (hmay : e.May .hosts event)
    (hgoes : (event.result e.site).1 ≠ .done .aborted) :
    LocksNoted ((event, e) :: past) (e.act event) := by
  have hrelocks := h.relocks hmay hgoes
  have hself : note? event.slot ((event, e) :: past) =
      event.note? e.site (note? event.slot past) := if_pos rfl
  have hother : ∀ j, j ≠ event.slot → note? j ((event, e) :: past) = note? j past :=
    fun j hj => if_neg (Ne.symm hj)
  refine ⟨h.seated.settle hrelocks.claims hrelocks.seated, fun j => ?_, fun page => ?_⟩
  · by_cases hj : j = event.slot
    · subst hj
      rw [slot_act_self, hself]
      exact hrelocks.noted
    · rw [slot_act_of_ne hj, hother j hj]
      refine (h.noted j).stays ((h.seated.slots j).stays fun span hspan page hp => ?_).2
      exact h.seated.stays_of_ne hrelocks.claims hj hspan hp
  · refine (hrelocks.mem_locked_iff page).trans ⟨?_, fun ⟨j, hlocks⟩ => ?_⟩
    · rintro (⟨hlocked, hnot⟩ | hlocks)
      · obtain ⟨j, hlocks⟩ := (h.mem_locked_iff page).mp hlocked
        have hj : j ≠ event.slot := fun hj => hnot (hj ▸ hlocks)
        exact ⟨j, by rw [slot_act_of_ne hj, hother j hj]; exact hlocks⟩
      · exact ⟨event.slot, by rw [slot_act_self, hself]; exact hlocks⟩
    · by_cases hj : j = event.slot
      · subst hj
        rw [slot_act_self, hself] at hlocks
        exact Or.inr hlocks
      · rw [slot_act_of_ne hj, hother j hj] at hlocks
        refine Or.inl ⟨(h.mem_locked_iff page).mpr ⟨j, hlocks⟩, fun hmine => ?_⟩
        obtain ⟨its, hits, hp⟩ := (h.noted j).mem_span hlocks
        obtain ⟨mine, hspan, hp'⟩ := (h.noted event.slot).mem_span hmine
        exact h.seated.apart j event.slot hj its mine hits hspan page hp hp'

theorem locksNoted_of_traffic (hrun : Traffic .hosts e₀ past e)
    (hidle : ∀ i, (e₀.slot i).stage = .idle)
    (hunlocked : ∀ page, page ∉ e₀.site.process.space.locked) : LocksNoted past e := by
  induction hrun with
  | start =>
    refine ⟨seated_of_idle hidle, fun i => ?_, fun page => ?_⟩
    · have hslot : e₀.slot i = ⟨.idle, (e₀.slot i).source⟩ := by rw [← hidle i]
      rw [hslot]
      exact .idle _ _ _
    · exact iff_of_false (hunlocked page) fun ⟨i, hlocks⟩ => not_locks_of_idle (hidle i) page hlocks
  | act event hrun hmode hmay hgoes ih => exact ih.act hmay hgoes
  | elsewhere s hrun hbetween ih =>
    obtain ⟨hpages, hlocked⟩ := hbetween
    exact ⟨ih.seated.outside hpages,
      fun i => (ih.noted i).stays ((ih.seated.slots i).stays (hpages i)).2,
      fun page => (hlocked page).trans (ih.mem_locked_iff page)⟩

def Locked (e : Depot ι) (block : Block) : Prop :=
  ∀ page ∈ block.pages, page ∈ e.site.process.space.locked

def Unlocked (e : Depot ι) (block : Block) : Prop :=
  ∀ page ∈ block.pages, page ∉ e.site.process.space.locked

/-- What is locked when this happened is what the blocks have locked that are outstanding, each by
the policy under which it was asked for. -/
structure LocksExact (past : Past ι) (e : Depot ι) : Prop where
  /-- The locked pages are those of the outstanding blocks of which the lock was granted. -/
  mem_locked_iff : ∀ page, page ∈ e.site.process.space.locked ↔
    ∃ i n block, note? i past = some n ∧ n.granted = true ∧
      (e.slot i).stage.lockable? = some block ∧ page ∈ block.pages
  /-- Something is noted of each of these blocks, and each has a page. -/
  noted : ∀ i block, (e.slot i).stage.lockable? = some block →
    (∃ n, note? i past = some n) ∧ ∃ page, page ∈ block.pages
  /-- What a slot holds it was handed by its resource, whose policy is the one that is noted. -/
  policy_eq : ∀ i block, (e.slot i).stage = .holding block →
    ∃ n, note? i past = some n ∧ (e.slot i).source.device = .host n.policy
  required : ∀ i n block, note? i past = some n → (e.slot i).stage.lockable? = some block →
    n.policy = .required → e.Locked block
  bestEffort : ∀ i n block, note? i past = some n → (e.slot i).stage.lockable? = some block →
    n.policy = .bestEffort →
      (e.Locked block ↔ n.warned = false) ∧ (e.Locked block ∨ e.Unlocked block)
  disabled : ∀ i n block, note? i past = some n → (e.slot i).stage.lockable? = some block →
    n.policy = .disabled → e.Unlocked block
  /-- While no call is in flight, the outstanding blocks are those that the slots hold. -/
  held : (∀ i c, (e.slot i).stage ≠ .calling c) → ∀ i block,
    (e.slot i).stage.lockable? = some block ↔ (e.slot i).stage = .holding block
  /-- Where every call failed, faulted or gave its block back, no page is locked. -/
  vacant : (∀ i, (e.slot i).stage = .idle) → ∀ page, page ∉ e.site.process.space.locked

/-- An outstanding block is locked if that was granted, and otherwise no page of it is. -/
theorem LocksNoted.locked_or_unlocked (h : LocksNoted past e) {i : ι} {n : LockNote} {block : Block}
    (hn : note? i past = some n) (hblock : (e.slot i).stage.lockable? = some block) :
    n.Settled ∧ (n.granted = true → e.Locked block) ∧ (n.granted = false → e.Unlocked block) := by
  obtain ⟨_, hn', hsettled, hlockable⟩ := (h.noted i).lockable block hblock
  cases hn.symm.trans hn'
  obtain ⟨span, hspan, hinside⟩ := hlockable.inside
  refine ⟨hsettled, fun hgranted page hp => ?_, fun hrefused page hp hlocked => ?_⟩
  · exact (h.mem_locked_iff page).mpr ⟨i, n, block, hn, hgranted, hblock, hp⟩
  · obtain ⟨_, _, hn', hgranted, -⟩ := (h.knows i span hspan page (hinside page hp)).mp hlocked
    cases hn.symm.trans hn'
    exact absurd hgranted (by simp [hrefused])

/-- In every state that a run on the host can reach, under any strict mode and whatever becomes of
the limit, the pages are locked of exactly the outstanding blocks of which the lock was granted. -/
theorem locks_of_traffic (hrun : Traffic .hosts e₀ past e)
    (hidle : ∀ i, (e₀.slot i).stage = .idle)
    (hunlocked : ∀ page, page ∉ e₀.site.process.space.locked) : LocksExact past e := by
  have h := locksNoted_of_traffic hrun hidle hunlocked
  have hexists : ∀ {i block}, (e.slot i).stage.lockable? = some block →
      ∃ page, page ∈ block.pages := fun hblock => by
    obtain ⟨_, _, _, hlockable⟩ := (h.noted _).lockable _ hblock
    exact Block.exists_mem_pages hlockable.bytes_ne
  refine ⟨h.mem_locked_iff, fun i block hblock => ?_, fun i => (h.noted i).policy_eq,
    fun i n block hn hblock hpolicy => ?_, fun i n block hn hblock hpolicy => ?_,
    fun i n block hn hblock hpolicy => ?_, fun hquiet i block => ?_, fun hvacant page => ?_⟩
  · obtain ⟨n, hn, -, -⟩ := (h.noted i).lockable block hblock
    exact ⟨⟨n, hn⟩, hexists hblock⟩
  · obtain ⟨hsettled, hlocked, -⟩ := h.locked_or_unlocked hn hblock
    exact hlocked (hsettled.trans (by rw [hpolicy]))
  · obtain ⟨hsettled, hlocked, hunlocked⟩ := h.locked_or_unlocked hn hblock
    have hgranted : n.granted = !n.warned := hsettled.trans (by rw [hpolicy])
    obtain ⟨page, hp⟩ := hexists hblock
    cases hwarned : n.warned with
    | false =>
      have hall := hlocked (hgranted.trans (by rw [hwarned]; rfl))
      exact ⟨iff_of_true hall rfl, Or.inl hall⟩
    | true =>
      have hnone := hunlocked (hgranted.trans (by rw [hwarned]; rfl))
      exact ⟨iff_of_false (fun hall => hnone page hp (hall page hp)) Bool.noConfusion, Or.inr hnone⟩
  · obtain ⟨hsettled, -, hunlocked⟩ := h.locked_or_unlocked hn hblock
    exact hunlocked (hsettled.trans (by rw [hpolicy]))
  · cases hstage : (e.slot i).stage with
    | calling c => exact absurd hstage (hquiet i c)
    | idle | halted => simp [Stage.lockable?]
    | holding held => simp [Stage.lockable?]
  · rw [h.mem_locked_iff]
    rintro ⟨i, hlocks⟩
    exact not_locks_of_idle (hvacant i) page hlocks

end

def crowded : Depot (Fin 4) where
  site := ⟨.initial [1] 0, (Process.fresh 1).openAccount.2⟩
  slot _ := ⟨.idle, original⟩

def limited (e : Depot (Fin 4)) (lockLimit : Nat) (mode : StrictMode) : Depot (Fin 4) :=
  { e with site := { e.site with process := { e.site.process.setStrictMode mode with
      space := { e.site.process.space with lockLimit } } } }

def pinnedHost (policy : LockPolicy) : Resource := ⟨.pinned, .host policy, 0⟩

/-- A shared block is locked; then two pages more cannot be, one can, and no other. The shared block
goes back through a resource that unlocks nothing, and is replaced by one that is not locked. At
last two pages cannot be locked while that is fatal. One page stays locked. -/
theorem locks_of_traffic_limited : ∃ (past : Past (Fin 4)) (e : Depot (Fin 4)),
    Traffic .hosts crowded past e ∧ e.site.process.space.locked.count = 1 ∧
      (List.finRange 4).map (fun i => ((e.slot i).stage.block?.map Block.bytes, note? i past)) =
        [(some 5000, some ⟨.disabled, false, false⟩), (some 8192, some ⟨.bestEffort, true, false⟩),
          (some 100, some ⟨.bestEffort, false, true⟩), (none, some ⟨.bestEffort, true, false⟩)] ∧
      LocksExact past e := by
  obtain ⟨⟨past, e⟩, hplay, hseen⟩ := Option.map_eq_some_iff.mp
    (by decide +kernel :
      (((carry? .hosts (.allocate 0 original 4096 :: List.replicate 10 (.access 0))
          ([], crowded)).bind fun (past, e) =>
        carry? .hosts ([.allocate 1 (pinnedHost .bestEffort) 8192,
            .allocate 2 (pinnedHost .bestEffort) 100, .allocate 3 (pinnedHost .required) 4096,
            .release 0 ⟨original.strategy, .host .disabled, 0⟩] ++ List.replicate 6 (.access 0) ++
            [.allocate 0 (pinnedHost .disabled) 5000]) (past, limited e 8192 .warn)).bind
        fun (past, e) => carry? .hosts [.allocate 3 (pinnedHost .bestEffort) 8192]
          (past, limited e 8192 .fatalWarnings)).map
        (fun (past, e) => (e.site.process.space.locked.count, (List.finRange 4).map fun i =>
          ((e.slot i).stage.block?.map Block.bytes, note? i past))) =
        some (1, [(some 5000, some ⟨.disabled, false, false⟩),
          (some 8192, some ⟨.bestEffort, true, false⟩),
          (some 100, some ⟨.bestEffort, false, true⟩), (none, some ⟨.bestEffort, true, false⟩)]))
  obtain ⟨⟨before, d⟩, hplay, hlast⟩ := Option.bind_eq_some_iff.mp hplay
  obtain ⟨⟨earlier, c⟩, hfirst, hsecond⟩ := Option.bind_eq_some_iff.mp hplay
  obtain ⟨hcount, hnotes⟩ := Prod.mk.inj hseen
  have hlimited : Traffic .hosts crowded earlier (limited c 8192 .warn) :=
    .elsewhere _ (traffic_of_carry? .start _ hfirst) ⟨fun _ _ _ _ _ => rfl, fun _ => Iff.rfl⟩
  have hstrict : Traffic .hosts crowded before (limited d 8192 .fatalWarnings) :=
    .elsewhere _ (traffic_of_carry? hlimited _ hsecond) ⟨fun _ _ _ _ _ => rfl, fun _ => Iff.rfl⟩
  have hrun := traffic_of_carry? hstrict _ hlast
  exact ⟨past, e, hrun, hcount, hnotes, locks_of_traffic hrun (fun _ => rfl) fun _ => by
    rintro ⟨_, hnone, _⟩
    cases hnone⟩

end Depot

end StagingMemory
