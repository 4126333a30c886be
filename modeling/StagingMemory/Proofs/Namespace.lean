import StagingMemory.Proofs.Leadership
import StagingMemory.Proofs.Termination
/-!
The names of a machine on which one call follows the other: whatever the calls were and however they
ended, a name is bound exactly if one leader's block is outstanding under it, and then to the
segment of that block, published and of the block's length. While one call goes on, every bound
name is still ruled by a leader, and no leftover is ever found.
-/
namespace StagingMemory

/-- The segment belongs to a process that exists, and has a header. -/
def Kernel.Claimed (k : Kernel) (id : SegmentId) : Prop :=
  k.ownerAlive id = true ∧ Page.headerLength ≤ k.segmentLength id

namespace Attach

/-- What the call found under its name is nobody's leftover. -/
def FindsNone (k : Kernel) : Phase → Prop
  | .measureLeftover id | .mapLeftover id => k.Claimed id
  | .checkLeftover m => k.Claimed m.segment
  | .retireLeftover _ | .removeLeftover | .reportLeftover => False
  | _ => True

namespace Transition

variable {a : Attach} {phase phase' : Phase} {s t : Site} {progress : Progress Phase Result}

theorem findsNone (h : Transition a phase s (.running phase') t)
    (hopen : ∀ id, phase = .findLeftover → s.openSegment a.config.segment = .ok id →
      s.kernel.Claimed id) (hnone : FindsNone s.kernel phase) : FindsNone t.kernel phase' := by
  cases h with
  | leftoverFound h => exact hopen _ rfl h
  | leftoverShort h => exact absurd hnone.2 (Nat.not_le.mpr h)
  | leftoverLong => exact hnone
  | leftoverMapped h =>
    obtain ⟨hid, -, ht, -⟩ := Site.mapped_of_mapSegment h
    rw [ht]
    simp only [FindsNone, hid]
    exact hnone
  | leftoverOrphaned h => cases h.symm.trans hnone.1
  | leftoverRetired | leftoverRemoved => exact hnone
  | registered => split <;> trivial
  | _ => trivial

theorem accounts_eq (h : Transition a phase s (.running phase') t) :
    t.process.accounts = s.process.accounts := by
  cases h with
  | leftoverMapped h | mapped h | foundMapped h =>
    rw [(Site.mapped_of_mapSegment h).2.2.1]
  | leftoverReported h => exact (Process.wrote_of_emit h).accounts_eq
  | created h => rw [(Site.created_of_createSegment h).2]
  | resized h => rw [Site.of_resizeSegment h]
  | registered h | unregistered h | registerFatal h =>
    exact (Device.kept_of_register h).accounts_eq
  | undoneError =>
    unfold undone
    split <;> rfl
  | _ => rfl

/-- A leader that rules its name goes on ruling it, or has removed it. -/
theorem rules_after (h : Transition a phase s progress t) (hrole : a.config.isLeader = true)
    (hfits : a.Fits s.process) (hrules : Attach.rules phase = true) :
    (Stage.after (progress.map (.attach a) .ofResult)).rules = true ∨
      t.kernel.names.get? a.config.segment = none := by
  cases h with
  | discarded => exact Or.inr (by simp [Site.unbind, Kernel.get?_names_unbind])
  | undoneError | undoneFault | undoneAbort =>
    right
    rw [undone, if_pos hrole]
    simp [Site.unbind, Site.unmap, Kernel.get?_names_unbind]
  | registered =>
    rw [if_pos hrole]
    exact Or.inl rfl
  | finished h =>
    have ho := (succeeded_spec h).2
    have hroom : (s.process.account a.account).bytes.current.toNat + a.bytes.toNat <
        UInt64.size := hfits
    rw [if_pos hroom] at ho
    rw [ho]
    exact Or.inl rfl
  | _ => first | exact Or.inl rfl | cases hrules

end Transition

end Attach

namespace Detach

/-- The device knows the block, and the deadline for the followers can be told. -/
def Prepared (d : Detach) (s : Site) : Phase → Prop
  | .unregister =>
    (∃ p, d.device.unregister s.process d.block.address d.block.bytes = (.ok (), p)) ∧
      (d.config.teardownTimeout.isZero = true ∨ ∃ w,
        Wait.start? s.kernel.clock d.config.teardownTimeout d.config.pollInterval = some w)
  | .gather _ => d.config.teardownTimeout.isZero = true ∨ ∃ w,
      Wait.start? s.kernel.clock d.config.teardownTimeout d.config.pollInterval = some w
  | _ => True

namespace Transition

variable {d : Detach} {phase phase' : Phase} {s t : Site} {progress : Progress Phase Unit}

theorem prepared (h : Transition d phase s (.running phase') t) (hprepared : d.Prepared s phase) :
    d.Prepared t phase' := by
  cases h with
  | unregistered =>
    split
    · exact hprepared.2
    · trivial
  | _ => trivial

/-- A leader that rules its name goes on ruling it, or has removed it. -/
theorem rules_after (h : Transition d phase s progress t) (hrole : d.config.isLeader = true)
    (hblock : phase = .unregister → ∃ m, s.mappingOf? d.block = some m)
    (hprepared : d.Prepared s phase) (hrules : Detach.rules phase = true) :
    (Stage.after (progress.map (.detach d) fun _ => .released)).rules = true ∨
      t.kernel.names.get? d.config.segment = none := by
  cases h with
  | refused h =>
    obtain ⟨⟨p, hp⟩, -⟩ := hprepared
    cases h.symm.trans hp
  | @lost _ p h hm =>
    obtain ⟨m, hbefore⟩ := hblock rfl
    have hkept := (Device.kept_of_unregister h).relocked
    have hafter := Site.mappingOf?_relocked (s := s) (t := ⟨s.kernel, p⟩) hkept d.block
    cases hm.symm.trans (hafter.trans hbefore)
  | unregistered =>
    rw [if_pos hrole]
    exact Or.inl rfl
  | overflowed hz h =>
    rcases hprepared with hzero | ⟨w, hw⟩
    · cases hz.symm.trans hzero
    · cases h.symm.trans hw
  | unlinked => exact Or.inr (by simp [Site.unbind, Kernel.get?_names_unbind])
  | unlinkFailed h => exact Or.inr h
  | left | closed => cases hrules
  | _ => exact Or.inl rfl

end Transition

end Detach
/-- What the hypotheses of a call come to at a later stage of it. -/
def Stage.Guarded (s : Site) : Stage → Prop
  | calling (.attach a phase) => Attach.FindsNone s.kernel phase ∧ a.Fits s.process
  | calling (.detach d phase) => d.Prepared s phase
  | _ => True

namespace Call

variable {c : Call} {config : SharingConfig} {s : Site}

theorem alive_step (c : Call) (s : Site) : (c.step s).2.kernel.alive = s.kernel.alive := by
  cases c with
  | attach a phase => exact (a.step_transition phase s).alive_eq
  | detach d phase => exact (d.step_transition phase s).alive_eq

theorem rules_after (hsuits : (Stage.calling c).Suits config s) (hrole : config.isLeader = true)
    (hguarded : (Stage.calling c).Guarded s) (hrules : (Stage.calling c).rules = true) :
    (Stage.after (c.step s).1).rules = true ∨
      (c.step s).2.kernel.names.get? config.segment = none := by
  cases c with
  | attach a phase =>
    obtain ⟨rfl, -⟩ := hsuits
    exact (a.step_transition phase s).rules_after hrole hguarded.2 hrules
  | detach d phase =>
    obtain ⟨rfl, -, hblock⟩ := hsuits
    exact (d.step_transition phase s).rules_after hrole hblock hguarded hrules

theorem guarded_step (hsuits : (Stage.calling c).Suits config s)
    (hguarded : (Stage.calling c).Guarded s)
    (hopen : (Stage.calling c).rules = false → ∀ id,
      s.kernel.names.get? config.segment = some id → s.kernel.Claimed id) :
    (Stage.after (c.step s).1).Guarded (c.step s).2 := by
  cases c with
  | attach a phase =>
    obtain ⟨rfl, -⟩ := hsuits
    have ht := a.step_transition phase s
    simp only [step, ofAttach]
    cases hprogress : (a.step phase s).1 with
    | done o => cases o with
      | returned r => cases r <;> trivial
      | faulted | aborted => trivial
    | running next =>
      rw [hprogress] at ht
      refine ⟨ht.findsNone ?_ hguarded.1, ?_⟩
      · rintro id rfl hfound
        exact hopen rfl id (Site.names_of_openSegment hfound)
      · simp only [Attach.Fits, Process.account, ht.accounts_eq]
        exact hguarded.2
  | detach d phase =>
    have ht := d.step_transition phase s
    simp only [step, ofDetach]
    cases hprogress : (d.step phase s).1 with
    | done o => cases o <;> trivial
    | running next =>
      rw [hprogress] at ht
      exact ht.prepared hguarded

/-- Waking up takes time, and nothing else. -/
theorem wakeUp_spec (c : Call) (s : Site) :
    ∃ clock, c.wakeUp s = { s with kernel := { s.kernel with clock } } ∧
      (c.wake? = none → clock = s.kernel.clock) := by
  unfold wakeUp
  cases c.wake? with
  | none => exact ⟨s.kernel.clock, rfl, fun _ => rfl⟩
  | some wake => exact ⟨_, rfl, by simp⟩

theorem guarded_wakeUp (hguarded : (Stage.calling c).Guarded s) :
    (Stage.calling c).Guarded (c.wakeUp s) := by
  obtain ⟨clock, heq, hclock⟩ := c.wakeUp_spec s
  rw [heq]
  cases c with
  | attach a phase => exact hguarded
  | detach d phase =>
    cases phase with
    | pause => trivial
    | _ =>
      obtain rfl := hclock rfl
      exact hguarded

end Call

namespace Machine

variable {κ : Type u} {ι : Type v}

def Busy (m : Machine κ ι) (i : ι) : Prop := ∃ c, m.stage i = .calling c

def Backed (m : Machine κ ι) (roster : ι → Member κ) : Prop :=
  ∀ name id, m.kernel.names.get? name = some id →
    ∃ i, m.RulesName roster i ∧ (roster i).config.segment = name

/-- The names are in order, and nobody but this member has a call in flight. -/
structure Solo (m : Machine κ ι) (roster : ι → Member κ) (i : ι) : Prop where
  sound : m.Sound roster
  ruled : m.Ruled roster
  alive : m.Alive
  backed : m.Backed roster
  rests : ∀ j, j ≠ i → ¬ m.Busy j
  guarded : (roster i).config.isLeader = true → (m.stage i).Guarded (m.site (roster i).home)

/-- The names are in order, and no call is in flight. -/
structure AtRest (m : Machine κ ι) (roster : ι → Member κ) : Prop where
  sound : m.Sound roster
  ruled : m.Ruled roster
  alive : m.Alive
  backed : m.Backed roster
  rests : ∀ i, ¬ m.Busy i

section

variable {m : Machine κ ι} {roster : ι → Member κ}

theorem atRest_of_idle (halive : m.Alive) (hidle : ∀ i, m.stage i = .idle)
    (hfree : ∀ name, m.kernel.names.get? name = none) : m.AtRest roster := by
  refine ⟨sound_of_idle hidle, ruled_of_idle hidle, halive, ?_, ?_⟩
  · intro name id hbound
    cases (hfree name).symm.trans hbound
  · intro i hbusy
    obtain ⟨c, hc⟩ := hbusy
    cases (hidle i).symm.trans hc

theorem Solo.atRest {i : ι} (h : m.Solo roster i) (hrests : ¬ m.Busy i) : m.AtRest roster := by
  refine ⟨h.sound, h.ruled, h.alive, h.backed, ?_⟩
  intro j hj
  by_cases hji : j = i
  · exact hrests (hji ▸ hj)
  · exact h.rests j hji hj

/-- Who rules without a call in flight holds a published block. -/
theorem Ruled.published (h : m.Ruled roster) (hsound : m.Sound roster) {i : ι}
    (hi : m.RulesName roster i) (hrests : ¬ m.Busy i) : ∃ block mapping,
      m.stage i = .holding block ∧ (m.site (roster i).home).mappingOf? block = some mapping ∧
      block.Published (roster i).config.segment (m.site (roster i).home) mapping := by
  obtain ⟨hrole, hstage⟩ := hi
  have hsuits := hsound.suits i
  have hrules := h.rules i hrole
  cases hs : m.stage i with
  | idle | halted =>
    rw [hs] at hstage
    cases hstage
  | calling c => exact absurd ⟨c, hs⟩ hrests
  | holding block =>
    rw [hs] at hsuits hrules
    obtain ⟨mapping, hmapping⟩ := hsuits
    exact ⟨block, mapping, rfl, hmapping, hrules mapping hmapping⟩

/-- What a leader finds under its name, while the others rest, is claimed. -/
theorem Solo.claimed {i : ι} (h : m.Solo roster i) (hi : ¬ m.RulesName roster i)
    {name : SegmentName} {id : SegmentId} (hbound : m.kernel.names.get? name = some id) :
    m.kernel.Claimed id := by
  obtain ⟨j, hj, rfl⟩ := h.backed name id hbound
  have hji : j ≠ i := by
    rintro rfl
    exact hi hj
  obtain ⟨block, mapping, -, -, hpublished⟩ := h.ruled.published h.sound hj (h.rests j hji)
  obtain rfl := Option.some.inj (hpublished.1.symm.trans hbound)
  constructor
  · rw [Kernel.ownerAlive, show (m.kernel.header mapping.segment).owner = _ from
      hpublished.owner_eq]
    exact h.alive (roster j).home
  · rw [show m.kernel.segmentLength mapping.segment = _ from hpublished.length_eq]
    exact Nat.le_add_right _ _

/-- A call alone spares what is ruled: it takes nothing for a leftover. -/
theorem Solo.spares {i : ι} {c : Call} (h : m.Solo roster i) (hcalling : m.stage i = .calling c) :
    m.Spares roster (some ⟨i, c⟩) := by
  have hsuits := h.sound.suits i
  have hguarded := h.guarded
  rw [hcalling] at hsuits hguarded
  refine fun j hj k a => ⟨?_, ?_⟩
  · intro mapping heq
    cases heq
    exact (hguarded (hsuits.1 ▸ hsuits.2)).1.elim
  · intro heq
    cases heq
    exact (hguarded (hsuits.1 ▸ hsuits.2)).1.elim

variable [DecidableEq κ] [DecidableEq ι]

theorem Solo.backed_access {i : ι} {c : Call} (h : m.Solo roster i)
    (hcalling : m.stage i = .calling c) :
    (m.settle roster i (c.step (m.site (roster i).home))).Backed roster := by
  have hsuits := h.sound.suits i
  have hguarded := h.guarded
  rw [hcalling] at hsuits hguarded
  have hconfig := Call.config_eq hsuits
  -- The others go on ruling; the acting leader does, unless this access removed its name.
  have hother : ∀ j, j ≠ i → m.RulesName roster j →
      (m.settle roster i (c.step (m.site (roster i).home))).RulesName roster j :=
    fun j hji hj => ⟨hj.1, by rw [stage_settle_of_ne hji]; exact hj.2⟩
  intro name id hbound
  simp only [settle] at hbound
  cases c.names_step (m.site (roster i).home) with
  | keeps hnames =>
    have hbefore := hnames name
    rw [hbound] at hbefore
    obtain ⟨j, hj, rfl⟩ := h.backed name id hbefore.symm
    by_cases hji : j = i
    · subst hji
      have hstage := hj.2
      rw [hcalling] at hstage
      rcases Call.rules_after hsuits hj.1 (hguarded hj.1) hstage with hafter | hnone
      · exact ⟨j, ⟨hj.1, by rw [stage_settle_self]; exact hafter⟩, rfl⟩
      · cases hnone.symm.trans hbound
    · exact ⟨j, hother j hji hj, rfl⟩
  | @binds a new hc hnext hcreated =>
    subst hc
    have hnames := hcreated.names_eq name
    rw [hbound] at hnames
    split at hnames
    case isTrue heq =>
      refine ⟨i, ⟨?_, ?_⟩, (congrArg SharingConfig.segment hconfig).symm.trans heq.symm⟩
      · exact hsuits.1 ▸ hsuits.2
      · rw [stage_settle_self, hnext]
        rfl
    case isFalse =>
      obtain ⟨j, hj, rfl⟩ := h.backed name id hnames.symm
      have hji : j ≠ i := by
        rintro rfl
        have hstage := hj.2
        rw [hcalling] at hstage
        cases hstage
      exact ⟨j, hother j hji hj, rfl⟩
  | unbinds hc hnames =>
    rw [hnames] at hbound
    split at hbound
    case isTrue => cases hbound
    case isFalse hne =>
      obtain ⟨j, hj, rfl⟩ := h.backed name id hbound
      have hji : j ≠ i := by
        rintro rfl
        exact hne (by rw [hconfig])
      exact ⟨j, hother j hji hj, rfl⟩

/-- An access of the only call in flight keeps the names in order. -/
theorem Solo.access {i : ι} {c : Call} (h : m.Solo roster i) (hcalling : m.stage i = .calling c) :
    (m.settle roster i (c.step (m.site (roster i).home))).Solo roster i where
  sound := sound_access h.sound hcalling
  ruled := h.ruled.access h.sound hcalling (h.spares hcalling)
  alive home := by
    rw [pid_settle (c.pid_step _), ← h.alive home]
    simp only [settle, Kernel.processAlive, c.alive_step]
    rfl
  backed := h.backed_access hcalling
  rests j hji := by
    intro hbusy
    obtain ⟨its, hits⟩ := hbusy
    rw [stage_settle_of_ne hji] at hits
    exact h.rests j hji ⟨its, hits⟩
  guarded hrole := by
    have hsuits := h.sound.suits i
    have hguarded := h.guarded hrole
    rw [hcalling] at hsuits hguarded
    rw [stage_settle_self, site_settle_self]
    apply Call.guarded_step hsuits hguarded
    intro hrules id hbound
    refine h.claimed ?_ hbound
    intro hi
    have hstage := hi.2
    rw [hcalling, hrules] at hstage
    cases hstage

/-- So does the time that the call waits for. -/
theorem Solo.wakeUp {i : ι} {c : Call} (h : m.Solo roster i) (hcalling : m.stage i = .calling c) :
    ({ m with kernel := (c.wakeUp (m.site (roster i).home)).kernel } : Machine κ ι).Solo
      roster i := by
  have hguarded := h.guarded
  rw [hcalling] at hguarded
  obtain ⟨clock, heq, -⟩ := c.wakeUp_spec (m.site (roster i).home)
  have hsite : (c.wakeUp (m.site (roster i).home)) =
      ⟨(c.wakeUp (m.site (roster i).home)).kernel, m.process (roster i).home⟩ := by
    rw [heq]
    rfl
  refine ⟨?_, ?_, ?_, ?_, h.rests, ?_⟩
  · rw [heq]
    exact sound_step h.sound (.elapse clock)
  · rw [heq]
    exact h.ruled.stays h.sound rfl rfl rfl (fun _ => rfl) h.sound.placed
  · intro home
    rw [heq]
    exact h.alive home
  · rw [heq]
    exact h.backed
  · intro hrole
    have hwoken := Call.guarded_wakeUp (hguarded hrole)
    rw [hsite] at hwoken
    simp only [hcalling]
    exact hwoken

theorem settle_settle {i : ι} (first second : Progress Call Reply × Site) :
    (m.settle roster i first).settle roster i second = m.settle roster i second := by
  simp only [settle, Function.update_idem]

/-- A step of a call alone, and the time before it. -/
theorem Solo.advance {i : ι} {c : Call} {s : Site}
    (h : (m.settle roster i (.running c, s)).Solo roster i) :
    (m.settle roster i (c.advance s)).Solo roster i := by
  have hstage : (m.settle roster i (.running c, s)).stage i = .calling c := stage_settle_self ..
  have hwoken := h.wakeUp hstage
  rw [site_settle_self] at hwoken
  have heq : ({ m.settle roster i (.running c, s) with kernel := (c.wakeUp s).kernel } :
      Machine κ ι) = m.settle roster i (.running c, c.wakeUp s) := by
    obtain ⟨clock, heq, -⟩ := c.wakeUp_spec s
    rw [heq]
    rfl
  rw [heq] at hwoken
  have haccess := hwoken.access (stage_settle_self ..)
  rw [site_settle_self, settle_settle] at haccess
  rw [Call.advance_eq]
  exact haccess

/-- A whole call alone ends, and leaves the names in order. -/
theorem Solo.runAlone {i : ι} {c : Call} {s : Site} {steps : Nat}
    (h : (m.settle roster i (.running c, s)).Solo roster i)
    (hbudget : c.budget s.kernel.clock < steps) :
    (m.settle roster i (runAlone steps (.running c, s))).AtRest roster := by
  have hadvances : ∀ c s, (m.settle roster i (.running c, s)).Solo roster i →
      Reached (fun c s => (m.settle roster i (.running c, s)).Solo roster i)
        (fun o t => (m.settle roster i (.done o, t)).AtRest roster) (c.advance s) := by
    intro c s hsolo
    have hadvance := hsolo.advance
    cases hresult : c.advance s with
    | mk progress t =>
      rw [hresult] at hadvance
      cases progress with
      | running next => exact hadvance
      | done o =>
        apply hadvance.atRest
        intro hbusy
        obtain ⟨its, hits⟩ := hbusy
        rw [stage_settle_self] at hits
        cases Stage.after_eq_calling hits
  obtain ⟨o, t, heq, hrest⟩ := runAlone_rule _ _ hadvances c s steps hbudget h
  rw [heq]
  exact hrest

/-! ### One call after the other -/

/-- Beginning a call while the others rest leaves the names in order. -/
theorem AtRest.begin (h : m.AtRest roster) {i : ι} {progress : Progress Call Reply}
    (hstep : Step roster m none (m.settle roster i (progress, m.site (roster i).home)))
    (hrules : (m.stage i).rules = true → (Stage.after progress).rules = true)
    (hguarded : (roster i).config.isLeader = true →
      (Stage.after progress).Guarded (m.site (roster i).home)) :
    (m.settle roster i (progress, m.site (roster i).home)).Solo roster i where
  sound := sound_step h.sound hstep
  ruled := h.ruled.step h.sound spares_none hstep
  alive home := by
    rw [pid_step hstep]
    exact h.alive home
  backed name id hbound := by
    obtain ⟨j, hj, hname⟩ := h.backed name id hbound
    refine ⟨j, ⟨hj.1, ?_⟩, hname⟩
    by_cases hji : j = i
    · subst hji
      rw [stage_settle_self]
      exact hrules hj.2
    · rw [stage_settle_of_ne hji]
      exact hj.2
  rests j hji := by
    intro hbusy
    obtain ⟨c, hc⟩ := hbusy
    rw [stage_settle_of_ne hji] at hc
    exact h.rests j ⟨c, hc⟩
  guarded hrole := by
    rw [stage_settle_self, site_settle_self]
    exact hguarded hrole

/-- What goes on between two calls, or one whole call, with nothing else going on. When a leader
allocates, its account has room; when it releases, its device knows the block, and the deadline for
the followers can be told. -/
inductive Turn (roster : ι → Member κ) : Machine κ ι → Machine κ ι → Prop
  | allocate {m : Machine κ ι} (i : ι) (bytes : UInt64) (h : m.stage i = .idle)
      (hfits : (roster i).config.isLeader = true →
        ((m.process (roster i).home).account (roster i).account).bytes.current.toNat +
          bytes.toNat < UInt64.size) :
      Turn roster m
        (m.settle roster i ((roster i).resource.allocate bytes (m.site (roster i).home)))
  | release {m : Machine κ ι} (i : ι) (block : Block) (h : m.stage i = .holding block)
      (hknown : (roster i).config.isLeader = true → ∃ p,
        (roster i).device.unregister (m.process (roster i).home) block.address block.bytes =
          (.ok (), p))
      (hdeadline : (roster i).config.isLeader = true →
        (roster i).config.teardownTimeout.isZero = true ∨
        ∃ w, Wait.start? m.kernel.clock (roster i).config.teardownTimeout
          (roster i).config.pollInterval = some w) :
      Turn roster m
        (m.settle roster i ((roster i).resource.release block (m.site (roster i).home)))
  | elapse {m : Machine κ ι} (clock : Nat) :
      Turn roster m { m with kernel := { m.kernel with clock } }
  | populate {m : Machine κ ι} (alive : List UInt32) :
      Turn roster m { m with kernel := { m.kernel with alive } }
  | move {m : Machine κ ι} (home : κ) (p : Process) (h : (m.process home).Moves p) :
      Turn roster m { m with process := Function.update m.process home p }

/-- Any turns one after the other, while all processes exist. -/
inductive Turns (roster : ι → Member κ) (m₀ : Machine κ ι) : Machine κ ι → Prop
  | start (h : m₀.Alive) : Turns roster m₀ m₀
  | turn {m next : Machine κ ι} (hturns : Turns roster m₀ m) (hturn : Turn roster m next)
      (h : next.Alive) : Turns roster m₀ next

theorem AtRest.allocate (h : m.AtRest roster) {i : ι} {bytes : UInt64} (hidle : m.stage i = .idle)
    (hfits : (roster i).config.isLeader = true →
      ((m.process (roster i).home).account (roster i).account).bytes.current.toNat +
        bytes.toNat < UInt64.size) :
    (m.settle roster i
      ((roster i).resource.allocate bytes (m.site (roster i).home))).AtRest roster := by
  have hstep : Step roster m none
      (m.settle roster i ((roster i).resource.beginAllocate bytes (m.site (roster i).home))) :=
    .allocate i bytes hidle
  have hrules : ∀ progress, (m.stage i).rules = true → (Stage.after progress).rules = true :=
    fun progress hi => by
      rw [hidle] at hi
      cases hi
  simp only [Resource.allocate]
  rcases (roster i).beginAllocate_spec bytes (m.site (roster i).home) with
    ⟨phase, hfirst, heq⟩ | ⟨o, heq, hafter⟩
  · have hbudget := Resource.budget_beginAllocate heq
    rw [heq] at hstep ⊢
    refine (h.begin hstep (hrules _) fun hrole => ⟨?_, hfits hrole⟩).runAlone hbudget
    cases hfirst <;> trivial
  · rw [heq] at hstep ⊢
    rw [runAlone_done]
    refine (h.begin hstep (hrules _) ?_).atRest ?_
    · intro _
      rw [hafter]
      trivial
    · intro hbusy
      obtain ⟨c, hc⟩ := hbusy
      rw [stage_settle_self, hafter] at hc
      cases hc

theorem AtRest.release (h : m.AtRest roster) {i : ι} {block : Block}
    (hholding : m.stage i = .holding block)
    (hknown : (roster i).config.isLeader = true → ∃ p,
      (roster i).device.unregister (m.process (roster i).home) block.address block.bytes =
        (.ok (), p))
    (hdeadline : (roster i).config.isLeader = true →
      (roster i).config.teardownTimeout.isZero = true ∨
      ∃ w, Wait.start? m.kernel.clock (roster i).config.teardownTimeout
        (roster i).config.pollInterval = some w) :
    (m.settle roster i
      ((roster i).resource.release block (m.site (roster i).home))).AtRest roster := by
  have hstep : Step roster m none
      (m.settle roster i ((roster i).resource.beginRelease block (m.site (roster i).home))) :=
    .release i block hholding
  have hsolo := h.begin hstep (fun _ => rfl) fun hrole => ⟨hknown hrole, hdeadline hrole⟩
  exact hsolo.runAlone (Detach.budget_begin rfl)

/-- Every turn keeps the names in order. -/
theorem AtRest.turn {next : Machine κ ι} (h : m.AtRest roster) (hturn : Turn roster m next)
    (halive : next.Alive) : next.AtRest roster := by
  cases hturn with
  | allocate i bytes hidle hfits => exact h.allocate hidle hfits
  | release i block hholding hknown hdeadline => exact h.release hholding hknown hdeadline
  | elapse clock =>
    exact ⟨sound_step h.sound (.elapse clock),
      h.ruled.stays h.sound rfl rfl rfl (fun _ => rfl) h.sound.placed, halive, h.backed, h.rests⟩
  | populate alive =>
    exact ⟨sound_step h.sound (.populate alive),
      h.ruled.stays h.sound rfl rfl rfl (fun _ => rfl) h.sound.placed, halive, h.backed, h.rests⟩
  | move home p hmoves =>
    have hstep : Step roster m none { m with process := Function.update m.process home p } :=
      .move home p hmoves
    exact ⟨sound_step h.sound hstep, h.ruled.step h.sound spares_none hstep,
      halive, h.backed, h.rests⟩

theorem atRest_of_turns {m₀ : Machine κ ι} (hturns : Turns roster m₀ m)
    (hidle : ∀ i, m₀.stage i = .idle) (hfree : ∀ name, m₀.kernel.names.get? name = none) :
    m.AtRest roster := by
  induction hturns with
  | start halive => exact atRest_of_idle halive hidle hfree
  | turn _ hturn halive ih => exact ih.turn hturn halive

/-- A leader's block is outstanding under the name. -/
def Outstanding (m : Machine κ ι) (roster : ι → Member κ) (name : SegmentName) (i : ι) : Prop :=
  (roster i).config.isLeader = true ∧ (roster i).config.segment = name ∧
    ∃ block, m.stage i = .holding block

/-- Whatever whole calls were made, one after the other, and however they ended: a name is bound
exactly if one leader's block is outstanding under it, and each such block has its segment bound
under its name, ready, owned by the process, and as long as it should be. -/
theorem namespace_exact {m₀ : Machine κ ι} (hturns : Turns roster m₀ m)
    (hidle : ∀ i, m₀.stage i = .idle) (hfree : ∀ name, m₀.kernel.names.get? name = none)
    (name : SegmentName) :
    ((∃ id, m.kernel.names.get? name = some id) ↔ ∃! i, m.Outstanding roster name i) ∧
    ∀ i block, (roster i).config.isLeader = true → (roster i).config.segment = name →
      m.stage i = .holding block →
      ∃ mapping, (m.site (roster i).home).mappingOf? block = some mapping ∧
        m.kernel.names.get? name = some mapping.segment ∧
        (m.kernel.header mapping.segment).state = Header.readyMark ∧
        (m.kernel.header mapping.segment).owner = (m.process (roster i).home).pid ∧
        (m.kernel.header mapping.segment).bytes = block.bytes ∧
        m.kernel.segmentLength mapping.segment = Page.headerLength + block.bytes.toNat := by
  have hrest := atRest_of_turns hturns hidle hfree
  have hrules : ∀ i, m.Outstanding roster name i → m.RulesName roster i := by
    intro i hi
    obtain ⟨hrole, -, block, hholding⟩ := hi
    exact ⟨hrole, by rw [hholding]; rfl⟩
  refine ⟨⟨?_, ?_⟩, ?_⟩
  · intro hnamed
    obtain ⟨id, hbound⟩ := hnamed
    obtain ⟨i, hi, rfl⟩ := hrest.backed name id hbound
    obtain ⟨block, -, hholding, -, -⟩ := hrest.ruled.published hrest.sound hi (hrest.rests i)
    refine ⟨i, ⟨hi.1, rfl, block, hholding⟩, ?_⟩
    intro j hj
    exact hrest.ruled.alone j i (hrules j hj) hi hj.2.1
  · intro hunique
    obtain ⟨i, hi, -⟩ := hunique
    have hbound := hrest.ruled.bound hrest.sound (hrules i hi)
    rw [hi.2.1] at hbound
    exact hbound
  · intro i block hrole hname hholding
    subst hname
    have hi := hrules i ⟨hrole, rfl, block, hholding⟩
    obtain ⟨held, mapping, hheld, hmapping, hpublished⟩ :=
      hrest.ruled.published hrest.sound hi (hrest.rests i)
    rw [hholding] at hheld
    cases hheld
    exact ⟨mapping, hmapping, hpublished.1, hpublished.state_eq, hpublished.owner_eq,
      hpublished.bytes_eq, hpublished.length_eq⟩

/-- Of two leaders of one name the first has its block, and the second is refused. -/
theorem namespace_exact_second_refused : ∃ m : Machine Bool Bool,
    (m.stage true).block? = none ∧ m.kernel.names.get? ⟨"/group", by decide⟩ = some 0 ∧
      ∃! i, m.Outstanding (fun home => sample home id) ⟨"/group", by decide⟩ i := by
  have hstart : Turns (fun home : Bool => sample home id)
      (fresh (fun home => if home then 2 else 1) [1, 2]) _ := .start (by decide +kernel)
  have hfirst := hstart.turn (.allocate false 4096 rfl fun _ => by decide +kernel)
    (by decide +kernel)
  have hsecond := hfirst.turn (.allocate true 4096 rfl fun _ => by decide +kernel)
    (by decide +kernel)
  have hnames := (namespace_exact hsecond (fun _ => rfl) (fun _ => rfl) ⟨"/group", by decide⟩).1
  refine ⟨_, ?_, ?_, hnames.mp ⟨0, ?_⟩⟩ <;> decide +kernel

end

end Machine
end StagingMemory
