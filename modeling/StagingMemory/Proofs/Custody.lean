import StagingMemory.Proofs.Reclaim
/-!
Whose segment a leader removes. Removal goes by name, so it takes the past of a run to say what a
removed name was bound to: a registry beside the run notes how many allocations each member has
begun, and which segment it created last and in which of them, until it removes its name. As long as
no leader removes leftovers, no two members of one name stand in the registry at once, and who
removes its name removes what it created in the same cycle. Main statement: `Machine.removes_own`.
-/
namespace StagingMemory

namespace Attach

def reclaims : Phase → Bool
  | .findLeftover | .measureLeftover _ | .mapLeftover _ | .checkLeftover _ | .retireLeftover _
  | .removeLeftover | .reportLeftover => true
  | _ => false

/-- Leftovers are dealt with at the beginning, or not at all. -/
theorem Transition.reclaims_eq_false {a : Attach} {phase phase' : Phase} {s t : Site}
    (h : Transition a phase s (.running phase') t) (hphase : reclaims phase = false) :
    reclaims phase' = false := by
  cases h with
  | registered => split <;> rfl
  | leftoverFound | leftoverShort | leftoverLong | leftoverMapped | leftoverOrphaned
  | leftoverRetired | leftoverRemoved => cases hphase
  | _ => rfl

end Attach

def Stage.reclaims : Stage → Bool
  | calling (.attach _ phase) => Attach.reclaims phase
  | _ => false

/-- A leader that is not to remove leftovers does not look for any. -/
theorem Member.reclaims_beginAllocate {κ : Type u} (r : Member κ)
    (hnever : r.config.isLeader = true → r.config.reclaimStale = false) (bytes : UInt64)
    (s : Site) : (Stage.after (r.resource.beginAllocate bytes s).1).reclaims = false := by
  unfold Resource.beginAllocate Member.resource
  split
  · rfl
  · dsimp only
    unfold Attach.begin
    split
    · rfl
    · split
      case isTrue hrole =>
        have hreclaim : r.config.reclaimStale = false := hnever hrole
        simp [Call.ofAttach, Progress.map, Stage.after, Stage.reclaims, hreclaim, Attach.reclaims]
      case isFalse => split <;> rfl

/-- A step that removes the name does nothing else to what the processes share. -/
theorem Call.kernel_of_unbinds {c : Call} (h : c.unbinds = true) (s : Site) :
    (c.step s).2.kernel = s.kernel.unbind c.config.segment := by
  cases c with
  | attach a phase =>
    have ht := a.step_transition phase s
    have hrole : ∀ m ending, phase = .undo m ending → a.config.isLeader = true := by
      intro m ending hphase
      subst hphase
      exact h
    simp only [step, ofAttach, config]
    generalize (a.step phase s).1 = progress, (a.step phase s).2 = t at ht
    cases ht with
    | leftoverRemoved | discarded => rfl
    | leftoverGone hfree => exact (Kernel.unbind_of_unbound hfree).symm
    | undoneError | undoneFault | undoneAbort =>
      unfold Attach.undone
      rw [if_pos (hrole _ _ rfl)]
      rfl
    | _ => cases h
  | detach d phase =>
    have ht := d.step_transition phase s
    simp only [step, ofDetach, config]
    generalize (d.step phase s).1 = progress, (d.step phase s).2 = t at ht
    cases ht with
    | unlinked => rfl
    | unlinkFailed hfree => exact (Kernel.unbind_of_unbound hfree).symm
    | _ => cases h

/-! ### What is noted beside a run -/

/-- A segment that a member created, and the cycle in which it did. -/
structure Tenure where
  cycle : Nat
  segment : SegmentId

def Call.creates? : Call → Stage → Option SegmentId
  | attach _ .create, .calling (.attach _ (.resize id)) => some id
  | _, _ => none

/-- What a step creates is new, and bound to the name from then on. -/
theorem Call.created_of_creates? {c : Call} {s : Site} {id : SegmentId}
    (h : c.creates? (.after (c.step s).1) = some id) :
    ∃ a, c = .attach a .create ∧
      Stage.after (c.step s).1 = .calling (.attach a (.resize id)) ∧
      s.kernel.Created a.config.segment id (c.step s).2.kernel := by
  unfold creates? at h
  split at h
  case h_1 a b j hafter =>
    cases h
    obtain ⟨phase, heq, ht⟩ := Call.attach_of_step (Stage.after_eq_calling hafter)
    cases heq
    refine ⟨a, rfl, hafter, ?_⟩
    generalize (step (.attach a .create) s).2 = t at ht
    cases ht with
    | created hcreate => exact (Site.created_of_createSegment hcreate).1
  case h_2 => cases h

/-- What the acting member has created and not removed after its step: nothing if the step removes
the name, whatever is bound under it. -/
def Tenure.after (c : Call) (stage : Stage) (cycle : Nat) (tenure : Option Tenure) :
    Option Tenure :=
  if c.unbinds then none
  else match c.creates? stage with
    | some id => some ⟨cycle, id⟩
    | none => tenure

def Stage.begins : Stage → Stage → Bool
  | idle, calling _ => true
  | _, _ => false

structure Registry (ι : Type v) where
  /-- How many allocations each member has begun. -/
  cycle : ι → Nat
  /-- What each member created and has not removed since. -/
  tenure : ι → Option Tenure

namespace Registry

variable {κ : Type u} {ι : Type v} [DecidableEq ι]

def blank : Registry ι := ⟨fun _ => 0, fun _ => none⟩

def note (r : Registry ι) (m next : Machine κ ι) (access : Option (Access ι)) : Registry ι where
  cycle i := if (m.stage i).begins (next.stage i) then r.cycle i + 1 else r.cycle i
  tenure i := match access with
    | some x => if x.member = i then Tenure.after x.call (next.stage i) (r.cycle i) (r.tenure i)
      else r.tenure i
    | none => r.tenure i

variable {r : Registry ι} {m next : Machine κ ι}

@[simp] theorem tenure_note_none (i : ι) : (r.note m next none).tenure i = r.tenure i := rfl

@[simp] theorem tenure_note_self (i : ι) (c : Call) :
    (r.note m next (some ⟨i, c⟩)).tenure i =
      Tenure.after c (next.stage i) (r.cycle i) (r.tenure i) := if_pos rfl

theorem tenure_note_of_ne {i j : ι} (h : i ≠ j) (c : Call) :
    (r.note m next (some ⟨i, c⟩)).tenure j = r.tenure j := if_neg h

theorem cycle_note_of_calling {i : ι} {c : Call} (h : m.stage i = .calling c)
    (access : Option (Access ι)) : (r.note m next access).cycle i = r.cycle i := by
  simp [note, h, Stage.begins]

theorem cycle_note_of_rules {i : ι} (h : (m.stage i).rules = true)
    (access : Option (Access ι)) : (r.note m next access).cycle i = r.cycle i := by
  cases hs : m.stage i with
  | idle =>
    rw [hs] at h
    cases h
  | calling c => exact cycle_note_of_calling hs access
  | holding | halted => simp [note, hs, Stage.begins]

end Registry

namespace Machine

variable {κ : Type u} {ι : Type v}

/-- The registry agrees with the names, and nobody is dealing with a leftover. -/
structure Custody (m : Machine κ ι) (roster : ι → Member κ) (r : Registry ι) : Prop where
  sound : m.Sound roster
  ruled : m.Ruled roster
  quiet : ∀ i, (m.stage i).reclaims = false
  bound : ∀ i t, r.tenure i = some t →
    m.kernel.names.get? (roster i).config.segment = some t.segment
  sole : ∀ i j t u, r.tenure i = some t → r.tenure j = some u →
    (roster i).config.segment = (roster j).config.segment → i = j
  /-- Who rules its name does so by what it created in this cycle. -/
  current : ∀ i, m.RulesName roster i → ∃ id, r.tenure i = some ⟨r.cycle i, id⟩

section

variable {roster : ι → Member κ} {m : Machine κ ι} {r : Registry ι}

theorem custody_of_idle (hidle : ∀ i, m.stage i = .idle) : m.Custody roster .blank where
  sound := sound_of_idle hidle
  ruled := ruled_of_idle hidle
  quiet i := by
    rw [hidle i]
    rfl
  bound := by
    intro i t ht
    cases ht
  sole := by
    intro i j t u ht
    cases ht
  current := by
    intro i hi
    have hrules := hi.2
    rw [hidle i] at hrules
    cases hrules

/-- Who removes its name holds, by the registry, what the name is bound to. -/
theorem Custody.removes (h : m.Custody roster r) {i : ι} {c : Call}
    (hcalling : m.stage i = .calling c) (hc : c.unbinds = true) :
    m.RulesName roster i ∧ ∃ id, r.tenure i = some ⟨r.cycle i, id⟩ ∧
      m.kernel.names.get? (roster i).config.segment = some id := by
  have hsuits := h.sound.suits i
  rw [hcalling] at hsuits
  have hrules : m.RulesName roster i := by
    rcases Call.unbinds_cases hsuits hc with ⟨a, rfl⟩ | ⟨hrole, hrules⟩
    · have hquiet := h.quiet i
      rw [hcalling] at hquiet
      cases hquiet
    · refine ⟨hrole, ?_⟩
      rw [hcalling]
      exact hrules
  obtain ⟨id, htenure⟩ := h.current i hrules
  exact ⟨hrules, id, htenure, h.bound i _ htenure⟩

/-- Another member of the name cannot stand in the registry. -/
theorem Custody.ne_of_tenure (h : m.Custody roster r) {i j : ι} {t u : Tenure}
    (ht : r.tenure i = some t) (hu : r.tenure j = some u) (hne : j ≠ i) :
    (roster j).config.segment ≠ (roster i).config.segment := by
  intro heq
  exact hne (h.sole j i u t hu ht heq)

end

variable [DecidableEq κ] [DecidableEq ι]

inductive Noted (roster : ι → Member κ) (m₀ : Machine κ ι) :
    List (Access ι) → Machine κ ι → Registry ι → Prop
  | start : Noted roster m₀ [] m₀ .blank
  | step {history : List (Access ι)} {m next : Machine κ ι} {access : Option (Access ι)}
      {r : Registry ι} (hnoted : Noted roster m₀ history m r)
      (hstep : Step roster m access next) :
      Noted roster m₀ (access.toList ++ history) next (r.note m next access)

variable {roster : ι → Member κ} {m₀ m next : Machine κ ι} {history : List (Access ι)}
  {r : Registry ι}

/-- Every run can be noted. -/
theorem noted_of_run {Allowed : Machine κ ι → Prop} (hrun : Run roster Allowed m₀ history m) :
    ∃ r : Registry ι, Noted roster m₀ history m r := by
  induction hrun with
  | start => exact ⟨.blank, .start⟩
  | step _ hstep _ ih =>
    obtain ⟨r, hnoted⟩ := ih
    exact ⟨_, .step hnoted hstep⟩

/-- A step that is no access leaves the names alone. -/
theorem names_of_step (hstep : Step roster m none next) (name : SegmentName) :
    next.kernel.names.get? name = m.kernel.names.get? name := by
  cases hstep with
  | allocate => rw [settle, Member.beginAllocate_site]; rfl
  | release | elapse | populate | move => rfl

/-- A name that is bound is lost only to a call that removes it. -/
theorem unbinds_of_lost (hsound : m.Sound roster) {access : Option (Access ι)} {name : SegmentName}
    {id : SegmentId} (hstep : Step roster m access next)
    (hbound : m.kernel.names.get? name = some id)
    (hlost : next.kernel.names.get? name ≠ some id) :
    ∃ i c, access = some ⟨i, c⟩ ∧ c.unbinds = true ∧ name = (roster i).config.segment := by
  cases access with
  | none => exact absurd ((names_of_step hstep name).trans hbound) hlost
  | some x =>
    obtain ⟨i, c⟩ := x
    have hsuits := hsound.suits i
    rw [stage_of_step hstep] at hsuits
    rw [kernel_of_access hstep] at hlost
    cases c.names_step (m.site (roster i).home) with
    | keeps hnames => exact absurd ((hnames name).trans hbound) hlost
    | binds _ _ hcreated =>
      rw [hcreated.names_eq] at hlost
      split at hlost
      case isTrue heq =>
        subst heq
        cases hcreated.unbound.symm.trans hbound
      case isFalse => exact absurd hbound hlost
    | unbinds hc hnames =>
      rw [hnames, Call.config_eq hsuits] at hlost
      split at hlost
      case isTrue heq => exact ⟨i, c, rfl, hc, heq⟩
      case isFalse => exact absurd hbound hlost

namespace Custody

/-- Nobody who takes nothing for a leftover hurts what is ruled. -/
theorem spares (h : m.Custody roster r) {access : Option (Access ι)}
    (hstep : Step roster m access next) : m.Spares roster access := by
  have hnone : ∀ j a phase, access = some ⟨j, .attach a phase⟩ → Attach.reclaims phase = false := by
    intro j a phase haccess
    subst haccess
    have hquiet := h.quiet j
    rw [stage_of_step hstep] at hquiet
    exact hquiet
  intro i _ j a
  constructor
  · intro mapping haccess
    cases hnone j a _ haccess
  · intro haccess
    cases hnone j a _ haccess

theorem quiet_step (h : m.Custody roster r)
    (hnever : ∀ i, (roster i).config.isLeader = true → (roster i).config.reclaimStale = false)
    {access : Option (Access ι)} (hstep : Step roster m access next) (i : ι) :
    (next.stage i).reclaims = false := by
  have hquiet := h.quiet i
  obtain ⟨hstage, -⟩ | ⟨bytes, -, rfl⟩ | ⟨block, -, rfl⟩ | ⟨c, -, hcalling, rfl⟩ :=
    acts_cases h.sound hstep i
  · rw [hstage]
    exact hquiet
  · rw [stage_settle_self]
    exact (roster i).reclaims_beginAllocate (hnever i) bytes _
  · rw [stage_settle_self]
    rfl
  · rw [hcalling] at hquiet
    rw [stage_settle_self]
    -- only a call that goes on attaching could come to reclaim
    cases hafter : Stage.after (c.step (m.site (roster i).home)).1 with
    | idle | holding | halted => rfl
    | calling c' =>
      cases c' with
      | detach => rfl
      | attach a phase' =>
        obtain ⟨phase, rfl, ht⟩ := Call.attach_of_step (Stage.after_eq_calling hafter)
        exact ht.reclaims_eq_false hquiet

/-- Where nobody creates or removes anything, the registry goes on agreeing. -/
theorem rest (h : m.Custody roster r) {access : Option (Access ι)}
    (hstep : Step roster m access next) (hsound : next.Sound roster) (hruled : next.Ruled roster)
    (hquiet : ∀ i, (next.stage i).reclaims = false)
    (hnames : ∀ name, next.kernel.names.get? name = m.kernel.names.get? name)
    (htenure : ∀ i, (r.note m next access).tenure i = r.tenure i) :
    next.Custody roster (r.note m next access) := by
  refine ⟨hsound, hruled, hquiet, ?_, ?_, ?_⟩
  · intro i t ht
    rw [hnames]
    exact h.bound i t ((htenure i).symm.trans ht)
  · intro i j t u ht hu
    exact h.sole i j t u ((htenure i).symm.trans ht) ((htenure j).symm.trans hu)
  · intro i hi
    rcases rulesName_before h.sound hstep hi with hbefore | ⟨_, id, -, hcreated⟩
    · obtain ⟨id, hid⟩ := h.current i hbefore
      refine ⟨id, ?_⟩
      rw [htenure, Registry.cycle_note_of_rules hbefore.2]
      exact hid
    · have hname := hcreated.names_eq (roster i).config.segment
      rw [if_pos rfl, hnames, hcreated.unbound] at hname
      cases hname

/-- Removing a name strikes what was created under it. -/
theorem remove (h : m.Custody roster r) {i : ι} {c : Call} (hcalling : m.stage i = .calling c)
    (hc : c.unbinds = true) (hstep : Step roster m (some ⟨i, c⟩) next)
    (hsound : next.Sound roster) (hruled : next.Ruled roster)
    (hquiet : ∀ i, (next.stage i).reclaims = false)
    (hnames : ∀ name, next.kernel.names.get? name =
      if name = (roster i).config.segment then none else m.kernel.names.get? name) :
    next.Custody roster (r.note m next (some ⟨i, c⟩)) := by
  obtain ⟨-, id, hid, -⟩ := h.removes hcalling hc
  have hstruck : (r.note m next (some ⟨i, c⟩)).tenure i = none := by
    rw [Registry.tenure_note_self, Tenure.after, if_pos hc]
  have hothers : ∀ j t, (r.note m next (some ⟨i, c⟩)).tenure j = some t →
      j ≠ i ∧ r.tenure j = some t := by
    intro j t ht
    have hji : j ≠ i := by
      intro hji
      subst hji
      cases hstruck.symm.trans ht
    refine ⟨hji, ?_⟩
    rw [Registry.tenure_note_of_ne (Ne.symm hji)] at ht
    exact ht
  refine ⟨hsound, hruled, hquiet, ?_, ?_, ?_⟩
  · intro j t ht
    obtain ⟨hji, ht⟩ := hothers j t ht
    rw [hnames, if_neg (h.ne_of_tenure hid ht hji)]
    exact h.bound j t ht
  · intro j l t u ht hu
    obtain ⟨-, ht⟩ := hothers j t ht
    obtain ⟨-, hu⟩ := hothers l u hu
    exact h.sole j l t u ht hu
  · intro j hj
    have hji : j ≠ i := by
      intro hji
      subst hji
      obtain ⟨id, hbound⟩ := hruled.bound hsound hj
      rw [hnames, if_pos rfl] at hbound
      cases hbound
    rcases rulesName_before h.sound hstep hj with hbefore | ⟨a, id, haccess, -⟩
    · obtain ⟨id, hid⟩ := h.current j hbefore
      refine ⟨id, ?_⟩
      rw [Registry.tenure_note_of_ne (Ne.symm hji), Registry.cycle_note_of_rules hbefore.2]
      exact hid
    · cases haccess
      exact absurd rfl hji

/-- Creating a segment notes it, in the creator's cycle. -/
theorem create (h : m.Custody roster r) {i : ι} {a : Attach} {id : SegmentId}
    (hcalling : m.stage i = .calling (.attach a .create))
    (hstep : Step roster m (some ⟨i, .attach a .create⟩) next)
    (hsound : next.Sound roster) (hruled : next.Ruled roster)
    (hquiet : ∀ i, (next.stage i).reclaims = false)
    (hafter : next.stage i = .calling (.attach a (.resize id)))
    (hcreated : m.kernel.Created (roster i).config.segment id next.kernel) :
    next.Custody roster (r.note m next (some ⟨i, .attach a .create⟩)) := by
  have hnoted : (r.note m next (some ⟨i, .attach a .create⟩)).tenure i = some ⟨r.cycle i, id⟩ := by
    rw [Registry.tenure_note_self, hafter]
    rfl
  have hothers : ∀ j t, j ≠ i → (r.note m next (some ⟨i, .attach a .create⟩)).tenure j = some t →
      r.tenure j = some t ∧ (roster j).config.segment ≠ (roster i).config.segment := by
    intro j t hji ht
    rw [Registry.tenure_note_of_ne (Ne.symm hji)] at ht
    refine ⟨ht, ?_⟩
    intro heq
    have hbound := h.bound j t ht
    rw [heq, hcreated.unbound] at hbound
    cases hbound
  refine ⟨hsound, hruled, hquiet, ?_, ?_, ?_⟩
  · intro j t ht
    rw [hcreated.names_eq]
    by_cases hji : j = i
    · subst hji
      cases hnoted.symm.trans ht
      exact if_pos rfl
    · obtain ⟨ht, hne⟩ := hothers j t hji ht
      rw [if_neg hne]
      exact h.bound j t ht
  · intro j l t u ht hu heq
    by_cases hji : j = i <;> by_cases hli : l = i
    · exact hji.trans hli.symm
    · rw [hji] at heq
      exact absurd heq.symm (hothers l u hli hu).2
    · rw [hli] at heq
      exact absurd heq (hothers j t hji ht).2
    · exact h.sole j l t u (hothers j t hji ht).1 (hothers l u hli hu).1 heq
  · intro j hj
    by_cases hji : j = i
    · subst hji
      rw [Registry.cycle_note_of_calling hcalling]
      exact ⟨id, hnoted⟩
    · rcases rulesName_before h.sound hstep hj with hbefore | ⟨_, _, haccess, -⟩
      · obtain ⟨id, hid⟩ := h.current j hbefore
        refine ⟨id, ?_⟩
        rw [Registry.tenure_note_of_ne (Ne.symm hji), Registry.cycle_note_of_rules hbefore.2]
        exact hid
      · cases haccess
        exact absurd rfl hji

/-- Every step keeps the registry in agreement. -/
theorem step (h : m.Custody roster r)
    (hnever : ∀ i, (roster i).config.isLeader = true → (roster i).config.reclaimStale = false)
    {access : Option (Access ι)} (hstep : Step roster m access next) :
    next.Custody roster (r.note m next access) := by
  have hsound := sound_step h.sound hstep
  have hruled := h.ruled.step h.sound (h.spares hstep) hstep
  have hquiet := h.quiet_step hnever hstep
  cases access with
  | none =>
    exact h.rest hstep hsound hruled hquiet (names_of_step hstep) fun _ => rfl
  | some x =>
    obtain ⟨i, c⟩ := x
    have hcalling := stage_of_step hstep
    have hsuits := h.sound.suits i
    rw [hcalling] at hsuits
    have hconfig := Call.config_eq hsuits
    have hkernel := kernel_of_access hstep
    have hstage := stage_after_step hstep
    cases hc : c.unbinds with
    | true =>
      apply h.remove hcalling hc hstep hsound hruled hquiet
      intro name
      rw [hkernel, Call.kernel_of_unbinds hc, hconfig]
      exact Kernel.get?_names_unbind _ _ _
    | false =>
      cases hcreates : c.creates? (next.stage i) with
      | some id =>
        rw [hstage] at hcreates
        obtain ⟨a, rfl, hafter, hcreated⟩ := Call.created_of_creates? hcreates
        have hsegment : a.config.segment = (roster i).config.segment := congrArg _ hconfig
        rw [hsegment, ← hkernel] at hcreated
        exact h.create hcalling hstep hsound hruled hquiet (hstage.trans hafter) hcreated
      | none =>
        have hsame : ∀ t, Tenure.after c (next.stage i) (r.cycle i) t = t := by
          intro t
          simp [Tenure.after, hc, hcreates]
        apply h.rest hstep hsound hruled hquiet
        · intro name
          rw [hkernel]
          cases c.names_step (m.site (roster i).home) with
          | keeps hnames => exact hnames name
          | binds hcreate hnext =>
            subst hcreate
            rw [hstage, hnext] at hcreates
            cases hcreates
          | unbinds hunbinds => cases hc.symm.trans hunbinds
        · intro j
          by_cases hji : i = j
          · subst hji
            rw [Registry.tenure_note_self]
            exact hsame _
          · exact Registry.tenure_note_of_ne hji c

end Custody

theorem custody_of_noted
    (hnever : ∀ i, (roster i).config.isLeader = true → (roster i).config.reclaimStale = false)
    (hidle : ∀ i, m₀.stage i = .idle) (hnoted : Noted roster m₀ history m r) :
    m.Custody roster r := by
  induction hnoted with
  | start => exact custody_of_idle hidle
  | step _ hstep ih => exact ih.step hnever hstep

/-- Where no leader removes leftovers, in whatever order the members' accesses come, whichever of
them fail and whoever stops acting: a leader that removes its name removes the segment that it
created under it in the same cycle, the removal succeeds, and it frees that name and nothing else;
no name is lost in any other way; and whatever a leader has created and not removed is still bound
to its name, which no second leader has created meanwhile. -/
theorem removes_own
    (hnever : ∀ i, (roster i).config.isLeader = true → (roster i).config.reclaimStale = false)
    (hidle : ∀ i, m₀.stage i = .idle) (hnoted : Noted roster m₀ history m r) :
    (∀ i c next, Step roster m (some ⟨i, c⟩) next → c.unbinds = true →
      ∃ id, r.tenure i = some ⟨r.cycle i, id⟩ ∧
        m.kernel.names.get? (roster i).config.segment = some id ∧
        (m.site (roster i).home).unlink (roster i).config.segment =
          (.ok (), (m.site (roster i).home).unbind (roster i).config.segment) ∧
        next.kernel = m.kernel.unbind (roster i).config.segment ∧
        m.kernel.Removed (roster i).config.segment next.kernel) ∧
    (∀ access next name id, Step roster m access next → m.kernel.names.get? name = some id →
      next.kernel.names.get? name ≠ some id →
      ∃ i c, access = some ⟨i, c⟩ ∧ c.unbinds = true ∧ name = (roster i).config.segment) ∧
    (∀ i t, r.tenure i = some t →
      m.kernel.names.get? (roster i).config.segment = some t.segment) ∧
    ∀ i j t u, r.tenure i = some t → r.tenure j = some u →
      (roster i).config.segment = (roster j).config.segment → i = j := by
  have hcustody := custody_of_noted hnever hidle hnoted
  refine ⟨?_, fun access next name id => unbinds_of_lost hcustody.sound, hcustody.bound,
    hcustody.sole⟩
  intro i c next hstep hc
  have hcalling := stage_of_step hstep
  have hsuits := hcustody.sound.suits i
  rw [hcalling] at hsuits
  obtain ⟨-, id, htenure, hbound⟩ := hcustody.removes hcalling hc
  have hkernel : next.kernel = m.kernel.unbind (roster i).config.segment := by
    rw [kernel_of_access hstep, ← Call.config_eq hsuits]
    exact Call.kernel_of_unbinds hc _
  exact ⟨id, htenure, hbound, Site.unlink_of_bound hbound, hkernel,
    hkernel ▸ m.kernel.removed_unbind _⟩

def peers (second : Bool) : Member Bool := sample second id

/-- Of two leaders of one name the second is refused, and then the first removes its segment. -/
theorem removes_own_first : ∃ (history : List (Access Bool)) (m next : Machine Bool Bool)
    (r : Registry Bool) (c : Call),
    (history.map fun x => x.member).count true = 2 ∧
      Noted peers (fresh (fun second => if second then 2 else 1) [1, 2])
        history m r ∧
      Step peers m (some ⟨false, c⟩) next ∧ c.unbinds = true ∧
      r.tenure false = some ⟨r.cycle false, 0⟩ ∧
      m.kernel.names.get? (peers false).config.segment = some 0 ∧
      next.kernel.names.get? (peers false).config.segment = none ∧
      m.kernel.Removed (peers false).config.segment next.kernel := by
  obtain ⟨⟨⟨history, m⟩, access, next⟩, hplay, hreached⟩ := Option.map_eq_some_iff.mp
    (by decide +kernel :
      ((play peers (fun _ => True)
        (.allocate false 4096 :: List.replicate 10 (.access false) ++
          .allocate true 4096 :: List.replicate 2 (.access true) ++
          .release false :: List.replicate 5 (.access false))
        ([], fresh (fun second => if second then 2 else 1) [1, 2])).bind (fun before =>
          (before.2.obey peers (.access false)).map fun after =>
            (before, after))).map
        (fun (before, access, _) => ((before.1.map fun x => x.member).count true,
          access.map fun x => (x.member, x.call.unbinds),
          before.2.kernel.names.get? (peers false).config.segment)) =
      some (2, some (false, true), some 0))
  simp only [Option.bind_eq_some_iff, Option.map_eq_some_iff, Prod.mk.injEq] at hplay hreached
  obtain ⟨_, hplay, _, hobey, rfl, rfl⟩ := hplay
  obtain ⟨hcount, ⟨⟨_, c⟩, rfl, rfl, hc⟩, hname⟩ := hreached
  have hstep := step_of_obey hobey
  obtain ⟨r, hnoted⟩ := noted_of_run (run_of_play (.start trivial) _ hplay)
  obtain ⟨id, htenure, hbound, -, -, hremoved⟩ :=
    (removes_own (fun _ _ => rfl) (fun _ => rfl) hnoted).1 false c next hstep hc
  obtain rfl := Option.some.inj (hbound.symm.trans hname)
  exact ⟨history, m, next, r, c, hcount, hnoted, hstep, hc, htenure, hbound, hremoved.unbound,
    hremoved⟩

end Machine
end StagingMemory
