import Mathlib.Algebra.BigOperators.Group.Finset.Basic
import Mathlib.Algebra.Order.BigOperators.Group.Finset
import StagingMemory.Proofs.Books
/-!
The counts in a segment's header are exact, in whichever order one leader and any number of
followers make their accesses: from publication on, `live` counts the followers that raised it and
have not lowered it again, and the leader until it has left, and `joined` counts the completed
joins.
-/
namespace StagingMemory

/-- A release never takes back what was not published. -/
theorem Detach.lead_ne_discarding (d : Detach) (phase : Phase) {s : Site} {id : SegmentId} :
    (Stage.calling (.detach d phase)).lead s id ≠ .discarding := by
  simp only [Stage.lead, Stage.position]
  split
  · cases phase <;> simp [lead]
  · simp

namespace Machine

variable {κ : Type u} {ι : Type v}

def grade (m : Machine κ ι) (roster : ι → Member κ) (id : SegmentId) (i : ι) : Grade :=
  (m.stage i).grade (m.site (roster i).home) id

def lead (m : Machine κ ι) (roster : ι → Member κ) (id : SegmentId) (i : ι) : Lead :=
  (m.stage i).lead (m.site (roster i).home) id

section

variable {m next : Machine κ ι} {roster : ι → Member κ} {id : SegmentId}

theorem ne_of_roles {i j : ι} (hfollower : (roster i).config.isLeader = false)
    (hleader : (roster j).config.isLeader = true) : i ≠ j := by
  intro heq
  rw [heq, hleader] at hfollower
  cases hfollower

theorem follower_of_ne {leader : ι}
    (hone : ∀ i, (roster i).config.isLeader = true ↔ i = leader) {i : ι}
    (hi : i ≠ leader) : (roster i).config.isLeader = false :=
  Bool.eq_false_iff.mpr fun hrole => hi ((hone i).mp hrole)

theorem grade_of_attach {i : ι} {a : Attach} {phase : Attach.Phase} {mapping : Mapping}
    (hcalling : m.stage i = .calling (.attach a phase))
    (hmapping : Attach.mapping? phase = some mapping) (hid : mapping.segment = id) :
    m.grade roster id i = Attach.grade phase := by
  have hsegment : Attach.segment? phase = some id := by
    cases phase <;> cases hmapping <;> rw [← hid] <;> rfl
  simp [grade, hcalling, Stage.grade, Stage.segment?, hsegment, Stage.reached]

theorem lead_of_attach {i : ι} {a : Attach} {phase : Attach.Phase}
    (hcalling : m.stage i = .calling (.attach a phase))
    (hsegment : Attach.segment? phase = some id) (hkeeps : Attach.takesBack phase = false) :
    m.lead roster id i = Attach.lead phase := by
  simp only [lead, hcalling]
  cases phase with
  | discard | undo => cases hkeeps
  | _ => simp [Stage.lead, Stage.segment?, hsegment, Stage.position]

theorem lead_of_detach {i : ι} {d : Detach} {phase : Detach.Phase} {mapping : Mapping}
    (hcalling : m.stage i = .calling (.detach d phase))
    (hmapping : Detach.mapping? phase = some mapping) (hid : mapping.segment = id) :
    m.lead roster id i = Detach.lead phase := by
  have hphase : Call.mapping? (m.site (roster i).home) (.detach d phase) = some mapping := by
    cases phase with
    | unregister => cases hmapping
    | _ => exact hmapping
  simp [Machine.lead, hcalling, Stage.lead, Stage.segment?, Stage.mapping?, hphase, hid,
    Stage.position]

/-- Who is about to write the state of the segment. -/
theorem publishState_of_lead {i : ι} (h : m.lead roster id i = .withLive) :
    ∃ a its, m.stage i = .calling (.attach a (.publishState its)) ∧ its.segment = id := by
  simp only [lead] at h
  cases hstage : m.stage i with
  | idle | halted | holding =>
    rw [hstage] at h
    simp only [Stage.lead] at h
    split at h <;> cases h
  | calling c =>
    rw [hstage] at h
    cases c with
    | attach a phase =>
      cases phase with
      | publishState its =>
        simp only [Stage.lead] at h
        split at h
        case isTrue hid => exact ⟨a, its, rfl, Option.some.inj hid⟩
        case isFalse => cases h
      | discard | undo => cases h
      | _ =>
        simp only [Stage.lead] at h
        split at h <;> cases h
    | detach d phase =>
      simp only [Stage.lead] at h
      split at h
      · cases phase <;> cases h
      · cases h

theorem grade_stays {j : ι} (hstage : next.stage j = m.stage j)
    (hsegment : next.segment? roster j = m.segment? roster j) :
    next.grade roster id j = m.grade roster id j := by
  simp only [segment?] at hsegment
  simp only [grade, Stage.grade, hsegment]
  rw [hstage]

theorem lead_stays {j : ι} (hstage : next.stage j = m.stage j)
    (hsegment : next.segment? roster j = m.segment? roster j) :
    next.lead roster id j = m.lead roster id j := by
  simp only [segment?] at hsegment
  simp only [lead]
  rw [hstage] at hsegment ⊢
  unfold Stage.lead
  split <;> simp only [hsegment]

/-- What a step of the machine means for a segment: nothing, or a move of a follower or of the
leader. -/
inductive Moved (roster : ι → Member κ) (id : SegmentId) (m : Machine κ ι) :
    Option (Access ι) → Machine κ ι → Prop
  | rest {next : Machine κ ι} (hheader : next.kernel.header id = m.kernel.header id)
      (hnames : next.kernel.names = m.kernel.names)
      (hgrade : ∀ j, next.grade roster id j = m.grade roster id j)
      (hlead : ∀ j, next.lead roster id j = m.lead roster id j) : Moved roster id m none next
  | follow {next : Machine κ ι} {i : ι} {c : Call} (hrole : (roster i).config.isLeader = false)
      (hgrade : ∀ j, j ≠ i → next.grade roster id j = m.grade roster id j)
      (hlead : ∀ j, j ≠ i → next.lead roster id j = m.lead roster id j)
      (htread : Tread (m.grade roster id i) (m.kernel.header id) (c.mark? id)
        (next.grade roster id i) (next.kernel.header id))
      (hnames : next.kernel.names = m.kernel.names) : Moved roster id m (some ⟨i, c⟩) next
  | lead {next : Machine κ ι} {i : ι} {c : Call} (hrole : (roster i).config.isLeader = true)
      (hgrade : ∀ j, j ≠ i → next.grade roster id j = m.grade roster id j)
      (hlead : ∀ j, j ≠ i → next.lead roster id j = m.lead roster id j)
      (hstride : Stride (∃ name, m.kernel.names.get? name = some id)
        (m.kernel.segments.length ≤ id) (m.lead roster id i) (m.kernel.header id) (c.mark? id)
        (next.lead roster id i) (next.kernel.header id))
      (hnames : ∀ name, next.kernel.names.get? name = some id →
        (name = (roster i).config.segment ∧ next.lead roster id i = .blank) ∨
        m.kernel.names.get? name = some id ∧
          (m.lead roster id i = .discarding → next.lead roster id i = .away →
            name ≠ (roster i).config.segment)) : Moved roster id m (some ⟨i, c⟩) next

/-- Where nobody acts, everybody stays where it is. -/
theorem moved_of_stays (h : m.Sound roster) (hsegments : next.kernel.segments = m.kernel.segments)
    (hnames : next.kernel.names = m.kernel.names) (hstage : next.stage = m.stage)
    (hplaced : ∀ j mapping, m.mapping? roster j = some mapping →
      mapping.Placed (next.process (roster j).home).space) : Moved roster id m none next := by
  have hsegment : ∀ j, next.segment? roster j = m.segment? roster j := fun j =>
    segment?_stays (congrFun hstage j) (mapping?_stays h (congrFun hstage j) (hplaced j))
  refine .rest ?_ hnames (fun j => grade_stays (congrFun hstage j) (hsegment j))
    fun j => lead_stays (congrFun hstage j) (hsegment j)
  simp only [Kernel.header, Kernel.segment?, hsegments]

variable [DecidableEq κ] [DecidableEq ι]

/-- What a member's progress means for the others: nothing. -/
theorem Sound.others_settle (h : m.Sound roster) (id : SegmentId) {i : ι}
    {result : Progress Call Reply × Site} (hhandled : m.Handled roster i result) (j : ι)
    (hj : j ≠ i) :
    (m.settle roster i result).grade roster id j = m.grade roster id j ∧
      (m.settle roster i result).lead roster id j = m.lead roster id j :=
  ⟨grade_stays (stage_settle_of_ne hj result) (h.segment?_settle hhandled hj),
    lead_stays (stage_settle_of_ne hj result) (h.segment?_settle hhandled hj)⟩

theorem moved_of_allocate (h : m.Sound roster) {i : ι} (hidle : m.stage i = .idle)
    (bytes : UInt64) :
    Moved roster id m none
      (m.settle roster i ((roster i).resource.beginAllocate bytes (m.site (roster i).home))) := by
  have hothers := h.others_settle id (handled_allocate hidle bytes)
  rcases (roster i).beginAllocate_spec bytes (m.site (roster i).home) with
    ⟨phase, hfirst, heq⟩ | ⟨o, heq, hafter⟩
  · rw [heq] at hothers ⊢
    refine .rest rfl rfl (fun j => ?_) (fun j => ?_) <;> by_cases hj : j = i
    · subst hj
      cases hfirst <;> simp [grade, hidle, Stage.grade, Stage.after, Stage.reached, Attach.grade]
    · exact (hothers j hj).1
    · subst hj
      cases hfirst <;> simp [lead, hidle, Stage.lead, Stage.after, Stage.position, Attach.lead]
    · exact (hothers j hj).2
  · rw [heq] at hothers ⊢
    refine .rest rfl rfl (fun j => ?_) (fun j => ?_) <;> by_cases hj : j = i
    · subst hj
      simp [grade, hidle, hafter, Stage.grade, Stage.reached]
    · exact (hothers j hj).1
    · subst hj
      simp [lead, hidle, hafter, Stage.lead, Stage.position]
    · exact (hothers j hj).2

theorem moved_of_release (h : m.Sound roster) {i : ι} {block : Block}
    (hholding : m.stage i = .holding block) :
    Moved roster id m none
      (m.settle roster i ((roster i).resource.beginRelease block (m.site (roster i).home))) := by
  have hothers := h.others_settle id (handled_release hholding)
  refine .rest rfl rfl (fun j => ?_) (fun j => ?_) <;> by_cases hj : j = i
  · subst hj
    simp only [grade, hholding, stage_settle_self, site_settle_self]
    rfl
  · exact (hothers j hj).1
  · subst hj
    simp only [lead, hholding, stage_settle_self, site_settle_self]
    rfl
  · exact (hothers j hj).2

theorem moved_of_access (h : m.Sound roster) {i : ι} {c : Call}
    (hcalling : m.stage i = .calling c) :
    Moved roster id m (some ⟨i, c⟩) (m.settle roster i (c.step (m.site (roster i).home))) := by
  have hothers := h.others_settle id (handled_access h hcalling)
  have hsuits := h.suits i
  have hplaced := h.placed i
  have hknown := h.known i
  simp only [mapping?, segment?, hcalling] at hsuits hplaced hknown
  cases c with
  | attach a phase =>
    have ht := a.step_transition phase (m.site (roster i).home)
    obtain ⟨hconfig, hsuits⟩ := hsuits
    cases hrole : (roster i).config.isLeader with
    | false =>
      obtain ⟨htread, hnames⟩ := ht.follows (hconfig ▸ hrole) hsuits hplaced hknown id
      refine .follow hrole (fun j hj => (hothers j hj).1) (fun j hj => (hothers j hj).2) ?_ hnames
      simp only [grade, hcalling, stage_settle_self, site_settle_self]
      exact htread
    | true =>
      refine .lead hrole (fun j hj => (hothers j hj).1) (fun j hj => (hothers j hj).2) ?_ ?_
      · simp only [lead, hcalling, stage_settle_self, site_settle_self]
        exact ht.leads (hconfig ▸ hrole) hsuits hplaced hknown id
      · intro name hbound
        simp only [lead, hcalling, stage_settle_self, site_settle_self, ← hconfig]
        exact ht.leads_names (hconfig ▸ hrole) hbound
  | detach d phase =>
    have ht := d.step_transition phase (m.site (roster i).home)
    obtain ⟨hconfig, hsuits, -⟩ := hsuits
    cases hrole : (roster i).config.isLeader with
    | false =>
      obtain ⟨htread, hnames⟩ := ht.follows (hconfig ▸ hrole) hsuits hknown id
      refine .follow hrole (fun j hj => (hothers j hj).1) (fun j hj => (hothers j hj).2) ?_ hnames
      simp only [grade, hcalling, stage_settle_self, site_settle_self]
      exact htread
    | true =>
      refine .lead hrole (fun j hj => (hothers j hj).1) (fun j hj => (hothers j hj).2) ?_ ?_
      · simp only [lead, hcalling, stage_settle_self, site_settle_self]
        exact ht.leads (hconfig ▸ hrole) hknown id _ _
      · intro name hbound
        refine Or.inr ⟨ht.leads_names hbound, ?_⟩
        intro hlead
        simp only [lead, hcalling] at hlead
        exact absurd hlead (Detach.lead_ne_discarding d phase)

theorem moved_of_step (h : m.Sound roster) {access : Option (Access ι)}
    (hstep : Step roster m access next) (id : SegmentId) : Moved roster id m access next := by
  cases hstep with
  | allocate i bytes hidle => exact moved_of_allocate h hidle bytes
  | release i block hholding => exact moved_of_release h hholding
  | access i c hcalling => exact moved_of_access h hcalling
  | elapse clock => exact moved_of_stays h rfl rfl rfl h.placed
  | populate alive => exact moved_of_stays h rfl rfl rfl h.placed
  | move home p hmoves => exact moved_of_stays h rfl rfl rfl fun j _ => h.placed_move hmoves

end

/-! ### States and names -/

structure Agreed (m : Machine κ ι) (roster : ι → Member κ) (leader : ι) (id : SegmentId) :
    Prop where
  posted : (m.lead roster id leader).Posted (m.kernel.header id)
  passed : ∀ i, i ≠ leader → m.grade roster id i ≠ .away → (m.kernel.header id).state ≠ 0
  bound : ∀ name, m.kernel.names.get? name = some id → name = (roster leader).config.segment ∧
    ((m.kernel.header id).state = 0 → (m.lead roster id leader).setsUp = true)

section

variable {m next : Machine κ ι} {roster : ι → Member κ} {leader : ι} {id : SegmentId}

theorem grade_of_idle {i : ι} (hidle : m.stage i = .idle) : m.grade roster id i = .away := by
  simp [grade, hidle, Stage.grade, Stage.reached]

theorem lead_of_idle {i : ι} (hidle : m.stage i = .idle) : m.lead roster id i = .away := by
  simp [lead, hidle, Stage.lead, Stage.position]

theorem agreed_of_idle (hidle : ∀ i, m.stage i = .idle) (hnew : m.kernel.segments.length ≤ id) :
    m.Agreed roster leader id := by
  refine ⟨?_, fun i _ hi => absurd (grade_of_idle (hidle i)) hi, fun name hbound => ?_⟩
  · rw [lead_of_idle (hidle leader)]
    trivial
  · exact absurd (m.kernel.names_bound name id hbound) (Nat.not_lt.mpr hnew)

theorem Agreed.rest (h : m.Agreed roster leader id)
    (hheader : next.kernel.header id = m.kernel.header id)
    (hnames : next.kernel.names = m.kernel.names)
    (hgrade : ∀ j, next.grade roster id j = m.grade roster id j)
    (hlead : ∀ j, next.lead roster id j = m.lead roster id j) :
    next.Agreed roster leader id := by
  refine ⟨?_, ?_, ?_⟩
  · rw [hheader, hlead]
    exact h.posted
  · intro i hi
    rw [hheader, hgrade]
    exact h.passed i hi
  · rw [hheader, hlead, hnames]
    exact h.bound

theorem Agreed.follow (h : m.Agreed roster leader id) {i : ι} {mark? : Option Mark}
    (hi : i ≠ leader) (hgrade : ∀ j, j ≠ i → next.grade roster id j = m.grade roster id j)
    (hlead : next.lead roster id leader = m.lead roster id leader)
    (htread : Tread (m.grade roster id i) (m.kernel.header id) mark?
      (next.grade roster id i) (next.kernel.header id))
    (hnames : next.kernel.names = m.kernel.names) : next.Agreed roster leader id := by
  refine ⟨?_, ?_, ?_⟩
  · rw [hlead]
    exact htread.posted h.posted
  · intro j hj haway
    by_cases hji : j = i
    · subst hji
      exact htread.state_ne_zero (h.passed j hi) haway
    · rw [htread.state_eq]
      rw [hgrade j hji] at haway
      exact h.passed j hj haway
  · rw [hnames, hlead, htread.state_eq]
    exact h.bound

/-- What is bound and found by the leader is published: it would set it up itself otherwise. -/
theorem Agreed.published_of_bound (h : m.Agreed roster leader id)
    (hnamed : ∃ name, m.kernel.names.get? name = some id)
    (haway : m.lead roster id leader = .away) : (m.kernel.header id).state ≠ 0 := by
  intro hzero
  obtain ⟨name, hbound⟩ := hnamed
  have hsetsUp := (h.bound name hbound).2 hzero
  rw [haway] at hsetsUp
  cases hsetsUp

theorem Agreed.lead (h : m.Agreed roster leader id) {mark? : Option Mark}
    (hgrade : ∀ j, j ≠ leader → next.grade roster id j = m.grade roster id j)
    (hstride : Stride (∃ name, m.kernel.names.get? name = some id) (m.kernel.segments.length ≤ id)
      (m.lead roster id leader) (m.kernel.header id) mark? (next.lead roster id leader)
      (next.kernel.header id))
    (hnames : ∀ name, next.kernel.names.get? name = some id →
      (name = (roster leader).config.segment ∧ next.lead roster id leader = .blank) ∨
      m.kernel.names.get? name = some id ∧
        (m.lead roster id leader = .discarding → next.lead roster id leader = .away →
          name ≠ (roster leader).config.segment)) : next.Agreed roster leader id := by
  refine ⟨hstride.posted h.posted h.published_of_bound, ?_, ?_⟩
  · intro j hj haway
    rw [hgrade j hj] at haway
    exact hstride.state_ne_zero h.posted (h.passed j hj haway)
  · intro name hbound
    rcases hnames name hbound with ⟨hname, hblank⟩ | ⟨hbefore, htaken⟩
    · refine ⟨hname, ?_⟩
      intro _
      rw [hblank]
      rfl
    · obtain ⟨hname, hsetsUp⟩ := h.bound name hbefore
      refine ⟨hname, ?_⟩
      intro hzero
      have hbeforeZero : (m.kernel.header id).state = 0 :=
        not_ne_iff.mp fun hne => hstride.state_ne_zero h.posted hne hzero
      apply hstride.setsUp (hsetsUp hbeforeZero) hzero
      intro hdiscarding haway
      exact htaken hdiscarding haway hname

variable [DecidableEq κ] [DecidableEq ι]

theorem Agreed.step (h : m.Agreed roster leader id) (hsound : m.Sound roster)
    (hone : ∀ i, (roster i).config.isLeader = true ↔ i = leader) {access : Option (Access ι)}
    (hstep : Step roster m access next) : next.Agreed roster leader id := by
  have hmoved := moved_of_step hsound hstep id
  cases hmoved with
  | rest hheader hnames hgrade hlead => exact h.rest hheader hnames hgrade hlead
  | @follow _ i c hrole hgrade hlead htread hnames =>
    have hi : i ≠ leader := ne_of_roles hrole ((hone leader).mpr rfl)
    exact h.follow hi hgrade (hlead leader (Ne.symm hi)) htread hnames
  | @lead _ i c hrole hgrade hlead hstride hnames =>
    obtain rfl := (hone i).mp hrole
    exact h.lead hgrade hstride hnames

theorem agreed_of_run {m₀ : Machine κ ι} {history : List (Access ι)}
    (hone : ∀ i, (roster i).config.isLeader = true ↔ i = leader)
    (hidle : ∀ i, m₀.stage i = .idle) (hnew : m₀.kernel.segments.length ≤ id)
    (hrun : Run roster (fun _ => True) m₀ history m) : m.Agreed roster leader id := by
  induction hrun with
  | start => exact agreed_of_idle hidle hnew
  | step hrun hstep _ ih => exact ih.step (sound_of_run hrun hidle) hone hstep

end

/-! ### Counting followers -/

def count [Fintype ι] [DecidableEq ι] (m : Machine κ ι) (roster : ι → Member κ) (leader : ι)
    (id : SegmentId) (at? : Grade → Bool) : Nat :=
  ∑ i ∈ Finset.univ.erase leader, (at? (m.grade roster id i)).toNat

section

variable [Fintype ι] [DecidableEq ι] {m next : Machine κ ι} {roster : ι → Member κ} {leader : ι}
  {id : SegmentId}

theorem count_of_stays (hgrade : ∀ j, j ≠ leader → next.grade roster id j = m.grade roster id j)
    (at? : Grade → Bool) : next.count roster leader id at? = m.count roster leader id at? :=
  Finset.sum_congr rfl fun j hj => by rw [hgrade j (Finset.ne_of_mem_erase hj)]

/-- When one follower moves, only that one counts differently. -/
theorem count_of_moves {i : ι} (hi : i ≠ leader)
    (hgrade : ∀ j, j ≠ i → next.grade roster id j = m.grade roster id j) (at? : Grade → Bool) :
    next.count roster leader id at? + (at? (m.grade roster id i)).toNat =
      m.count roster leader id at? + (at? (next.grade roster id i)).toNat := by
  have hmem : i ∈ Finset.univ.erase leader := Finset.mem_erase.mpr ⟨hi, Finset.mem_univ i⟩
  have hothers : ∑ j ∈ (Finset.univ.erase leader).erase i, (at? (next.grade roster id j)).toNat =
      ∑ j ∈ (Finset.univ.erase leader).erase i, (at? (m.grade roster id j)).toNat :=
    Finset.sum_congr rfl fun j hj => by rw [hgrade j (Finset.ne_of_mem_erase hj)]
  have hbefore := Finset.add_sum_erase _ (fun j => (at? (m.grade roster id j)).toNat) hmem
  have hafter := Finset.add_sum_erase _ (fun j => (at? (next.grade roster id j)).toNat) hmem
  unfold count
  omega

theorem count_pos {i : ι} (hi : i ≠ leader) {at? : Grade → Bool}
    (hat : at? (m.grade roster id i) = true) : 0 < m.count roster leader id at? := by
  have hmem : i ∈ Finset.univ.erase leader := Finset.mem_erase.mpr ⟨hi, Finset.mem_univ i⟩
  have hle := Finset.single_le_sum (fun j _ => Nat.zero_le _) hmem
    (f := fun j => (at? (m.grade roster id j)).toNat)
  rw [hat] at hle
  exact hle

end

/-! ### The balance -/

structure Balanced [Fintype ι] [DecidableEq ι] (m : Machine κ ι) (roster : ι → Member κ)
    (leader : ι) (id : SegmentId) (history : List (Access ι)) : Prop
    extends m.Agreed roster leader id where
  books : Books (m.kernel.header id) (entries id · history)
  fits : (m.lead roster id leader).Fits (m.kernel.header id) (entries id · history)
  standing : m.count roster leader id Grade.stands + entries id .lower history ≤
    entries id .raise history
  joining : m.count roster leader id Grade.joins + entries id .join history ≤
    entries id .raise history

section

variable [Fintype ι] [DecidableEq ι] {m next : Machine κ ι} {roster : ι → Member κ} {leader : ι}
  {id : SegmentId} {history : List (Access ι)}

theorem balanced_of_idle (hidle : ∀ i, m.stage i = .idle) (hnew : m.kernel.segments.length ≤ id) :
    m.Balanced roster leader id [] := by
  have hcount : ∀ at? : Grade → Bool, at? .away = false →
      m.count roster leader id at? = 0 := fun at? hat =>
    Finset.sum_eq_zero fun i _ => by rw [grade_of_idle (hidle i), hat]; rfl
  have hblank := Kernel.header_of_le hnew
  refine ⟨agreed_of_idle hidle hnew, ⟨fun _ _ => rfl, ?_, ?_, ?_, Nat.zero_le _⟩, ?_, ?_, ?_⟩
  · rw [hblank]
    exact Or.inl rfl
  · rw [hblank]
    exact fun h => absurd rfl h
  · rw [hblank]
    exact fun h => absurd rfl h
  · rw [lead_of_idle (hidle leader)]
    trivial
  · rw [hcount _ rfl]
    exact Nat.le_refl _
  · rw [hcount _ rfl]
    exact Nat.le_refl _

/-- A follower that stands in the live count has not been lowered yet. -/
theorem Balanced.lower_lt (h : m.Balanced roster leader id history) {i : ι} (hi : i ≠ leader)
    (hstands : (m.grade roster id i).stands = true) :
    entries id .lower history < entries id .raise history := by
  have hpos := count_pos hi hstands
  have hstanding := h.standing
  omega

theorem Balanced.join_lt (h : m.Balanced roster leader id history) {i : ι} (hi : i ≠ leader)
    (hjoins : (m.grade roster id i).joins = true) :
    entries id .join history < entries id .raise history := by
  have hpos := count_pos hi hjoins
  have hjoining := h.joining
  omega

theorem Balanced.lower_le (h : m.Balanced roster leader id history) :
    entries id .lower history ≤ entries id .raise history := by
  have hstanding := h.standing
  omega

theorem Balanced.rest (h : m.Balanced roster leader id history)
    (hheader : next.kernel.header id = m.kernel.header id)
    (hnames : next.kernel.names = m.kernel.names)
    (hgrade : ∀ j, next.grade roster id j = m.grade roster id j)
    (hlead : ∀ j, next.lead roster id j = m.lead roster id j) :
    next.Balanced roster leader id history := by
  have hcount : ∀ at?, next.count roster leader id at? = m.count roster leader id at? :=
    count_of_stays fun j _ => hgrade j
  refine ⟨h.toAgreed.rest hheader hnames hgrade hlead, ?_, ?_, ?_, ?_⟩
  · rw [hheader]
    exact h.books
  · rw [hheader, hlead]
    exact h.fits
  · rw [hcount]
    exact h.standing
  · rw [hcount]
    exact h.joining

theorem Balanced.follow (h : m.Balanced roster leader id history) {i : ι} {c : Call}
    (hi : i ≠ leader) (hgrade : ∀ j, j ≠ i → next.grade roster id j = m.grade roster id j)
    (hlead : next.lead roster id leader = m.lead roster id leader)
    (htread : Tread (m.grade roster id i) (m.kernel.header id) (c.mark? id)
      (next.grade roster id i) (next.kernel.header id))
    (hnames : next.kernel.names = m.kernel.names)
    (hroom : (m.kernel.header id).Room (c.mark? id)) :
    next.Balanced roster leader id (⟨i, c⟩ :: history) := by
  have hcount := count_of_moves hi hgrade
  have hentries : (entries id · (⟨i, c⟩ :: history)) = enter (entries id · history) (c.mark? id) :=
    funext fun mark => entries_cons
  refine ⟨h.toAgreed.follow hi hgrade hlead htread hnames, ?_, ?_, ?_, ?_⟩
  · rw [hentries]
    exact htread.books h.books (h.passed i hi) (h.lower_lt hi) hroom
  · rw [hentries, hlead]
    exact htread.fits (h.passed i hi) h.fits
  · rw [entries_cons, entries_cons]
    exact htread.standing_le (hcount _) h.standing
  · rw [entries_cons, entries_cons]
    exact htread.joining_le (hcount _) h.joining

theorem Balanced.lead (h : m.Balanced roster leader id history) {c : Call}
    (hgrade : ∀ j, j ≠ leader → next.grade roster id j = m.grade roster id j)
    (hstride : Stride (∃ name, m.kernel.names.get? name = some id) (m.kernel.segments.length ≤ id)
      (m.lead roster id leader) (m.kernel.header id) (c.mark? id) (next.lead roster id leader)
      (next.kernel.header id))
    (hnames : ∀ name, next.kernel.names.get? name = some id →
      (name = (roster leader).config.segment ∧ next.lead roster id leader = .blank) ∨
      m.kernel.names.get? name = some id ∧
        (m.lead roster id leader = .discarding → next.lead roster id leader = .away →
          name ≠ (roster leader).config.segment)) :
    next.Balanced roster leader id (⟨leader, c⟩ :: history) := by
  have hcount := count_of_stays hgrade
  have hentries :
      (entries id · (⟨leader, c⟩ :: history)) = enter (entries id · history) (c.mark? id) :=
    funext fun mark => entries_cons
  have hsame : ∀ mark, mark ≠ .depart →
      entries id mark (⟨leader, c⟩ :: history) = entries id mark history := fun mark hmark =>
    entries_cons.trans (hstride.enter_of_ne_depart hmark)
  refine ⟨h.toAgreed.lead hgrade hstride hnames, ?_, ?_, ?_, ?_⟩
  · rw [hentries]
    exact hstride.books h.books h.fits h.lower_le
  · rw [hentries]
    exact hstride.fits h.books.early h.fits h.published_of_bound
  · rw [hcount, hsame .lower (by simp), hsame .raise (by simp)]
    exact h.standing
  · rw [hcount, hsame .join (by simp), hsame .raise (by simp)]
    exact h.joining

/-- Every step keeps the balance, as long as the counts do not wrap. -/
theorem Balanced.step [DecidableEq κ] (h : m.Balanced roster leader id history)
    (hsound : m.Sound roster) (hone : ∀ i, (roster i).config.isLeader = true ↔ i = leader)
    {access : Option (Access ι)} (hstep : Step roster m access next)
    (hroom : ∀ x, access = some x → (m.kernel.header id).Room (x.call.mark? id)) :
    next.Balanced roster leader id (access.toList ++ history) := by
  have hmoved := moved_of_step hsound hstep id
  cases hmoved with
  | rest hheader hnames hgrade hlead => exact h.rest hheader hnames hgrade hlead
  | @follow _ i c hrole hgrade hlead htread hnames =>
    have hi : i ≠ leader := ne_of_roles hrole ((hone leader).mpr rfl)
    exact h.follow hi hgrade (hlead leader (Ne.symm hi)) htread hnames (hroom _ rfl)
  | @lead _ i c hrole hgrade hlead hstride hnames =>
    obtain rfl := (hone i).mp hrole
    exact h.lead hgrade hstride hnames

/-- Where few have raised the live count, no access makes a count wrap. -/
theorem Balanced.room_of_few [DecidableEq κ] (h : m.Balanced roster leader id history)
    (hsound : m.Sound roster) (hone : ∀ i, (roster i).config.isLeader = true ↔ i = leader)
    {x : Access ι} (hstep : Step roster m (some x) next)
    (hfew : entries id .raise (x :: history) + 1 < UInt32.size) :
    (m.kernel.header id).Room (x.call.mark? id) := by
  have hmoved := moved_of_step hsound hstep id
  cases hmoved with
  | @follow _ i c hrole hgrade hlead htread hnames =>
    have hi : i ≠ leader := ne_of_roles hrole ((hone leader).mpr rfl)
    rw [entries_cons] at hfew
    exact htread.room_of_few h.books (h.passed i hi) (h.join_lt hi) hfew
  | @lead _ i c hrole hgrade hlead hstride hnames =>
    exact ⟨fun hmark => absurd hmark (hstride.ne_of_ne_depart (by simp)),
      fun hmark => absurd hmark (hstride.ne_of_ne_depart (by simp))⟩

theorem balanced_of_run [DecidableEq κ] {m₀ : Machine κ ι}
    (hone : ∀ i, (roster i).config.isLeader = true ↔ i = leader)
    (hidle : ∀ i, m₀.stage i = .idle) (hnew : m₀.kernel.segments.length ≤ id)
    (hrun : Run roster (fun _ => True) m₀ history m)
    (hfew : entries id .raise history + 1 < UInt32.size) :
    m.Balanced roster leader id history := by
  induction hrun with
  | start => exact balanced_of_idle hidle hnew
  | @step history m next access hrun hstep _ ih =>
    have hle : entries id .raise history ≤ entries id .raise (access.toList ++ history) :=
      entries_le_append _ _
    have hbefore := ih (by omega)
    have hsound := sound_of_run hrun hidle
    refine hbefore.step hsound hone hstep ?_
    rintro x rfl
    exact hbefore.room_of_few hsound hone hstep hfew

/-- Whoever publishes the segment is its leader, and nobody has entered anything yet. -/
theorem Balanced.unshared (h : m.Balanced roster leader id history) (hsound : m.Sound roster)
    (hone : ∀ i, (roster i).config.isLeader = true ↔ i = leader) {i : ι} {c : Call}
    (hcalling : m.stage i = .calling c) (hpublishes : c.publishes id = true) (mark : Mark) :
    entries id mark history = 0 := by
  have hsuits := hsound.suits i
  have hfits := h.fits
  refine h.books.early ?_ mark
  rw [hcalling] at hsuits
  cases c with
  | detach => cases hpublishes
  | attach a phase =>
    obtain ⟨hconfig, hsuits⟩ := hsuits
    cases phase with
    | publishBytes mapping | publishJoined mapping | publishLive mapping | publishState mapping =>
      obtain rfl := (hone i).mp (hconfig ▸ hsuits.1)
      have hid : mapping.segment = id := by simpa [Call.publishes] using hpublishes
      simp only [Machine.lead, hcalling, Stage.lead, Stage.segment?, Attach.segment?,
        Attach.mapping?, Option.map_some, hid, if_true, Stage.position, Attach.lead] at hfits
      exact hfits.1
    | _ => cases hpublishes

end

/-! ### Joins that come too late -/

section

variable [DecidableEq κ] [DecidableEq ι] {m next : Machine κ ι} {roster : ι → Member κ}
  {id : SegmentId}

/-- The member does not stand in the live count, or only until it has taken itself back. -/
def Late (m : Machine κ ι) (roster : ι → Member κ) (id : SegmentId) (i : ι) : Prop :=
  m.grade roster id i = .away ∨ m.grade roster id i = .passed ∨ m.grade roster id i = .refused

theorem late_of_step (hsound : m.Sound roster) {i : ι}
    (hfollower : (roster i).config.isLeader = false) {access : Option (Access ι)}
    (hstep : Step roster m access next) (hlate : m.Late roster id i)
    (hraise : ∀ x ∈ access.toList, x.member = i → x.call.mark? id ≠ some .raise) :
    next.Late roster id i ∧
      ∀ x ∈ access.toList, x.member = i → x.call.mark? id ≠ some .join := by
  have hmoved := moved_of_step hsound hstep id
  unfold Late at hlate ⊢
  cases hmoved with
  | rest hheader hnames hgrade hlead =>
    rw [hgrade i]
    exact ⟨hlate, by simp⟩
  | @follow _ j c hrole hgrade hlead htread hnames =>
    simp only [Option.toList_some, List.mem_singleton, forall_eq] at hraise ⊢
    by_cases hj : j = i
    · subst hj
      obtain ⟨hafter, hjoin⟩ := htread.late hlate (hraise rfl)
      exact ⟨hafter, fun _ => hjoin⟩
    · rw [hgrade i (Ne.symm hj)]
      exact ⟨hlate, fun h => absurd h hj⟩
  | @lead _ j c hrole hgrade hlead hstride hnames =>
    have hj : j ≠ i := Ne.symm (ne_of_roles hfollower hrole)
    simp only [Option.toList_some, List.mem_singleton, forall_eq]
    rw [hgrade i (Ne.symm hj)]
    exact ⟨hlate, fun h => absurd h hj⟩

theorem late_of_run (hsound : m.Sound roster) {i : ι}
    (hfollower : (roster i).config.isLeader = false) (hlate : m.Late roster id i)
    {later : List (Access ι)} {last : Machine κ ι}
    (hrun : Run roster (fun _ => True) m later last)
    (hraise : ∀ x ∈ later, x.member = i → x.call.mark? id ≠ some .raise) :
    last.Sound roster ∧ last.Late roster id i ∧
      ∀ x ∈ later, x.member = i → x.call.mark? id ≠ some .join := by
  induction hrun with
  | start => exact ⟨hsound, hlate, by simp⟩
  | @step history m next access _ hstep _ ih =>
    obtain ⟨hbefore, hbeforeLate, hbeforeJoin⟩ := ih fun x hx =>
      hraise x (List.mem_append_right _ hx)
    obtain ⟨hafter, hjoin⟩ := late_of_step hbefore hfollower hstep hbeforeLate fun x hx =>
      hraise x (List.mem_append_left _ hx)
    refine ⟨sound_step hbefore hstep, hafter, ?_⟩
    intro x hx
    rcases List.mem_append.mp hx with hx | hx
    · exact hjoin x hx
    · exact hbeforeJoin x hx

/-- A follower that finds the segment retired, after it raised the live count, is refused. -/
theorem late_of_recheck {i : ι} {a : Attach} {w : Wait} {mapping : Mapping}
    (hsound : m.Sound roster)
    (hstep : Step roster m (some ⟨i, .attach a (.recheck w mapping)⟩) next)
    (hid : mapping.segment = id) (hready : (m.kernel.header id).state ≠ Header.readyMark) :
    (roster i).config.isLeader = false ∧ next.Late roster id i := by
  cases hstep with
  | access _ _ hcalling =>
    have hsuits := hsound.suits i
    rw [hcalling] at hsuits
    obtain ⟨hconfig, hrole, -⟩ := hsuits
    refine ⟨hconfig ▸ hrole, Or.inr (Or.inr ?_)⟩
    have hnot : ((m.site (roster i).home).header mapping).isReady = false := by
      simpa [Header.isReady, site, Site.header, hid] using hready
    have hnext : (Call.attach a (.recheck w mapping)).step (m.site (roster i).home) =
        (.running (.attach a (.withdraw w mapping)), m.site (roster i).home) := by
      simp [Call.step, Call.ofAttach, Attach.step, Attach.stepJoin, hnot]
    simp [grade, hnext, Stage.after, Stage.grade, Stage.segment?, Attach.segment?,
      Attach.mapping?, hid, Stage.reached, Attach.grade]

end

/-! ### Attendance -/

/-- The counts are what the accesses entered. -/
structure Attended (m : Machine κ ι) (id : SegmentId) (history : List (Access ι)) : Prop where
  state_mem : (m.kernel.header id).state = 0 ∨
    (m.kernel.header id).state = Header.readyMark ∨
    (m.kernel.header id).state = Header.retiredMark
  unpublished : (m.kernel.header id).state = 0 → ∀ mark, entries id mark history = 0
  live_eq : (m.kernel.header id).state ≠ 0 →
    (m.kernel.header id).live.toNat + entries id .lower history =
      (if entries id .depart history = 0 then 1 else 0) + entries id .raise history
  joined_eq : (m.kernel.header id).state ≠ 0 →
    (m.kernel.header id).joined.toNat = 1 + entries id .join history

theorem Balanced.attended [Fintype ι] [DecidableEq ι] {m : Machine κ ι}
    {roster : ι → Member κ} {leader : ι} {id : SegmentId} {history : List (Access ι)}
    (h : m.Balanced roster leader id history) : m.Attended id history := by
  refine ⟨h.books.state_mem, h.books.early, ?_, h.books.joined_eq⟩
  intro hstate
  have hlive := h.books.live_eq hstate
  have hdepart := h.books.depart_le
  split <;> omega

theorem Balanced.live_ne_zero [Fintype ι] [DecidableEq ι] {m next : Machine κ ι}
    {roster : ι → Member κ} {leader : ι} {id : SegmentId} {history : List (Access ι)}
    (h : m.Balanced roster leader id history)
    (hone : ∀ i, (roster i).config.isLeader = true ↔ i = leader) {x : Access ι}
    (hmoved : Moved roster id m (some x) next)
    (hmark : x.call.mark? id = some .lower ∨ x.call.mark? id = some .depart) :
    (m.kernel.header id).live ≠ 0 := by
  have hpos : 0 < (m.kernel.header id).live.toNat := by
    cases hmoved with
    | @follow _ i c hrole hgrade hlead htread hnames =>
      have hi : i ≠ leader := ne_of_roles hrole ((hone leader).mpr rfl)
      rcases hmark with hmark | hmark
      · exact htread.live_pos h.books (h.passed i hi) (h.lower_lt hi) hmark
      · exact absurd hmark htread.ne_depart
    | @lead _ i c hrole hgrade hlead hstride hnames =>
      obtain rfl := (hone i).mp hrole
      rcases hmark with hmark | hmark
      · exact absurd hmark (hstride.ne_of_ne_depart (by simp))
      · exact hstride.live_pos h.books h.fits h.lower_le hmark
  intro hzero
  rw [hzero] at hpos
  exact absurd hpos (Nat.lt_irrefl 0)

section

variable [DecidableEq κ] [DecidableEq ι]

structure Orderly (m : Machine κ ι) (roster : ι → Member κ) (id : SegmentId)
    (history : List (Access ι)) (access : Option (Access ι)) (next : Machine κ ι) : Prop where
  state_moves : (next.kernel.header id).state = (m.kernel.header id).state ∨
    (m.kernel.header id).state = 0 ∧ (next.kernel.header id).state = Header.readyMark ∨
    (m.kernel.header id).state = Header.readyMark ∧
      (next.kernel.header id).state = Header.retiredMark
  joined_le : (m.kernel.header id).joined ≤ (next.kernel.header id).joined
  /-- Nobody lowers a live count of zero. -/
  live_ne_zero : ∀ x, access = some x →
    x.call.mark? id = some .lower ∨ x.call.mark? id = some .depart →
    (m.kernel.header id).live ≠ 0
  /-- The stores that publish the segment overwrite nothing that a follower entered. -/
  unshared : ∀ x, access = some x → x.call.publishes id = true →
    ∀ mark, entries id mark history = 0
  /-- A join that looks at the state after the segment was retired never ends attached. -/
  refused : ∀ i a w mapping, access = some ⟨i, .attach a (.recheck w mapping)⟩ →
    mapping.segment = id → (m.kernel.header id).state = Header.retiredMark →
    ∀ later last, Run roster (fun _ => True) next later last →
      (∀ x ∈ later, x.member = i → x.call.mark? id ≠ some .raise) →
      last.grade roster id i ≠ .joined ∧
        ∀ x ∈ later, x.member = i → x.call.mark? id ≠ some .join

theorem Balanced.orderly [Fintype ι] {m next : Machine κ ι} {roster : ι → Member κ} {leader : ι}
    {id : SegmentId} {history : List (Access ι)} (h : m.Balanced roster leader id history)
    (hsound : m.Sound roster) (hone : ∀ i, (roster i).config.isLeader = true ↔ i = leader)
    (hfew : entries id .raise history + 1 < UInt32.size) {access : Option (Access ι)}
    (hstep : Step roster m access next) : m.Orderly roster id history access next where
  state_moves := by
    have hmoved := moved_of_step hsound hstep id
    cases hmoved with
    | rest hheader => exact Or.inl (by rw [hheader])
    | follow _ _ _ htread => exact Or.inl htread.state_eq
    | @lead _ i _ hrole _ _ hstride =>
      obtain rfl := (hone i).mp hrole
      exact hstride.state_moves h.books h.fits
  joined_le := by
    have hmoved := moved_of_step hsound hstep id
    cases hmoved with
    | rest hheader =>
      rw [hheader]
      exact UInt32.le_refl _
    | @follow _ i _ hrole _ _ htread =>
      have hi : i ≠ leader := ne_of_roles hrole ((hone leader).mpr rfl)
      exact htread.joined_le h.books (h.passed i hi) (h.join_lt hi) hfew
    | @lead _ i _ hrole _ _ hstride =>
      obtain rfl := (hone i).mp hrole
      exact hstride.joined_le h.fits
  live_ne_zero := by
    intro x haccess hmark
    subst haccess
    exact h.live_ne_zero hone (moved_of_step hsound hstep id) hmark
  unshared := by
    intro x haccess hpublishes mark
    subst haccess
    cases hstep with
    | access i c hcalling => exact h.unshared hsound hone hcalling hpublishes mark
  refused := by
    intro i a w mapping haccess hid hretired later last hrun hraise
    subst haccess
    have hready : (m.kernel.header id).state ≠ Header.readyMark := by
      rw [hretired]
      exact Ne.symm Header.readyMark_ne_retiredMark
    obtain ⟨hfollower, hlate⟩ := late_of_recheck hsound hstep hid hready
    obtain ⟨-, hlast, hjoin⟩ :=
      late_of_run (sound_step hsound hstep) hfollower hlate hrun hraise
    refine ⟨?_, hjoin⟩
    intro hjoined
    unfold Late at hlast
    rw [hjoined] at hlast
    rcases hlast with h | h | h <;> cases h

/-- In every run of one leader and followers, the counts of each segment made in the run are what
the accesses entered, and every step leaves them in order. -/
theorem attendance_exact [Fintype ι] {m₀ m : Machine κ ι} {roster : ι → Member κ} {leader : ι}
    (hone : ∀ i, (roster i).config.isLeader = true ↔ i = leader)
    (hidle : ∀ i, m₀.stage i = .idle) {id : SegmentId} (hnew : m₀.kernel.segments.length ≤ id)
    {history : List (Access ι)} (hrun : Run roster (fun _ => True) m₀ history m)
    (hfew : entries id .raise history + 1 < UInt32.size) :
    m.Attended id history ∧ ∀ access next, Step roster m access next →
      m.Orderly roster id history access next := by
  have hbalanced := balanced_of_run hone hidle hnew hrun hfew
  exact ⟨hbalanced.attended, fun access next hstep =>
    hbalanced.orderly (sound_of_run hrun hidle) hone hfew hstep⟩

def pair (follows : Bool) : Member Bool :=
  sample follows fun config =>
    { config with rank := if follows then 1 else 0, teardownTimeout := .ofSeconds 0 }

/-- The leader publishes a segment, the follower joins it, and the leader retires it. -/
theorem attendance_exact_pair : ∃ (history : List (Access Bool)) (m : Machine Bool Bool),
    (m.kernel.header 0).state = Header.retiredMark ∧ m.Attended 0 history ∧
      entries 0 .raise history = 1 ∧ entries 0 .depart history = 0 := by
  obtain ⟨⟨history, m⟩, hplay, hreached⟩ := Option.map_eq_some_iff.mp
    (by decide +kernel :
      (play pair (fun _ => True)
        (.allocate false 4096 :: List.replicate 10 (.access false) ++
          .allocate true 4096 :: List.replicate 11 (.access true) ++
          .release false :: List.replicate 4 (.access false))
        ([], fresh (fun follows => if follows then 2 else 1) [1, 2])).map (fun reached =>
          ((reached.2.kernel.header 0).state, entries 0 .raise reached.1,
            entries 0 .depart reached.1)) = some (Header.retiredMark, 1, 0))
  obtain ⟨hstate, hraise, hdepart⟩ : (m.kernel.header 0).state = Header.retiredMark ∧
      entries 0 .raise history = 1 ∧ entries 0 .depart history = 0 := by
    simpa using hreached
  refine ⟨history, m, hstate, ?_, hraise, hdepart⟩
  have hone : ∀ i, (pair i).config.isLeader = true ↔ i = false := by decide
  refine (attendance_exact hone (fun _ => rfl) (Nat.le_refl 0)
    (run_of_play (.start trivial) _ hplay) ?_).1
  rw [hraise]
  decide

end

end Machine
end StagingMemory
