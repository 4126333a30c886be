import StagingMemory.Proofs.Attendance
import StagingMemory.Proofs.Leadership
/-!
A follower joins what its leader has published, and nothing else. The leader writes the state last,
so whoever finds a segment ready finds it registered, as long as it shall be, and with its length
recorded; a follower goes on only if that is the length it asks for. And as long as the leader has
not written the state, its attempt may fail: then nobody is attached to the segment, now or later
(`Machine.publication_safe`).
-/
namespace StagingMemory

/-! ### The leader's way to publication -/

namespace Attach

/-- The accesses, newest first, by which the call has come from registering to its phase. -/
def trail : Phase → List Phase
  | .publishBytes m => [.register m]
  | .publishJoined m => [.publishBytes m, .register m]
  | .publishLive m => [.publishJoined m, .publishBytes m, .register m]
  | .publishState m => [.publishLive m, .publishJoined m, .publishBytes m, .register m]
  | _ => []

def compared? : Phase → Option Mapping
  | .raiseLive _ m | .recheck _ m | .raiseJoined m => some m
  | _ => none

theorem mapping?_of_compared? {phase : Phase} {m : Mapping} (h : compared? phase = some m) :
    mapping? phase = some m ∧ grade phase ≠ .away := by
  cases phase <;> cases h <;> exact ⟨rfl, by simp [grade]⟩

namespace Transition

variable {a : Attach} {phase next : Phase} {s t : Site}

theorem trail_sublist (h : Transition a phase s (.running next) t) :
    (trail next).Sublist (phase :: trail phase) := by
  cases h with
  | registered =>
    split
    · exact .refl _
    · exact List.nil_sublist _
  | bytesPublished | joinedPublished | livePublished => exact .refl _
  | _ => exact List.nil_sublist _

theorem before_compared (h : Transition a phase s (.running next) t) {m : Mapping}
    (hm : compared? next = some m) :
    Attach.mapping? phase = some m ∧ Attach.grade phase ≠ .away ∧
      (compared? phase = some m ∨ (s.header m).bytes = a.bytes) := by
  cases h with
  | matched hbytes =>
    cases hm
    exact ⟨rfl, by simp [Attach.grade], Or.inr hbytes⟩
  | raised | confirmed =>
    cases hm
    exact ⟨rfl, by simp [Attach.grade], Or.inl rfl⟩
  | registered => split at hm <;> cases hm
  | _ => cases hm

end Transition

end Attach

/-- The leader's accesses, newest first, that register and publish a mapping of its. -/
def publication {ι : Type v} (leader : ι) (a : Attach) (its : Mapping) : List (Access ι) :=
  (.publishState its :: Attach.trail (.publishState its)).map fun phase => ⟨leader, .attach a phase⟩

/-- The segment whose name the leader is about to remove, since its attempt to allocate has
failed. -/
def Stage.takenBack? (k : Kernel) : Stage → Option SegmentId
  | calling (.attach a (.discard _)) => k.names.get? a.config.segment
  | calling (.attach _ (.undo its _)) => some its.segment
  | _ => none

/-! ### What the record of a published segment keeps -/

namespace Kernel

/-- A write that keeps a word of the header keeps it in every header. -/
theorem word_modifyHeader {β : Type v} (word : Header → β) (k : Kernel) (id j : SegmentId)
    {f : Header → Header} (hf : ∀ h, word (f h) = word h) :
    word ((k.modifyHeader id f).header j) = word (k.header j) := by
  simp only [header, segment?_modifyHeader]
  split
  · cases k.segment? j with
    | none => rfl
    | some s => exact hf s.header
  · rfl

end Kernel

namespace Machine

variable {κ : Type u} {ι : Type v} {m next : Machine κ ι} {roster : ι → Member κ} {leader : ι}
  {id : SegmentId}

structure Published (m : Machine κ ι) (leader : ι) (id : SegmentId) (history : List (Access ι))
    (a : Attach) : Prop where
  written : ∃ its, its.segment = id ∧ (publication leader a its).Sublist history
  bytes_eq : (m.kernel.header id).bytes = a.bytes
  length_eq : m.kernel.segmentLength id = a.total

def Trailed (m : Machine κ ι) (leader : ι) (history : List (Access ι)) : Prop :=
  ∀ a phase, m.stage leader = .calling (.attach a phase) →
    ((Attach.trail phase).map fun phase => (⟨leader, .attach a phase⟩ : Access ι)).Sublist history

def Compared (m : Machine κ ι) (leader : ι) (id : SegmentId) : Prop :=
  ∀ i a phase mapping, i ≠ leader → m.stage i = .calling (.attach a phase) →
    Attach.compared? phase = some mapping → mapping.segment = id →
    (m.kernel.header id).bytes = a.bytes

/-- The segment was never published, and its name is gone or about to be removed. -/
structure Forsaken (m : Machine κ ι) (roster : ι → Member κ) (leader : ι) (id : SegmentId) :
    Prop where
  known : id < m.kernel.segments.length
  state_eq : (m.kernel.header id).state = 0
  away : ∀ i, i ≠ leader → m.grade roster id i = .away
  lead : m.lead roster id leader = .away ∨ m.lead roster id leader = .discarding
  bound : ∀ name, m.kernel.names.get? name = some id →
    name = (roster leader).config.segment ∧ m.lead roster id leader = .discarding

/-- What the failed attempt is about to remove is bound to the leader's name, and blank. -/
theorem Ruled.takenBack (h : m.Ruled roster) (hsound : m.Sound roster)
    (hleader : (roster leader).config.isLeader = true)
    (htaken : (m.stage leader).takenBack? m.kernel = some id) :
    m.kernel.names.get? (roster leader).config.segment = some id ∧
      (m.kernel.header id).state = 0 ∧ m.lead roster id leader = .discarding := by
  have hrules := h.rules leader hleader
  have hsuits := hsound.suits leader
  unfold Stage.takenBack? at htaken
  split at htaken
  case h_1 a error hstage =>
    rw [hstage] at hrules hsuits
    obtain ⟨j, length, hdeed⟩ := hrules
    have hbound : m.kernel.names.get? a.config.segment = some j := hdeed.1
    obtain rfl := Option.some.inj (hbound.symm.trans htaken)
    refine ⟨hsuits.1 ▸ hbound, hdeed.state_eq, ?_⟩
    simp only [Machine.lead, hstage, Stage.lead]
  case h_2 a its ending hstage =>
    rw [hstage] at hrules hsuits
    cases htaken
    have hdeed : m.kernel.Deed a.config.segment its.segment _ := hrules
    refine ⟨hsuits.1 ▸ hdeed.1, hdeed.state_eq, ?_⟩
    simp only [Machine.lead, hstage, Stage.lead]
  case h_3 => cases htaken

theorem forsaken_of_takenBack (hagreed : m.Agreed roster leader id) (hruled : m.Ruled roster)
    (hsound : m.Sound roster) (hleader : (roster leader).config.isLeader = true)
    (htaken : (m.stage leader).takenBack? m.kernel = some id) :
    m.Forsaken roster leader id := by
  obtain ⟨hbound, hstate, hlead⟩ := hruled.takenBack hsound hleader htaken
  refine ⟨m.kernel.names_bound _ id hbound, hstate, ?_, Or.inr hlead, ?_⟩
  · intro i hi
    exact not_ne_iff.mp fun haway => hagreed.passed i hi haway hstate
  · intro name hname
    exact ⟨(hagreed.bound name hname).1, hlead⟩

variable [DecidableEq κ] [DecidableEq ι] {history : List (Access ι)}

theorem Trailed.step (h : m.Trailed leader history) {access : Option (Access ι)}
    (hstep : Step roster m access next) : next.Trailed leader (access.toList ++ history) := by
  intro a phase hcalling
  generalize hc : Call.attach a phase = c at hcalling
  cases origin_of_step hstep hcalling with
  | stayed hbefore =>
    subst hc
    exact (h a phase hbefore).trans (List.sublist_append_right _ _)
  | allocates _ hfirst =>
    cases hc
    cases hfirst <;> exact List.nil_sublist _
  | releases => cases hc
  | steps haccess hbefore hnext =>
    subst hc
    subst haccess
    obtain ⟨before, rfl, ht⟩ := Call.attach_of_step hnext
    exact (ht.trail_sublist.map _).trans ((h a before hbefore).cons_cons _)

theorem trailed_of_run {m₀ : Machine κ ι} (hidle : ∀ i, m₀.stage i = .idle)
    (hrun : Run roster (fun _ => True) m₀ history m) : m.Trailed leader history := by
  induction hrun with
  | start =>
    intro a phase hcalling
    rw [hidle leader] at hcalling
    cases hcalling
  | step _ hstep _ ih => exact ih.step hstep

/-! ### One leader -/

section

variable (hone : ∀ i, (roster i).config.isLeader = true ↔ i = leader)

include hone

/-- The only leader removes no leftover under its name while it rules the name. -/
theorem spares_of_one {access : Option (Access ι)} (hsound : m.Sound roster)
    (hstep : Step roster m access next) : m.Spares roster access := by
  intro i hi j a
  have hnot : ∀ phase, access = some ⟨j, .attach a phase⟩ →
      (roster j).config.isLeader = true → Attach.rules phase = true := by
    intro phase haccess hrole
    subst haccess
    have hrules := hi.2
    obtain rfl := (hone i).mp hi.1
    obtain rfl := (hone j).mp hrole
    rw [stage_of_step hstep] at hrules
    exact hrules
  have hleads : ∀ phase, access = some ⟨j, .attach a phase⟩ → a.Suits phase ∧
      a.config = (roster j).config := by
    intro phase haccess
    subst haccess
    have hsuits := hsound.suits j
    rw [stage_of_step hstep] at hsuits
    exact ⟨hsuits.2, hsuits.1⟩
  refine ⟨?_, ?_⟩
  · intro mapping haccess
    obtain ⟨hrole, hconfig⟩ := hleads _ haccess
    exact absurd (hnot _ haccess (hconfig ▸ hrole)) (by simp [Attach.rules])
  · intro haccess
    obtain ⟨hrole, hconfig⟩ := hleads _ haccess
    exact absurd (hnot _ haccess (hconfig ▸ hrole)) (by simp [Attach.rules])

theorem ruled_of_one {m₀ : Machine κ ι} (hidle : ∀ i, m₀.stage i = .idle)
    (hrun : Run roster (fun _ => True) m₀ history m) : m.Ruled roster := by
  induction hrun with
  | start => exact ruled_of_idle hidle
  | step hrun hstep _ ih =>
    have hsound := sound_of_run hrun hidle
    exact ih.step hsound (spares_of_one hone hsound hstep) hstep

/-- Whatever is written once a segment is published, its length and the length on record stay. -/
theorem Agreed.payload_step (h : m.Agreed roster leader id) (hsound : m.Sound roster)
    {access : Option (Access ι)} (hstep : Step roster m access next)
    (hstate : (m.kernel.header id).state ≠ 0) :
    (next.kernel.header id).bytes = (m.kernel.header id).bytes ∧
      next.kernel.segmentLength id = m.kernel.segmentLength id := by
  by_cases hwritten : ∃ x, access = some x ∧ x.call.written? = some id
  case neg =>
    have hrecord : next.kernel.record id = m.kernel.record id :=
      record_of_step hstep fun x hx hw => hwritten ⟨x, hx, hw⟩
    exact ⟨congrArg Record.bytes hrecord, congrArg Record.length hrecord⟩
  case pos =>
    obtain ⟨⟨i, c⟩, rfl, hc⟩ := hwritten
    have hsuits := hsound.suits i
    have hposted := h.posted
    cases hstep with
    | access _ _ hcalling =>
      rw [hcalling] at hsuits
      cases c with
      | attach a phase =>
        obtain ⟨hconfig, hsuits⟩ := hsuits
        cases phase with
        | retireLeftover mapping =>
          exact ⟨m.kernel.word_modifyHeader Header.bytes _ _ fun _ => rfl,
            m.kernel.segmentLength_modifyHeader _ _ _⟩
        | resize j =>
          cases hc
          obtain rfl := (hone i).mp (hconfig ▸ hsuits)
          rw [lead_of_attach hcalling rfl rfl] at hposted
          exact absurd hposted hstate
        | claim | publishBytes | publishJoined | publishLive | publishState =>
          cases hc
          obtain rfl := (hone i).mp (hconfig ▸ hsuits.1)
          rw [lead_of_attach hcalling rfl rfl] at hposted
          exact absurd hposted hstate
        | _ => cases hc
      | detach d phase =>
        cases phase with
        | retire mapping late =>
          exact ⟨m.kernel.word_modifyHeader Header.bytes _ _ fun _ => rfl,
            m.kernel.segmentLength_modifyHeader _ _ _⟩
        | _ => cases hc

theorem Compared.step (h : m.Compared leader id) (hagreed : m.Agreed roster leader id)
    (hsound : m.Sound roster) {access : Option (Access ι)}
    (hstep : Step roster m access next) : next.Compared leader id := by
  intro i a phase mapping hi hcalling hcompared hid
  have hbefore : (m.kernel.header id).bytes = a.bytes ∧ (m.kernel.header id).state ≠ 0 := by
    generalize hc : Call.attach a phase = c at hcalling
    cases origin_of_step hstep hcalling with
    | stayed hbefore =>
      subst hc
      obtain ⟨hmapping, haway⟩ := Attach.mapping?_of_compared? hcompared
      refine ⟨h i a phase mapping hi hbefore hcompared hid, hagreed.passed i hi ?_⟩
      rwa [grade_of_attach hbefore hmapping hid]
    | allocates _ hfirst =>
      cases hc
      cases hfirst <;> cases hcompared
    | releases => cases hc
    | steps _ hbefore hnext =>
      subst hc
      obtain ⟨before, rfl, ht⟩ := Call.attach_of_step hnext
      obtain ⟨hmapping, haway, hbytes⟩ := ht.before_compared hcompared
      refine ⟨?_, hagreed.passed i hi (by rwa [grade_of_attach hbefore hmapping hid])⟩
      rcases hbytes with hcomparedBefore | hbytes
      · exact h i a before mapping hi hbefore hcomparedBefore hid
      · rw [← hid]
        exact hbytes
  rw [(hagreed.payload_step hone hsound hstep hbefore.2).1]
  exact hbefore.1

theorem compared_of_run {m₀ : Machine κ ι} (hidle : ∀ i, m₀.stage i = .idle)
    (hnew : m₀.kernel.segments.length ≤ id) (hrun : Run roster (fun _ => True) m₀ history m) :
    m.Compared leader id := by
  induction hrun with
  | start =>
    intro i a phase mapping _ hcalling
    rw [hidle i] at hcalling
    cases hcalling
  | step hrun hstep _ ih =>
    exact ih.step hone (agreed_of_run hone hidle hnew hrun) (sound_of_run hrun hidle) hstep

theorem published_step (h : (m.kernel.header id).state ≠ 0 → ∃ a, m.Published leader id history a)
    (hagreed : m.Agreed roster leader id) (hsound : m.Sound roster) (hruled : next.Ruled roster)
    (htrailed : m.Trailed leader history) {access : Option (Access ι)}
    (hstep : Step roster m access next) (hstate : (next.kernel.header id).state ≠ 0) :
    ∃ a, next.Published leader id (access.toList ++ history) a := by
  by_cases hzero : (m.kernel.header id).state = 0
  case neg =>
    obtain ⟨a, ⟨its, hid, hwritten⟩, hbytes, hlength⟩ := h hzero
    obtain ⟨hbytesSame, hlengthSame⟩ := hagreed.payload_step hone hsound hstep hzero
    exact ⟨a, ⟨its, hid, hwritten.trans (List.sublist_append_right _ _)⟩,
      hbytesSame.trans hbytes, hlengthSame.trans hlength⟩
  case pos =>
    have hmoved := moved_of_step hsound hstep id
    cases hmoved with
    | rest hheader =>
      rw [hheader] at hstate
      exact absurd hzero hstate
    | follow _ _ _ htread =>
      rw [htread.state_eq] at hstate
      exact absurd hzero hstate
    | @lead _ i c hrole _ _ hstride =>
      obtain rfl := (hone i).mp hrole
      have hwithLive := hstride.withLive_of_published hagreed.posted hzero hstate
      obtain ⟨a, its, hcalling, hid⟩ := publishState_of_lead hwithLive
      obtain rfl := Stage.calling.inj ((stage_of_step hstep).symm.trans hcalling)
      have hdeed := hruled.rules i hrole
      cases hstep with
      | access =>
        rw [stage_settle_self] at hdeed
        refine ⟨a, ⟨its, hid, (htrailed a _ hcalling).cons_cons _⟩, ?_, ?_⟩
        · rw [← hid]
          exact hdeed.bytes_eq
        · rw [← hid]
          exact hdeed.length_eq

theorem published_of_run {m₀ : Machine κ ι} (hidle : ∀ i, m₀.stage i = .idle)
    (hnew : m₀.kernel.segments.length ≤ id) (hrun : Run roster (fun _ => True) m₀ history m)
    (hstate : (m.kernel.header id).state ≠ 0) : ∃ a, m.Published leader id history a := by
  induction hrun with
  | start =>
    rw [Kernel.header_of_le hnew] at hstate
    exact absurd rfl hstate
  | step hrun hstep _ ih =>
    have hafter : Run roster (fun _ => True) m₀ _ _ := .step hrun hstep trivial
    exact published_step hone ih (agreed_of_run hone hidle hnew hrun) (sound_of_run hrun hidle)
      (ruled_of_one hone hidle hafter) (trailed_of_run hidle hrun) hstep hstate

end

/-! ### Segments made in the run -/

/-- What is bound to the name, and what the members deal with, was made when there were `n` segments
already. -/
structure Recent (m : Machine κ ι) (roster : ι → Member κ) (name : SegmentName) (n : Nat) :
    Prop where
  bound : ∀ id, m.kernel.names.get? name = some id → n ≤ id
  dealt : ∀ i id, m.segment? roster i = some id → n ≤ id
  length_le : n ≤ m.kernel.segments.length

theorem Recent.step {name : SegmentName} {n : Nat} (h : m.Recent roster name n)
    (hgroup : ∀ i, (roster i).config.segment = name) (hsound : m.Sound roster)
    {access : Option (Access ι)} (hstep : Step roster m access next) :
    next.Recent roster name n where
  bound id hbound := by
    rcases names_before hstep hbound with hbefore | ⟨_, _, _, _, hcreated⟩
    · exact h.bound id hbefore
    · exact Nat.le_trans h.length_le hcreated.length_le
  dealt i id hid := by
    rcases segment_before hsound hstep hid with hbefore | hbound | hnew
    · exact h.dealt i id hbefore
    · exact h.bound id (hgroup i ▸ hbound)
    · exact Nat.le_trans h.length_le hnew
  length_le := Nat.le_trans h.length_le (segments_length_le hstep)

theorem recent_of_run {m₀ : Machine κ ι} {name : SegmentName}
    (hgroup : ∀ i, (roster i).config.segment = name) (hidle : ∀ i, m₀.stage i = .idle)
    (hfree : m₀.kernel.names.get? name = none)
    (hrun : Run roster (fun _ => True) m₀ history m) :
    m.Recent roster name m₀.kernel.segments.length := by
  induction hrun with
  | start =>
    refine ⟨fun id hbound => ?_, fun i id hid => ?_, Nat.le_refl _⟩
    · rw [hfree] at hbound
      cases hbound
    · rw [segment?, hidle i] at hid
      cases hid
  | step hrun hstep _ ih => exact ih.step hgroup (sound_of_run hrun hidle) hstep

/-! ### Segments given up -/

theorem Forsaken.step (h : m.Forsaken roster leader id)
    (hone : ∀ i, (roster i).config.isLeader = true ↔ i = leader) (hsound : m.Sound roster)
    {access : Option (Access ι)} (hstep : Step roster m access next) :
    next.Forsaken roster leader id := by
  have hknown := Nat.lt_of_lt_of_le h.known (segments_length_le hstep)
  have hmoved := moved_of_step hsound hstep id
  cases hmoved with
  | rest hheader hnames hgrade hlead =>
    refine ⟨hknown, ?_, ?_, ?_, ?_⟩
    · rw [hheader]
      exact h.state_eq
    · intro i hi
      rw [hgrade]
      exact h.away i hi
    · rw [hlead]
      exact h.lead
    · rw [hnames, hlead]
      exact h.bound
  | @follow _ i c hrole hgrade hlead htread hnames =>
    have hi : i ≠ leader := ne_of_roles hrole ((hone leader).mpr rfl)
    have hready : (m.kernel.header id).isReady = false := by
      simp only [Header.isReady, h.state_eq]
      decide
    rw [h.away i hi] at htread
    obtain ⟨haway, hheader⟩ := htread.away_stays hready
    refine ⟨hknown, ?_, ?_, ?_, ?_⟩
    · rw [hheader]
      exact h.state_eq
    · intro j hj
      by_cases hji : j = i
      · rw [hji]
        exact haway
      · rw [hgrade j hji]
        exact h.away j hj
    · rw [hlead leader (Ne.symm hi)]
      exact h.lead
    · rw [hnames, hlead leader (Ne.symm hi)]
      exact h.bound
  | @lead _ i c hrole hgrade hlead hstride hnames =>
    obtain rfl := (hone i).mp hrole
    obtain ⟨hnext, hheader⟩ := hstride.given_up h.lead (Nat.not_le.mpr h.known)
      fun hnamed => hnamed.elim fun name hbound => (h.bound name hbound).2
    refine ⟨hknown, ?_, ?_, hnext, ?_⟩
    · rw [hheader]
      exact h.state_eq
    · intro j hj
      rw [hgrade j hj]
      exact h.away j hj
    · intro name hbound
      rcases hnames name hbound with ⟨-, hblank⟩ | ⟨hbefore, htaken⟩
      · rw [hblank] at hnext
        rcases hnext with hnext | hnext <;> cases hnext
      · obtain ⟨hname, hdiscarding⟩ := h.bound name hbefore
        refine ⟨hname, hnext.resolve_left ?_⟩
        intro haway
        exact htaken hdiscarding haway hname

theorem forsaken_of_run (h : m.Forsaken roster leader id)
    (hone : ∀ i, (roster i).config.isLeader = true ↔ i = leader) (hsound : m.Sound roster)
    {later : List (Access ι)} {last : Machine κ ι}
    (hrun : Run roster (fun _ => True) m later last) :
    last.Sound roster ∧ last.Forsaken roster leader id := by
  induction hrun with
  | start => exact ⟨hsound, h⟩
  | step _ hstep _ ih => exact ⟨sound_step ih.1 hstep, ih.2.step hone ih.1 hstep⟩

/-! ### Publication -/

/-- A follower whose join is complete has joined what the leader registered and published before, at
the length that both asked for; and when the leader's attempt to allocate fails, nobody is attached
to its segment, whatever happens then. -/
theorem publication_safe (hone : ∀ i, (roster i).config.isLeader = true ↔ i = leader)
    {name : SegmentName} (hgroup : ∀ i, (roster i).config.segment = name) {m₀ : Machine κ ι}
    (hidle : ∀ i, m₀.stage i = .idle) (hfree : m₀.kernel.names.get? name = none)
    (hrun : Run roster (fun _ => True) m₀ history m) :
    (∀ i f mapping next, Step roster m (some ⟨i, .attach f (.raiseJoined mapping)⟩) next →
      ∃ a, m.Published leader mapping.segment history a ∧ f.bytes = a.bytes ∧
        mapping.length = a.total) ∧
    ∀ id, (m.stage leader).takenBack? m.kernel = some id →
      ∀ later last, Run roster (fun _ => True) m later last →
        ∀ i, i ≠ leader → last.grade roster id i = .away := by
  have hleader := (hone leader).mpr rfl
  have hsound := sound_of_run hrun hidle
  have hrecent := recent_of_run hgroup hidle hfree hrun
  refine ⟨?_, ?_⟩
  · intro i f mapping next hstep
    have hcalling := stage_of_step hstep
    have hsuits := hsound.suits i
    rw [hcalling] at hsuits
    obtain ⟨hconfig, hrole, hlength⟩ := hsuits
    have hi : i ≠ leader := ne_of_roles (hconfig ▸ hrole) hleader
    have hnew := hrecent.dealt i mapping.segment (by rw [segment?, hcalling]; rfl)
    have hstate : (m.kernel.header mapping.segment).state ≠ 0 := by
      apply (agreed_of_run hone hidle hnew hrun).passed i hi
      rw [grade_of_attach hcalling rfl rfl]
      simp [Attach.grade]
    obtain ⟨a, hpublished⟩ := published_of_run hone hidle hnew hrun hstate
    have hbytes : f.bytes = a.bytes := by
      rw [← hpublished.bytes_eq]
      exact (compared_of_run hone hidle hnew hrun i f _ mapping hi hcalling rfl rfl).symm
    refine ⟨a, hpublished, hbytes, ?_⟩
    rw [hlength, Attach.total, hbytes, Attach.total]
  · intro id htaken later last hlater i hi
    have hruled := ruled_of_one hone hidle hrun
    have hbound := (hruled.takenBack hsound hleader htaken).1
    have hnew := hrecent.bound id (hgroup leader ▸ hbound)
    have hforsaken := forsaken_of_takenBack (agreed_of_run hone hidle hnew hrun) hruled hsound
      hleader htaken
    exact (forsaken_of_run hforsaken hone hsound hlater).2.away i hi

/-- The follower is about to complete its join; and a leader that asks for more than a segment can
hold is about to remove its name. -/
theorem publication_safe_pair :
    (∃ (history : List (Access Bool)) (m next : Machine Bool Bool) (f : Attach)
      (mapping : Mapping), Step pair m (some ⟨true, .attach f (.raiseJoined mapping)⟩) next ∧
        ∃ a, m.Published false mapping.segment history a ∧ f.bytes = a.bytes ∧
          mapping.length = a.total) ∧
    ∃ m : Machine Bool Bool, (m.stage false).takenBack? m.kernel = some 0 ∧
      ∀ later last, Run pair (fun _ => True) m later last → last.grade pair 0 true = .away := by
  have hone : ∀ i, (pair i).config.isLeader = true ↔ i = false := by decide
  have hgroup : ∀ i, (pair i).config.segment = (pair false).config.segment := fun _ => rfl
  refine ⟨?_, ?_⟩
  · obtain ⟨⟨⟨history, m⟩, access, next⟩, hplay, hreached⟩ := Option.map_eq_some_iff.mp
      (by decide +kernel :
        ((play pair (fun _ => True)
          (.allocate false 4096 :: List.replicate 10 (.access false) ++
            .allocate true 4096 :: List.replicate 8 (.access true))
          ([], fresh (fun follows => if follows then 2 else 1) [1, 2])).bind (fun before =>
            (before.2.obey pair (.access true)).map fun after => (before, after))).map
          (fun (_, access, _) => access.map fun x => (x.member, x.call.mark? 0)) =
            some (some (true, some .join)))
    simp only [Option.bind_eq_some_iff, Option.map_eq_some_iff, Prod.mk.injEq] at hplay hreached
    obtain ⟨_, hplay, _, hobey, rfl, rfl⟩ := hplay
    obtain ⟨⟨_, c⟩, rfl, rfl, hmark⟩ := hreached
    obtain ⟨f, mapping, rfl, -⟩ := Call.eq_raiseJoined hmark
    have hstep := step_of_obey hobey
    exact ⟨history, m, next, f, mapping, hstep, (publication_safe hone hgroup (fun _ => rfl) rfl
      (run_of_play (.start trivial) _ hplay)).1 true f mapping next hstep⟩
  · obtain ⟨⟨history, m⟩, hplay, htaken⟩ := Option.map_eq_some_iff.mp
      (by decide +kernel :
        (play pair (fun _ => True)
          (.allocate false 0x8000000000000000 :: List.replicate 2 (.access false))
          ([], fresh (fun follows => if follows then 2 else 1) [1, 2])).map
          (fun reached => (reached.2.stage false).takenBack? reached.2.kernel) = some (some 0))
    refine ⟨m, htaken, fun later last hlater => ?_⟩
    exact (publication_safe hone hgroup (fun _ => rfl) rfl
      (run_of_play (.start trivial) _ hplay)).2 0 htaken later last hlater true (by decide)

end Machine
end StagingMemory
