import StagingMemory.Proofs.Leadership
/-!
When removing leftovers hurts a leader that is alive. A leader that removes leftovers looks at a
segment first, and retires it and removes the name later. A segment of a living process passes the
check only while its owner is not recorded in it; but the name may also change hands between the
check and the removal. As long as no reclaim past its check threatens a segment of a living process,
nothing is hurt; the steps by which one comes to threaten are listed; and once one does, harm is at
most two of its accesses away.
-/
namespace StagingMemory

namespace Attach

/-- A leader in this phase makes the segment, and has not recorded its process in it yet. -/
def Makes (k : Kernel) (name : SegmentName) (id : SegmentId) : Phase → Prop
  | .resize j | .map j => j = id
  | .claim m => m.segment = id
  | .discard _ => k.names.get? name = some id
  | _ => False

/-- The call took what it found for a leftover, and has not removed it yet. -/
def pastCheck : Phase → Bool
  | .retireLeftover _ | .removeLeftover => true
  | _ => false

end Attach

def Stage.pastCheck : Stage → Bool
  | calling (.attach _ phase) => Attach.pastCheck phase
  | _ => false

namespace Machine

variable {κ : Type u} {ι : Type v}

def Unsigned (m : Machine κ ι) (id : SegmentId) : Prop :=
  ∃ i a phase, m.stage i = .calling (.attach a phase) ∧
    Attach.Makes m.kernel a.config.segment id phase

def Live (m : Machine κ ι) (id : SegmentId) : Prop :=
  m.Unsigned id ∨ ∃ home, (m.kernel.header id).owner = (m.process home).pid

def Taken (m : Machine κ ι) (name : SegmentName) : Prop :=
  ∃ id, m.kernel.names.get? name = some id ∧ m.Live id

/-- The call is about to retire a living process's segment as a leftover, or to remove its name. -/
def Threatens (m : Machine κ ι) (a : Attach) : Attach.Phase → Prop
  | .retireLeftover mapping => m.Live mapping.segment ∨ m.Taken a.config.segment
  | .removeLeftover => m.Taken a.config.segment
  | _ => False

def Exposed (m : Machine κ ι) : Prop :=
  ∃ i a phase, m.stage i = .calling (.attach a phase) ∧ m.Threatens a phase

/-- The access removes the name of a living process's segment as a leftover's, or retires it. -/
inductive Harms (m next : Machine κ ι) : Option (Access ι) → Prop
  | retires {i : ι} {a : Attach} {mapping : Mapping} (hlive : m.Live mapping.segment)
      (h : (next.kernel.header mapping.segment).state = Header.retiredMark) :
      Harms m next (some ⟨i, .attach a (.retireLeftover mapping)⟩)
  | removes {i : ι} {a : Attach} (htaken : m.Taken a.config.segment)
      (h : next.kernel.names.get? a.config.segment = none) :
      Harms m next (some ⟨i, .attach a .removeLeftover⟩)

/-- The windows: a check is passed by a segment that its leader has not signed yet, or while the
name is bound to another one, of a living process; or a segment is created under the name while a
reclaim of the name is past its check. -/
inductive Slips (m next : Machine κ ι) : Option (Access ι) → Prop
  | short {i : ι} {a : Attach} {id : SegmentId}
      (hshort : m.kernel.segmentLength id < Page.headerLength)
      (htaken : m.Taken a.config.segment) :
      Slips m next (some ⟨i, .attach a (.measureLeftover id)⟩)
  | orphan {i : ι} {a : Attach} {mapping : Mapping}
      (horphan : m.kernel.ownerAlive mapping.segment = false)
      (h : m.Unsigned mapping.segment ∨ m.Taken a.config.segment) :
      Slips m next (some ⟨i, .attach a (.checkLeftover mapping)⟩)
  | overtaken {i j : ι} {a b : Attach} {phase : Attach.Phase} {id : SegmentId}
      (hcreated : m.kernel.Created a.config.segment id next.kernel)
      (hpast : m.stage j = .calling (.attach b phase)) (hphase : Attach.pastCheck phase = true)
      (hname : b.config.segment = a.config.segment) :
      Slips m next (some ⟨i, .attach a .create⟩)

section

variable {m next : Machine κ ι} {roster : ι → Member κ}

/-- Where no call is past its check, nothing is exposed. -/
theorem not_exposed_of_pastCheck (h : ∀ i, (m.stage i).pastCheck = false) : ¬ m.Exposed := by
  intro hexposed
  obtain ⟨i, a, phase, hstage, hthreatens⟩ := hexposed
  have hpast := h i
  rw [hstage] at hpast
  cases phase with
  | retireLeftover | removeLeftover => cases hpast
  | _ => exact hthreatens

/-- What is ruled is a living process's. -/
theorem Ruled.live (h : m.Ruled roster) (hsound : m.Sound roster) {i : ι}
    (hi : m.RulesName roster i) {id : SegmentId}
    (hbound : m.kernel.names.get? (roster i).config.segment = some id) : m.Live id := by
  obtain ⟨hrole, hstage⟩ := hi
  have hsuits := hsound.suits i
  have hrules := h.rules i hrole
  cases hs : m.stage i with
  | idle | halted =>
    rw [hs] at hstage
    cases hstage
  | holding block =>
    rw [hs] at hsuits hrules
    obtain ⟨mapping, hmapping⟩ := hsuits
    have hdeed := hrules mapping hmapping
    obtain rfl := Option.some.inj (hdeed.1.symm.trans hbound)
    exact Or.inr ⟨(roster i).home, hdeed.owner_eq⟩
  | calling c =>
    rw [hs] at hsuits hrules hstage
    cases c with
    | attach a phase =>
      obtain ⟨hconfig, hsuits⟩ := hsuits
      rw [← hconfig] at hbound
      cases phase with
      | resize | map | claim =>
        obtain rfl := Option.some.inj (hrules.1.symm.trans hbound)
        exact Or.inl ⟨i, a, _, hs, rfl⟩
      | discard => exact Or.inl ⟨i, a, _, hs, hbound⟩
      | register | undo | publishBytes | publishJoined | publishLive | publishState | finish =>
        obtain rfl := Option.some.inj (hrules.1.symm.trans hbound)
        exact Or.inr ⟨(roster i).home, hrules.owner_eq⟩
      | _ => cases hstage
    | detach d phase =>
      obtain ⟨hconfig, hsuits, hblock⟩ := hsuits
      rw [← hconfig] at hbound
      cases phase with
      | unregister =>
        obtain ⟨mapping, hmapping⟩ := hblock rfl
        have hdeed := hrules mapping hmapping
        obtain rfl := Option.some.inj (hdeed.1.symm.trans hbound)
        exact Or.inr ⟨(roster i).home, hdeed.owner_eq⟩
      | leave | close => cases hstage
      | gather | readJoined | readLive | missed | pause | retire | unlink =>
        obtain rfl := Option.some.inj (hrules.1.symm.trans hbound)
        exact Or.inr ⟨(roster i).home, hrules.owner_eq⟩

/-- Where nothing is exposed, every access spares what is ruled. -/
theorem Ruled.spares [DecidableEq κ] [DecidableEq ι] (h : m.Ruled roster)
    (hsound : m.Sound roster) (hquiet : ¬ m.Exposed) {access : Option (Access ι)}
    (hstep : Step roster m access next) : m.Spares roster access := by
  intro i hi j a
  constructor
  · rintro mapping rfl hbound
    cases hstep with
    | access _ _ hcalling =>
      exact hquiet ⟨j, a, _, hcalling, Or.inl (h.live hsound hi hbound)⟩
  · rintro rfl hname
    cases hstep with
    | access _ _ hcalling =>
      obtain ⟨id, hbound⟩ := h.bound hsound hi
      exact hquiet ⟨j, a, _, hcalling, id, hname ▸ hbound, h.live hsound hi hbound⟩

/-- Who makes a segment rules the name that it is bound to. -/
theorem Unsigned.bound {id : SegmentId} (h : m.Unsigned id) (hsound : m.Sound roster)
    (hruled : m.Ruled roster) : ∃ i, m.RulesName roster i ∧
      m.kernel.names.get? (roster i).config.segment = some id := by
  obtain ⟨i, a, phase, hstage, hmakes⟩ := h
  have hsuits := hsound.suits i
  have hrules := hruled.rules i
  rw [hstage] at hsuits hrules
  obtain ⟨hconfig, hsuits⟩ := hsuits
  refine ⟨i, ?_⟩
  rw [RulesName, hstage, ← hconfig]
  rw [← hconfig] at hrules
  cases phase with
  | resize | map =>
    cases hmakes
    exact ⟨⟨hsuits, rfl⟩, (hrules hsuits).1⟩
  | claim =>
    cases hmakes
    exact ⟨⟨hsuits.1, rfl⟩, (hrules hsuits.1).1⟩
  | discard => exact ⟨⟨hsuits, rfl⟩, hmakes⟩
  | _ => cases hmakes

variable [DecidableEq κ] [DecidableEq ι] {access : Option (Access ι)}

/-- Who rules after a step ruled before, or has created its segment. -/
theorem rulesName_before (hsound : m.Sound roster) (hstep : Step roster m access next) {i : ι}
    (hi : next.RulesName roster i) :
    m.RulesName roster i ∨ ∃ a id, access = some ⟨i, .attach a .create⟩ ∧
      m.kernel.Created (roster i).config.segment id next.kernel := by
  obtain ⟨hrole, hstage⟩ := hi
  rcases stage_cases hstep i with
    h | ⟨-, a, phase, hfirst, h⟩ | ⟨d, hholding, -⟩ | ⟨c, rfl, -, -⟩
  · exact Or.inl ⟨hrole, h ▸ hstage⟩
  · rw [h] at hstage
    cases hfirst <;> cases hstage
  · exact Or.inl ⟨hrole, by rw [hholding]; rfl⟩
  · cases hstep with
    | access _ _ hcalling =>
      rcases rulesName_settle hsound hcalling ⟨hrole, hstage⟩ with hi | ⟨-, a, id, rfl, hcreated⟩
      · exact Or.inl hi
      · exact Or.inr ⟨a, id, rfl, hcreated⟩

/-- Who an access's segment belongs to stays on record, unless its leader acts on it. -/
theorem owner_before (hsound : m.Sound roster) (hruled : m.Ruled roster)
    (hstep : Step roster m access next) (id : SegmentId) :
    (next.kernel.header id).owner = (m.kernel.header id).owner ∨
      ∃ i, m.RulesName roster i ∧
        m.kernel.names.get? (roster i).config.segment = some id := by
  cases hstep with
  | allocate j bytes hidle =>
    rw [settle, Member.beginAllocate_site]
    exact Or.inl rfl
  | access j c hcalling =>
    have hsuits := hsound.suits j
    rw [hcalling] at hsuits
    by_cases hwritten : c.written? = some id
    · rcases Call.written_cases hsuits hwritten with ⟨a, mapping, rfl, rfl⟩ | ⟨hrole, hj, hbound⟩
      · have hlt := hsound.known j mapping.segment (by rw [segment?, hcalling]; rfl)
        left
        show ((m.kernel.modifyHeader mapping.segment .retire).header mapping.segment).owner = _
        rw [Kernel.header_modifyHeader hlt, if_pos rfl]
        rfl
      · have hrules := hruled.rules j hrole
        rw [hcalling] at hrules
        exact Or.inr ⟨j, ⟨hrole, by rw [hcalling]; exact hj⟩, hbound hrules⟩
    · exact Or.inl (congrArg Record.owner (c.record_step (m.site (roster j).home) hwritten))
  | release | elapse | populate | move => exact Or.inl rfl

/-- What is a living process's after a step was so before, or has been created. -/
theorem live_before (hsound : m.Sound roster) (hruled : m.Ruled roster)
    (hnext : next.Ruled roster) (hstep : Step roster m access next) (id : SegmentId)
    (hlive : next.Live id) :
    m.Live id ∨ ∃ i a, access = some ⟨i, .attach a .create⟩ ∧
      m.kernel.Created a.config.segment id next.kernel := by
  rcases hlive with hunsigned | ⟨home, howner⟩
  · obtain ⟨i, hi, hbound⟩ := hunsigned.bound (sound_step hsound hstep) hnext
    rcases names_before hstep hbound with hbefore | ⟨j, a, haccess, hname, hcreated⟩
    · rcases rulesName_before hsound hstep hi with hi' | ⟨_, _, -, hcreated⟩
      · exact Or.inl (hruled.live hsound hi' hbefore)
      · cases hcreated.unbound.symm.trans hbefore
    · exact Or.inr ⟨j, a, haccess, hname ▸ hcreated⟩
  · rcases owner_before hsound hruled hstep id with hsame | ⟨i, hi, hbound⟩
    · exact Or.inl (Or.inr ⟨home, by rw [← hsame, howner, pid_step hstep home]⟩)
    · exact Or.inl (hruled.live hsound hi hbound)

end

end Machine

/-! ### Checks passed -/

theorem Attach.Transition.pastCheck_cases {a : Attach} {phase phase' : Attach.Phase} {s t : Site}
    (h : Attach.Transition a phase s (.running phase') t)
    (hpast : Attach.pastCheck phase' = true) :
    (∃ id, phase = .measureLeftover id ∧ phase' = .removeLeftover ∧
      s.kernel.segmentLength id < Page.headerLength) ∨
    (∃ m, phase = .checkLeftover m ∧ phase' = .retireLeftover m ∧
      s.kernel.ownerAlive m.segment = false) ∨
    ∃ m, phase = .retireLeftover m ∧ phase' = .removeLeftover := by
  cases h with
  | leftoverShort h => exact Or.inl ⟨_, rfl, rfl, h⟩
  | leftoverOrphaned h => exact Or.inr (Or.inl ⟨_, rfl, rfl, h⟩)
  | leftoverRetired => exact Or.inr (Or.inr ⟨_, rfl, rfl⟩)
  | registered => split at hpast <;> cases hpast
  | _ => cases hpast

namespace Machine

variable {κ : Type u} {ι : Type v} [DecidableEq κ] [DecidableEq ι] {m next : Machine κ ι}
  {roster : ι → Member κ} {access : Option (Access ι)}

/-- A call past its check was so before the step, or the step passed the check or retired what it
took for a leftover. -/
theorem pastCheck_before (hstep : Step roster m access next) {i : ι} {a : Attach}
    {phase : Attach.Phase} (hstage : next.stage i = .calling (.attach a phase))
    (hpast : Attach.pastCheck phase = true) :
    m.stage i = .calling (.attach a phase) ∨
    (∃ id, access = some ⟨i, .attach a (.measureLeftover id)⟩ ∧ phase = .removeLeftover ∧
      m.kernel.segmentLength id < Page.headerLength) ∨
    (∃ mapping, access = some ⟨i, .attach a (.checkLeftover mapping)⟩ ∧
      phase = .retireLeftover mapping ∧ m.kernel.ownerAlive mapping.segment = false) ∨
    ∃ mapping, access = some ⟨i, .attach a (.retireLeftover mapping)⟩ ∧
      phase = .removeLeftover := by
  cases origin_of_step hstep hstage with
  | stayed h => exact Or.inl h
  | allocates _ hfirst => cases hfirst <;> cases hpast
  | steps haccess hcalling h =>
    obtain ⟨before, rfl, ht⟩ := Call.attach_of_step h
    rcases ht.pastCheck_cases hpast with ⟨id, rfl, rfl, hshort⟩ | ⟨mapping, rfl, rfl, horphan⟩ |
      ⟨mapping, rfl, rfl⟩
    · exact Or.inr (Or.inl ⟨id, haccess, rfl, hshort⟩)
    · exact Or.inr (Or.inr (Or.inl ⟨mapping, haccess, rfl, horphan⟩))
    · exact Or.inr (Or.inr (Or.inr ⟨mapping, haccess, rfl⟩))

/-- A name that is a living process's after a step was so before, or has been created. -/
theorem taken_before (hsound : m.Sound roster) (hruled : m.Ruled roster)
    (hnext : next.Ruled roster) (hstep : Step roster m access next) (name : SegmentName)
    (htaken : next.Taken name) :
    m.Taken name ∨ ∃ i a id, access = some ⟨i, .attach a .create⟩ ∧ a.config.segment = name ∧
      m.kernel.Created name id next.kernel := by
  obtain ⟨id, hbound, hlive⟩ := htaken
  rcases names_before hstep hbound with hbefore | ⟨i, a, haccess, hname, hcreated⟩
  · rcases live_before hsound hruled hnext hstep id hlive with hlive | ⟨_, _, -, hcreated⟩
    · exact Or.inl ⟨id, hbefore, hlive⟩
    · exact absurd hbefore (hcreated.get?_names_ne name)
  · exact Or.inr ⟨i, a, id, haccess, hname, hcreated⟩

/-- Where nothing was exposed, something is exposed through one of the windows only. -/
theorem slips_of_exposed (hsound : m.Sound roster) (hruled : m.Ruled roster) (halive : m.Alive)
    (hquiet : ¬ m.Exposed) (hstep : Step roster m access next) (hexposed : next.Exposed) :
    m.Slips next access := by
  have hnext := hruled.step hsound (hruled.spares hsound hquiet hstep) hstep
  have hlive := live_before hsound hruled hnext hstep
  have htaken := taken_before hsound hruled hnext hstep
  obtain ⟨i, a, phase, hstage, hthreatens⟩ := hexposed
  have hpast : Attach.pastCheck phase = true := by
    cases phase <;> first | rfl | cases hthreatens
  rcases pastCheck_before hstep hstage hpast with hsame | ⟨id, rfl, rfl, hshort⟩ |
    ⟨mapping, rfl, rfl, horphan⟩ | ⟨mapping, rfl, rfl⟩
  -- The call was past its check already: what it threatens now was created under its name.
  · have hovertaken : next.Taken a.config.segment → ¬ m.Taken a.config.segment →
        m.Slips next access := by
      intro hafter hbefore
      rcases htaken _ hafter with h | ⟨j, b, id, rfl, hname, hcreated⟩
      · exact absurd h hbefore
      · exact .overtaken (hname ▸ hcreated) hsame hpast hname.symm
    cases phase with
    | retireLeftover mapping =>
      have hnot := fun h => hquiet ⟨i, a, _, hsame, h⟩
      rcases hthreatens with hafter | hafter
      · rcases hlive _ hafter with h | ⟨j, b, -, hcreated⟩
        · exact absurd (Or.inl h) hnot
        · have hlt := hsound.known i mapping.segment (by rw [segment?, hsame]; rfl)
          exact absurd hlt (Nat.not_lt.mpr hcreated.length_le)
      · exact hovertaken hafter fun h => hnot (Or.inr h)
    | removeLeftover => exact hovertaken hthreatens fun h => hquiet ⟨i, a, _, hsame, h⟩
    | _ => cases hthreatens
  · rcases htaken _ hthreatens with h | ⟨_, _, _, haccess, -⟩
    · exact .short hshort h
    · cases haccess
  · refine .orphan horphan ?_
    rcases hthreatens with hafter | hafter
    · rcases hlive _ hafter with (h | ⟨home, howner⟩) | ⟨_, _, haccess, -⟩
      · exact Or.inl h
      · rw [Kernel.ownerAlive, howner, halive home] at horphan
        cases horphan
      · cases haccess
    · rcases htaken _ hafter with h | ⟨_, _, _, haccess, -⟩
      · exact Or.inr h
      · cases haccess
  · rcases htaken _ hthreatens with h | ⟨_, _, _, haccess, -⟩
    · exact absurd ⟨i, a, _, stage_of_step hstep, Or.inr h⟩ hquiet
    · cases haccess

/-- What is a living process's stays so while the member that acts makes no segment. -/
theorem live_settle {i : ι} {result : Progress Call Reply × Site}
    (hpid : result.2.process.pid = (m.process (roster i).home).pid)
    (hidle : ∀ a phase, m.stage i = .calling (.attach a phase) →
      ∀ id, ¬ Attach.Makes m.kernel a.config.segment id phase)
    (hnames : ∀ name id, m.kernel.names.get? name = some id →
      result.2.kernel.names.get? name = some id)
    (howner : ∀ id, (result.2.kernel.header id).owner = (m.kernel.header id).owner)
    {id : SegmentId} (hlive : m.Live id) : (m.settle roster i result).Live id := by
  rcases hlive with ⟨j, a, phase, hstage, hmakes⟩ | ⟨home, hhome⟩
  · have hji : j ≠ i := by
      rintro rfl
      exact hidle a phase hstage id hmakes
    refine Or.inl ⟨j, a, phase, (stage_settle_of_ne hji result).trans hstage, ?_⟩
    cases phase with
    | discard => exact hnames _ _ hmakes
    | resize | map | claim => exact hmakes
    | _ => cases hmakes
  · exact Or.inr ⟨home, (howner id).trans (hhome.trans (pid_settle hpid home).symm)⟩

/-- Through each of the windows something is exposed. -/
theorem exposed_of_slips (hstep : Step roster m access next) (hslips : m.Slips next access) :
    next.Exposed := by
  cases hslips with
  | @short i a id hshort htaken =>
    cases hstep with
    | access _ _ hcalling =>
      have hnext : (Call.attach a (.measureLeftover id)).step (m.site (roster i).home) =
          (.running (.attach a .removeLeftover), m.site (roster i).home) := by
        have hlength : (m.site (roster i).home).kernel.segmentLength id < Page.headerLength :=
          hshort
        simp [Call.step, Call.ofAttach, Attach.step, Attach.stepLeftover, hlength, Progress.map]
      rw [hnext]
      obtain ⟨held, hbound, hlive⟩ := htaken
      refine ⟨i, a, .removeLeftover, by rw [stage_settle_self]; rfl, held, hbound, ?_⟩
      refine live_settle rfl ?_ (fun _ _ h => h) (fun _ => rfl) hlive
      intro b phase hb
      rw [hcalling] at hb
      cases hb
      exact fun _ h => h
  | @orphan i a mapping horphan h =>
    cases hstep with
    | access _ _ hcalling =>
      have hnext : (Call.attach a (.checkLeftover mapping)).step (m.site (roster i).home) =
          (.running (.attach a (.retireLeftover mapping)), m.site (roster i).home) := by
        have howner : (m.site (roster i).home).kernel.ownerAlive mapping.segment = false := horphan
        simp [Call.step, Call.ofAttach, Attach.step, Attach.stepLeftover, howner, Progress.map]
      rw [hnext]
      have hlive : ∀ id, m.Live id → (m.settle roster i (.running (.attach a
          (.retireLeftover mapping)), m.site (roster i).home)).Live id := fun id =>
        live_settle rfl (fun b phase hb => by rw [hcalling] at hb; cases hb; exact fun _ h => h)
          (fun _ _ h => h) fun _ => rfl
      refine ⟨i, a, .retireLeftover mapping, by rw [stage_settle_self]; rfl, ?_⟩
      rcases h with hunsigned | ⟨held, hbound, hheld⟩
      · exact Or.inl (hlive _ (Or.inl hunsigned))
      · exact Or.inr ⟨held, hbound, hlive _ hheld⟩
  | @overtaken i j a b phase id hcreated hpast hphase hname =>
    cases hstep with
    | access _ _ hcalling =>
      have hji : j ≠ i := by
        rintro rfl
        rw [hcalling] at hpast
        cases hpast
        cases hphase
      have hbound := hcreated.names_eq a.config.segment
      rw [if_pos rfl] at hbound
      have htaken : (m.settle roster i ((Call.attach a .create).step
          (m.site (roster i).home))).Taken b.config.segment := by
        rw [hname]
        refine ⟨id, hbound, Or.inl ⟨i, a, .resize id, ?_, rfl⟩⟩
        rw [stage_settle_self]
        cases (Call.attach a .create).names_step (m.site (roster i).home) with
        | keeps hnames =>
          have hsame := (hnames a.config.segment).symm.trans hbound
          cases hcreated.unbound.symm.trans hsame
        | unbinds hc => cases hc
        | @binds a' new hc hnext hnew =>
          cases hc
          have hid : new = id := hnew.id_eq.trans hcreated.id_eq.symm
          rw [hnext, hid]
          rfl
      refine ⟨j, b, phase, (stage_settle_of_ne hji _).trans hpast, ?_⟩
      cases phase with
      | retireLeftover mapping => exact Or.inr htaken
      | removeLeftover => exact htaken
      | _ => cases hphase

/-- One of the next two accesses of the member does harm, if nobody else acts before. -/
def HarmsSoon (m : Machine κ ι) (roster : ι → Member κ) (i : ι) : Prop :=
  ∃ c next, Step roster m (some ⟨i, c⟩) next ∧ (m.Harms next (some ⟨i, c⟩) ∨
    ∃ c' last, Step roster next (some ⟨i, c'⟩) last ∧ next.Harms last (some ⟨i, c'⟩))

theorem harms_of_taken (roster : ι → Member κ) {i : ι} {a : Attach}
    (hcalling : m.stage i = .calling (.attach a .removeLeftover))
    (htaken : m.Taken a.config.segment) : ∃ next,
      Step roster m (some ⟨i, .attach a .removeLeftover⟩) next ∧
      m.Harms next (some ⟨i, .attach a .removeLeftover⟩) := by
  refine ⟨_, .access i _ hcalling, .removes htaken ?_⟩
  obtain ⟨id, hbound, -⟩ := htaken
  have hsite : (m.site (roster i).home).kernel.names.get? a.config.segment = some id := hbound
  simp [settle, Call.step, Call.ofAttach, Attach.step, Attach.stepLeftover,
    Site.unlink_of_bound hsite, Site.unbind, Kernel.get?_names_unbind]

/-- Whoever threatens a living process's segment is about to harm it. -/
theorem harmsSoon_of_exposed (hsound : m.Sound roster) (hexposed : m.Exposed) :
    ∃ i, m.HarmsSoon roster i := by
  obtain ⟨i, a, phase, hstage, hthreatens⟩ := hexposed
  refine ⟨i, ?_⟩
  cases phase with
  | removeLeftover =>
    obtain ⟨next, hstep, hharms⟩ := harms_of_taken roster hstage hthreatens
    exact ⟨_, next, hstep, Or.inl hharms⟩
  | retireLeftover mapping =>
    have hlt := hsound.known i mapping.segment (by rw [segment?, hstage]; rfl)
    refine ⟨_, _, .access i _ hstage, ?_⟩
    have hheader : ∀ id, ((m.kernel.modifyHeader mapping.segment .retire).header id) =
        if id = mapping.segment then (m.kernel.header id).retire else m.kernel.header id :=
      fun id => Kernel.header_modifyHeader hlt id _
    rcases hthreatens with hlive | htaken
    · refine Or.inl (.retires hlive ?_)
      show ((m.kernel.modifyHeader mapping.segment .retire).header mapping.segment).state = _
      rw [hheader, if_pos rfl]
      rfl
    · obtain ⟨held, hbound, hlive⟩ := htaken
      have hafter : (m.settle roster i ((Call.attach a (.retireLeftover mapping)).step
          (m.site (roster i).home))).Live held := live_settle (Call.pid_step _ _)
        (fun b phase hb => by rw [hstage] at hb; cases hb; exact fun _ h => h)
        (fun _ _ h => h)
        (fun id => by
          show ((m.kernel.modifyHeader mapping.segment .retire).header id).owner = _
          rw [hheader]
          split <;> rfl)
        hlive
      obtain ⟨last, hstep, hharms⟩ := harms_of_taken roster
        (m := m.settle roster i ((Call.attach a (.retireLeftover mapping)).step
          (m.site (roster i).home)))
        (by rw [stage_settle_self]; rfl) ⟨held, hbound, hafter⟩
      exact Or.inr ⟨_, last, hstep, hharms⟩
  | _ => cases hthreatens

/-- Whoever changes the record of a segment that is not a leftover's finds it unretired. -/
theorem retired_stays (hsound : m.Sound roster) (hruled : m.Ruled roster)
    (hstep : Step roster m access next) {id : SegmentId}
    (hretired : (m.kernel.header id).state = Header.retiredMark) :
    (next.kernel.header id).state ≠ Header.readyMark := by
  have hsame : ∀ {k : Kernel}, (k.header id).state = (m.kernel.header id).state →
      (k.header id).state ≠ Header.readyMark := by
    intro k heq
    rw [heq, hretired]
    exact Ne.symm Header.readyMark_ne_retiredMark
  cases hstep with
  | allocate j bytes hidle =>
    rw [settle, Member.beginAllocate_site]
    exact hsame rfl
  | access j c hcalling =>
    by_cases hwritten : c.written? = some id
    · have hsuits := hsound.suits j
      have hrules := hruled.rules j
      have hknown := hsound.known j id
      rw [segment?, hcalling] at hknown
      rw [hcalling] at hsuits hrules
      have hretire : ∀ {mapping : Mapping}, mapping.segment = id → id < m.kernel.segments.length →
          ((m.kernel.modifyHeader mapping.segment .retire).header id).state ≠
            Header.readyMark := by
        rintro mapping rfl hlt
        rw [Kernel.header_modifyHeader hlt, if_pos rfl]
        exact Ne.symm Header.readyMark_ne_retiredMark
      cases c with
      | attach a phase =>
        obtain ⟨hconfig, hsuits⟩ := hsuits
        rw [← hconfig] at hrules
        cases phase with
        | retireLeftover mapping =>
          have hid : mapping.segment = id := Option.some.inj hwritten
          exact hretire hid (hknown (by rw [← hid]; rfl))
        | resize =>
          cases hwritten
          cases hretired.symm.trans (hrules hsuits).state_eq
        | claim | publishBytes | publishJoined | publishLive | publishState =>
          cases hwritten
          cases hretired.symm.trans (hrules hsuits.1).state_eq
        | _ => cases hwritten
      | detach d phase =>
        cases phase with
        | retire mapping =>
          have hid : mapping.segment = id := Option.some.inj hwritten
          exact hretire hid (hknown (by rw [← hid]; rfl))
        | _ => cases hwritten
    · exact hsame (congrArg Record.state (c.record_step (m.site (roster j).home) hwritten))
  | release | elapse | populate | move => exact hsame rfl

theorem ruled_of_run {m₀ : Machine κ ι} {history : List (Access ι)}
    (hrun : Run roster (fun m => m.Alive ∧ ¬ m.Exposed) m₀ history m)
    (hidle : ∀ i, m₀.stage i = .idle) : m.Ruled roster := by
  induction hrun with
  | start => exact ruled_of_idle hidle
  | @step _ m _ _ hbefore hstep _ ih =>
    have hsound := sound_of_run hbefore hidle
    exact ih.step hsound (ih.spares hsound hbefore.allowed.2 hstep) hstep

/-- As long as nothing of a living process is exposed, whatever the order of the accesses: every
leader that holds a block has it published under its name, no access harms a living process's
segment, and what is retired is not published again. The first state in which something is exposed
is reached through one of the windows, through each of them one is reached, and harm is at most two
accesses away from there. -/
theorem reclaim_exact {m₀ : Machine κ ι} (hidle : ∀ i, m₀.stage i = .idle)
    {history : List (Access ι)}
    (hrun : Run roster (fun m => m.Alive ∧ ¬ m.Exposed) m₀ history m) :
    (∀ i block, (roster i).config.isLeader = true → m.stage i = .holding block →
      ∃ mapping, (m.site (roster i).home).mappingOf? block = some mapping ∧
        block.Published (roster i).config.segment (m.site (roster i).home) mapping) ∧
    ∀ access next, Step roster m access next →
      ¬ m.Harms next access ∧
      (∀ id, (m.kernel.header id).state = Header.retiredMark →
        (next.kernel.header id).state ≠ Header.readyMark) ∧
      (next.Exposed ↔ m.Slips next access) ∧
      (next.Exposed → ∃ i, next.HarmsSoon roster i) := by
  have hsound := sound_of_run hrun hidle
  have hruled := ruled_of_run hrun hidle
  obtain ⟨halive, hquiet⟩ := hrun.allowed
  refine ⟨?_, fun access next hstep => ⟨?_, ?_, ?_, ?_⟩⟩
  · intro i block hrole hholding
    have hsuits := hsound.suits i
    have hrules := hruled.rules i hrole
    rw [hholding] at hsuits hrules
    obtain ⟨mapping, hmapping⟩ := hsuits
    exact ⟨mapping, hmapping, hrules mapping hmapping⟩
  · intro hharms
    cases hharms with
    | @retires i a mapping hlive =>
      exact hquiet ⟨i, a, _, stage_of_step hstep, Or.inl hlive⟩
    | @removes i a htaken => exact hquiet ⟨i, a, _, stage_of_step hstep, htaken⟩
  · exact fun id => retired_stays hsound hruled hstep
  · exact ⟨slips_of_exposed hsound hruled halive hquiet hstep, exposed_of_slips hstep⟩
  · exact harmsSoon_of_exposed (sound_step hsound hstep)

def rivals (reclaims : Bool) : Member Bool :=
  sample reclaims fun config => { config with reclaimStale := reclaims }

/-- A leader that looks for leftovers finds the other's segment claimed, and leaves it alone. -/
theorem reclaim_exact_refused : ∃ (history : List (Access Bool)) (m : Machine Bool Bool)
    (block : Block) (mapping : Mapping), (history.map fun x => x.member).take 4 =
        [true, true, true, true] ∧ m.stage false = .holding block ∧
      block.Published (rivals false).config.segment (m.site false) mapping := by
  obtain ⟨⟨history, m⟩, hplay, hreached⟩ := Option.map_eq_some_iff.mp
    (by decide +kernel :
      (play rivals (fun m => m.Alive ∧ ∀ i, (m.stage i).pastCheck = false)
        (.allocate false 4096 :: List.replicate 10 (.access false) ++
          .allocate true 4096 :: List.replicate 4 (.access true))
        ([], fresh (fun reclaims => if reclaims then 2 else 1) [1, 2])).map (fun reached =>
          ((reached.1.map fun x => x.member).take 4, (reached.2.stage false).block?.isSome)) =
      some ([true, true, true, true], true))
  obtain ⟨hmembers, hblock⟩ : (history.map fun x => x.member).take 4 = [true, true, true, true] ∧
      (m.stage false).block?.isSome := by simpa using hreached
  obtain ⟨block, hblock⟩ := Option.isSome_iff_exists.mp hblock
  have hholding := Stage.eq_holding_of_block?_eq_some hblock
  have hrun := run_of_play (.start (by decide +kernel)) _ hplay
  obtain ⟨mapping, -, hpublished⟩ := (reclaim_exact (fun _ => rfl)
    (hrun.mono fun _ h => ⟨h.1, not_exposed_of_pastCheck h.2⟩)).1 false block rfl hholding
  exact ⟨history, m, block, mapping, hmembers, hholding, hpublished⟩

/-- A leader has mapped its segment and is about to claim it when the other takes the segment for a
leftover: a retired segment is published, and the leader's block is of a segment without a name. -/
theorem reclaim_harms_leader : ∃ (history later : List (Access Bool)) (m last : Machine Bool Bool)
    (block : Block) (mapping : Mapping),
    Run rivals Alive (fresh (fun reclaims => if reclaims then 2 else 1) [1, 2]) history m ∧
      (m.kernel.header mapping.segment).state = Header.retiredMark ∧
      Run rivals Alive m later last ∧
      (last.kernel.header mapping.segment).state = Header.readyMark ∧
      last.stage false = .holding block ∧ (last.site false).mappingOf? block = some mapping ∧
      last.kernel.names.get? (rivals false).config.segment = none := by
  obtain ⟨⟨history, m⟩, hplay, hreached⟩ := Option.map_eq_some_iff.mp
    (by decide +kernel :
      (play rivals Alive
        (.allocate false 4096 :: List.replicate 3 (.access false) ++
          .allocate true 4096 :: List.replicate 6 (.access true))
        ([], fresh (fun reclaims => if reclaims then 2 else 1) [1, 2])).map (fun reached =>
          ((reached.2.kernel.header 0).state, ((play rivals Alive
            (List.replicate 7 (.access false)) ([], reached.2)).map fun last =>
            ((last.2.kernel.header 0).state,
              ((last.2.stage false).block?.bind (last.2.site false).mappingOf?).map
                Mapping.segment,
              last.2.kernel.names.get? (rivals false).config.segment)))) =
      some (Header.retiredMark, some (Header.readyMark, some 0, none)))
  obtain ⟨hretired, hlater⟩ := Prod.mk.inj hreached
  obtain ⟨⟨later, last⟩, hplay', hlast⟩ := Option.map_eq_some_iff.mp hlater
  obtain ⟨hready, hlast⟩ := Prod.mk.inj hlast
  obtain ⟨hheld, hname⟩ := Prod.mk.inj hlast
  obtain ⟨mapping, hmapping, hsegment⟩ := Option.map_eq_some_iff.mp hheld
  obtain ⟨block, hblock, hmapping⟩ := Option.bind_eq_some_iff.mp hmapping
  have hrun := run_of_play (.start (by decide +kernel)) _ hplay
  rw [← hsegment] at hretired hready
  exact ⟨history, later, m, last, block, mapping, hrun, hretired,
    run_of_play (.start hrun.allowed) _ hplay', hready,
    Stage.eq_holding_of_block?_eq_some hblock, hmapping, hname⟩

end Machine
end StagingMemory
