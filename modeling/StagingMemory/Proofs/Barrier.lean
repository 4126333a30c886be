import Mathlib.Data.Fintype.Card
import StagingMemory.Proofs.Ledger
/-!
The leader of a group of known size that waits before it retires the segment. It reads how many have
joined first, and how many are attached second; a follower raises the second count before the first.
So when the leader has seen all of them joined and nobody else attached, every follower has joined
and has left again, and none can be attached any more (`Machine.barrier_sound`). The counts do not
wrap, since each follower stands in the live count at most once.
-/
namespace StagingMemory

/-! ### What the leader reads -/

namespace Detach.Transition

variable {d : Detach} {phase : Phase} {s t : Site} {progress : Progress Phase Unit}

/-- Before it reads how many are attached, the leader has read how many have joined. -/
theorem before_readLive (h : Transition d phase s progress t) {w : Wait} {m : Mapping}
    {joined : UInt32} (hp : progress = .running (.readLive w m joined)) :
    phase = .readJoined w m ∧ joined = (s.header m).joined := by
  cases h with
  | joinedRead =>
    cases hp
    exact ⟨rfl, rfl⟩
  | unregistered => split at hp <;> cases hp
  | _ => cases hp

/-- The leader retires the segment without complaint if it does not wait at all, or has seen
everybody joined and nobody else attached. -/
theorem before_retire (h : Transition d phase s progress t) {m : Mapping}
    (hp : progress = .running (.retire m none)) (hwaits : d.config.teardownTimeout.isZero = false) :
    ∃ w joined, phase = .readLive w m joined ∧ (s.header m).live ≤ 1 ∧ d.expected ≤ joined ∧
      t = s := by
  cases h with
  | gathered hlive hjoined =>
    cases hp
    exact ⟨_, _, rfl, hlive, hjoined, rfl⟩
  | hurried hzero =>
    rw [hwaits] at hzero
    cases hzero
  | unregistered => split at hp <;> cases hp
  | _ => cases hp

end Detach.Transition

/-- The leader is about to retire its segment, and has nothing to complain of. -/
def Stage.retires? : Stage → Option Mapping
  | calling (.detach _ (.retire m none)) => some m
  | _ => none

theorem Stage.eq_calling_of_retires?_eq_some {stage : Stage} {m : Mapping}
    (h : stage.retires? = some m) : ∃ d, stage = .calling (.detach d (.retire m none)) := by
  unfold retires? at h
  split at h
  · cases h
    exact ⟨_, rfl⟩
  · cases h

/-! ### Entries of one member -/

section

variable {ι : Type v} [DecidableEq ι] {id : SegmentId}

def entriesBy (id : SegmentId) (i : ι) (mark : Mark) (history : List (Access ι)) : Nat :=
  history.countP fun access => access.member = i ∧ access.call.mark? id = some mark

theorem entriesBy_cons_self {i : ι} {c : Call} {history : List (Access ι)} {mark : Mark} :
    entriesBy id i mark (⟨i, c⟩ :: history) =
      enter (entriesBy id i · history) (c.mark? id) mark := by
  simp [entriesBy, enter, List.countP_cons]

theorem entriesBy_cons_of_ne {i j : ι} (h : j ≠ i) {c : Call} {history : List (Access ι)}
    {mark : Mark} : entriesBy id j mark (⟨i, c⟩ :: history) = entriesBy id j mark history := by
  simp [entriesBy, Ne.symm h]

theorem entriesBy_le_append (i : ι) (mark : Mark) (later earlier : List (Access ι)) :
    entriesBy id i mark earlier ≤ entriesBy id i mark (later ++ earlier) :=
  (List.sublist_append_right later earlier).countP_le

theorem sum_entriesBy [Fintype ι] (id : SegmentId) (mark : Mark) (history : List (Access ι)) :
    ∑ i, entriesBy id i mark history = entries id mark history := by
  induction history with
  | nil => simp [entriesBy, entries]
  | cons x rest ih =>
    obtain ⟨i, c⟩ := x
    have hmem := Finset.mem_univ i
    have hothers : ∑ j ∈ Finset.univ.erase i, entriesBy id j mark (⟨i, c⟩ :: rest) =
        ∑ j ∈ Finset.univ.erase i, entriesBy id j mark rest :=
      Finset.sum_congr rfl fun j hj => entriesBy_cons_of_ne (Finset.ne_of_mem_erase hj)
    have hbefore := Finset.add_sum_erase _ (fun j => entriesBy id j mark rest) hmem
    have hafter := Finset.add_sum_erase _ (fun j => entriesBy id j mark (⟨i, c⟩ :: rest)) hmem
    simp only [entriesBy_cons_self, enter] at hafter
    rw [entries_cons, enter]
    omega

/-- Each follower completes one join at most. Where the group is so large that the live count could
wrap, each also lowers it before it raises it again. -/
structure JoinsOnce [Fintype ι] (leader : ι) (id : SegmentId) (history : List (Access ι)) :
    Prop where
  once : ∀ i, i ≠ leader → entriesBy id i .join history ≤ 1
  turns : UInt32.size < 2 * Fintype.card ι → ∀ i, i ≠ leader → ∀ earlier, earlier <:+ history →
    entriesBy id i .raise earlier ≤ entriesBy id i .lower earlier + 1

theorem JoinsOnce.earlier [Fintype ι] {leader : ι} {later earlier : List (Access ι)}
    (h : JoinsOnce leader id (later ++ earlier)) : JoinsOnce leader id earlier where
  once i hi := Nat.le_trans (entriesBy_le_append i .join later earlier) (h.once i hi)
  turns hlarge i hi before hbefore :=
    h.turns hlarge i hi before (hbefore.trans (List.suffix_append _ _))

theorem JoinsOnce.tail [Fintype ι] {leader : ι} {access : Access ι} {earlier : List (Access ι)}
    (h : JoinsOnce leader id (access :: earlier)) : JoinsOnce leader id earlier :=
  JoinsOnce.earlier (show JoinsOnce leader id ([access] ++ earlier) from h)

/-- Who has joined once joins no more. -/
theorem JoinsOnce.no_more [Fintype ι] {leader : ι} {later earlier : List (Access ι)}
    (h : JoinsOnce leader id (later ++ earlier)) {i : ι} (hi : i ≠ leader)
    (hjoined : entriesBy id i .join earlier = 1) :
    ∀ x ∈ later, x.member = i → x.call.mark? id ≠ some .join := by
  have hsum : entriesBy id i .join (later ++ earlier) =
      entriesBy id i .join later + entriesBy id i .join earlier := List.countP_append
  have honce := h.once i hi
  have hnone : entriesBy id i .join later = 0 := by omega
  intro x hx hmember hmark
  exact List.countP_eq_zero.mp hnone x hx (by simp [hmember, hmark])

theorem sum_followers_le [Fintype ι] (leader : ι) {f g : ι → Nat} {k : Nat}
    (h : ∀ i, i ≠ leader → f i ≤ g i + k) :
    ∑ i ∈ Finset.univ.erase leader, f i ≤
      ∑ i ∈ Finset.univ.erase leader, g i + (Fintype.card ι - 1) * k := by
  have hcard : (Finset.univ.erase leader).card = Fintype.card ι - 1 :=
    Finset.card_erase_of_mem (Finset.mem_univ leader)
  calc ∑ i ∈ Finset.univ.erase leader, f i
      ≤ ∑ i ∈ Finset.univ.erase leader, (g i + k) :=
        Finset.sum_le_sum fun i hi => h i (Finset.ne_of_mem_erase hi)
    _ = ∑ i ∈ Finset.univ.erase leader, g i + (Fintype.card ι - 1) * k := by
        rw [Finset.sum_add_distrib, Finset.sum_const, hcard]
        rfl

end

namespace Machine

variable {κ : Type u} {ι : Type v} {m next : Machine κ ι} {roster : ι → Member κ} {leader : ι}
  {id : SegmentId}

/-! ### What the leader has read -/

section

variable {history : List (Access ι)}

def Tallied (m : Machine κ ι) (leader : ι) (id : SegmentId) (history : List (Access ι)) : Prop :=
  ∀ d w mapping joined, m.stage leader = .calling (.detach d (.readLive w mapping joined)) →
    mapping.segment = id → joined.toNat ≤ 1 + entries id .join history

/-- What the leader has seen when it goes on without complaint: nobody else attached, by the books
of that moment, if those that stand in the live count are not so many that it wraps. -/
theorem Ledgered.gathered (h : m.Ledgered roster leader id history) {d : Detach} {w : Wait}
    {mapping : Mapping} {joined : UInt32}
    (hcalling : m.stage leader = .calling (.detach d (.readLive w mapping joined)))
    (hid : mapping.segment = id) (hlive : (m.kernel.header id).live ≤ 1)
    (hlower : entries id .lower history ≤ entries id .raise history)
    (hfew : entries id .raise history + 1 < entries id .lower history + UInt32.size) :
    (m.kernel.header id).live = 1 ∧ entries id .raise history = entries id .lower history := by
  obtain ⟨hstate, hdepart⟩ := h.active hcalling rfl hid rfl
  have hbalance := h.ledger.live_eq hstate hdepart hlower hfew
  have hread : (m.kernel.header id).live.toNat ≤ 1 := UInt32.le_iff_toNat_le.mp hlive
  constructor
  · apply UInt32.toNat_inj.mp
    show (m.kernel.header id).live.toNat = 1
    omega
  · omega

/-- Before it goes on without complaint, a leader that waits has looked at both counts. -/
theorem looked_of_retires (hsound : m.Sound roster) {d : Detach} {phase : Detach.Phase}
    {mapping : Mapping} {t : Site} (hcalling : m.stage leader = .calling (.detach d phase))
    (hnext : d.Transition phase (m.site (roster leader).home) (.running (.retire mapping none)) t)
    (hwaits : (roster leader).config.teardownTimeout.isZero = false) :
    ∃ w joined, phase = .readLive w mapping joined ∧
      (m.kernel.header mapping.segment).live ≤ 1 ∧
      (roster leader).config.participants.getD 1 ≤ joined ∧ t = m.site (roster leader).home := by
  have hsuits := hsound.suits leader
  rw [hcalling] at hsuits
  have hconfig : d.config = (roster leader).config := hsuits.1
  obtain ⟨w, joined, rfl, hlive, hjoined, hsite⟩ := hnext.before_retire rfl (hconfig ▸ hwaits)
  rw [Detach.expected, hconfig] at hjoined
  exact ⟨w, joined, rfl, hlive, hjoined, hsite⟩

variable [DecidableEq κ] [DecidableEq ι]

theorem Tallied.step (h : m.Tallied leader id history)
    (hledgered : m.Ledgered roster leader id history) {access : Option (Access ι)}
    (hstep : Step roster m access next) : next.Tallied leader id (access.toList ++ history) := by
  intro d w mapping joined hcalling hid
  have hmono : entries id .join history ≤ entries id .join (access.toList ++ history) :=
    entries_le_append _ _
  refine Nat.le_trans ?_ (Nat.add_le_add_left hmono 1)
  generalize hc : Call.detach d (.readLive w mapping joined) = c at hcalling
  cases origin_of_step hstep hcalling with
  | stayed hbefore =>
    subst hc
    exact h d w mapping joined hbefore hid
  | allocates | releases => cases hc
  | steps _ hbefore hnext =>
    subst hc
    obtain ⟨phase, rfl, ht⟩ := Call.detach_of_step hnext
    obtain ⟨rfl, rfl⟩ := ht.before_readLive rfl
    obtain ⟨hstate, -⟩ := hledgered.active hbefore rfl hid rfl
    simp only [Site.header, site, hid]
    exact hledgered.ledger.joined_le hstate

theorem tallied_of_run {m₀ : Machine κ ι}
    (hone : ∀ i, (roster i).config.isLeader = true ↔ i = leader)
    (hidle : ∀ i, m₀.stage i = .idle) (hnew : m₀.kernel.segments.length ≤ id)
    (hrun : Run roster (fun _ => True) m₀ history m) : m.Tallied leader id history := by
  induction hrun with
  | start =>
    intro d w mapping joined hcalling
    rw [hidle leader] at hcalling
    cases hcalling
  | step hrun hstep _ ih => exact ih.step (ledgered_of_run hone hidle hnew hrun) hstep

end

/-! ### What the followers have entered -/

variable [DecidableEq ι] {history : List (Access ι)}

structure Accounted (m : Machine κ ι) (roster : ι → Member κ) (id : SegmentId)
    (history : List (Access ι)) (i : ι) : Prop where
  standing : (m.grade roster id i).stands.toNat + entriesBy id i .lower history ≤
    entriesBy id i .raise history
  raised : entriesBy id i .raise history ≤
    entriesBy id i .lower history + entriesBy id i .join history +
      (m.grade roster id i).pends.toNat

/-- What others do is not entered in the follower's accounts. -/
theorem Accounted.stays {i : ι} {after : List (Access ι)} (h : m.Accounted roster id history i)
    (hgrade : next.grade roster id i = m.grade roster id i)
    (hentries : ∀ mark, entriesBy id i mark after = entriesBy id i mark history) :
    next.Accounted roster id after i where
  standing := by
    rw [hgrade, hentries, hentries]
    exact h.standing
  raised := by
    rw [hgrade, hentries, hentries, hentries]
    exact h.raised

section

variable [DecidableEq κ]

theorem Accounted.step {i : ι} (h : m.Accounted roster id history i)
    (hfollower : (roster i).config.isLeader = false) (hsound : m.Sound roster)
    {access : Option (Access ι)} (hstep : Step roster m access next) :
    next.Accounted roster id (access.toList ++ history) i := by
  have hmoved := moved_of_step hsound hstep id
  cases hmoved with
  | rest _ _ hgrade _ =>
    exact h.stays (hgrade i) fun _ => rfl
  | @follow _ j c _ hgrade _ htread _ =>
    simp only [Option.toList_some, List.singleton_append]
    by_cases hij : i = j
    · subst hij
      refine ⟨?_, ?_⟩
      · rw [entriesBy_cons_self, entriesBy_cons_self]
        exact htread.standing_le (Nat.add_comm _ _) h.standing
      · rw [entriesBy_cons_self, entriesBy_cons_self, entriesBy_cons_self]
        exact htread.raise_le h.raised
    · exact h.stays (hgrade i hij) fun _ => entriesBy_cons_of_ne hij
  | @lead _ j c hrole hgrade _ _ _ =>
    have hij : i ≠ j := ne_of_roles hfollower hrole
    exact h.stays (hgrade i hij) fun _ => entriesBy_cons_of_ne hij

theorem accounted_of_run {m₀ : Machine κ ι} (hidle : ∀ i, m₀.stage i = .idle)
    (hrun : Run roster (fun _ => True) m₀ history m) {i : ι}
    (hfollower : (roster i).config.isLeader = false) : m.Accounted roster id history i := by
  induction hrun with
  | start =>
    have haway : m₀.grade roster id i = .away := grade_of_idle (hidle i)
    refine ⟨?_, ?_⟩ <;> simp [haway, entriesBy]
  | step hrun hstep _ ih => exact ih.step hfollower (sound_of_run hrun hidle) hstep

theorem lowerBy_le_of_run {m₀ : Machine κ ι} (hidle : ∀ i, m₀.stage i = .idle)
    (hrun : Run roster (fun _ => True) m₀ history m) {i : ι}
    (hfollower : (roster i).config.isLeader = false) :
    entriesBy id i .lower history ≤ entriesBy id i .raise history := by
  have haccounted : m.Accounted roster id history i := accounted_of_run hidle hrun hfollower
  have hstanding := haccounted.standing
  omega

theorem ne_joined_of_run (hsound : m.Sound roster) {i : ι}
    (hfollower : (roster i).config.isLeader = false) (hgrade : m.grade roster id i ≠ .joined)
    {later : List (Access ι)} {last : Machine κ ι}
    (hrun : Run roster (fun _ => True) m later last)
    (hjoin : ∀ x ∈ later, x.member = i → x.call.mark? id ≠ some .join) :
    last.Sound roster ∧ last.grade roster id i ≠ .joined := by
  induction hrun with
  | start => exact ⟨hsound, hgrade⟩
  | @step later m next access _ hstep _ ih =>
    obtain ⟨hbefore, hnot⟩ := ih fun x hx => hjoin x (List.mem_append_right _ hx)
    refine ⟨sound_step hbefore hstep, ?_⟩
    have hmoved := moved_of_step hbefore hstep id
    cases hmoved with
    | rest _ _ hsame =>
      rw [hsame i]
      exact hnot
    | @follow _ j c _ hothers _ htread =>
      by_cases hij : i = j
      · subst hij
        exact htread.ne_joined hnot (hjoin ⟨i, c⟩ (List.mem_append_left _ (by simp)) rfl)
      · rw [hothers i hij]
        exact hnot
    | @lead _ j c hrole hothers =>
      rw [hothers i (ne_of_roles hfollower hrole)]
      exact hnot

/-- The leader enters nothing but its departure. -/
theorem entriesBy_leader_of_run {m₀ : Machine κ ι} (hidle : ∀ i, m₀.stage i = .idle)
    (hrun : Run roster (fun _ => True) m₀ history m)
    (hleader : (roster leader).config.isLeader = true) {mark : Mark} (hmark : mark ≠ .depart) :
    entriesBy id leader mark history = 0 := by
  induction hrun with
  | start => rfl
  | @step history m next access hrun hstep _ ih =>
    have hmoved := moved_of_step (sound_of_run hrun hidle) hstep id
    cases hmoved with
    | rest => exact ih
    | @follow _ j c hrole =>
      have hne : leader ≠ j := Ne.symm (ne_of_roles hrole hleader)
      simp only [Option.toList_some, List.singleton_append]
      rw [entriesBy_cons_of_ne hne]
      exact ih
    | @lead _ j c _ _ _ hstride =>
      simp only [Option.toList_some, List.singleton_append]
      by_cases hj : leader = j
      · subst hj
        rw [entriesBy_cons_self]
        exact (hstride.enter_of_ne_depart hmark).trans ih
      · rw [entriesBy_cons_of_ne hj]
        exact ih

variable [Fintype ι]

theorem sum_followers_of_run {m₀ : Machine κ ι} (hidle : ∀ i, m₀.stage i = .idle)
    (hrun : Run roster (fun _ => True) m₀ history m)
    (hleader : (roster leader).config.isLeader = true) (mark : Mark) (hmark : mark ≠ .depart) :
    ∑ i ∈ Finset.univ.erase leader, entriesBy id i mark history = entries id mark history := by
  have hsum := Finset.add_sum_erase _ (fun i => entriesBy id i mark history)
    (Finset.mem_univ leader)
  rw [entriesBy_leader_of_run hidle hrun hleader hmark, Nat.zero_add, sum_entriesBy] at hsum
  exact hsum

/-- Nobody takes itself from the live count more often than it has added itself. -/
theorem lower_le_of_run {m₀ : Machine κ ι}
    (hone : ∀ i, (roster i).config.isLeader = true ↔ i = leader)
    (hidle : ∀ i, m₀.stage i = .idle) (hrun : Run roster (fun _ => True) m₀ history m) :
    entries id .lower history ≤ entries id .raise history := by
  have hleader := (hone leader).mpr rfl
  rw [← sum_followers_of_run hidle hrun hleader .raise (by simp),
    ← sum_followers_of_run hidle hrun hleader .lower (by simp)]
  apply Finset.sum_le_sum
  intro i hi
  exact lowerBy_le_of_run hidle hrun (follower_of_ne hone (Finset.ne_of_mem_erase hi))

/-! ### The counts do not wrap -/

variable {m₀ : Machine κ ι} (hone : ∀ i, (roster i).config.isLeader = true ↔ i = leader)
  (hidle : ∀ i, m₀.stage i = .idle)

section

include hone hidle

theorem raise_lt_of_joinsOnce (hrun : Run roster (fun _ => True) m₀ history m)
    (hsize : Fintype.card ι < UInt32.size) (hjoins : JoinsOnce leader id history) :
    entries id .raise history + 1 < entries id .lower history + UInt32.size := by
  have hleader := (hone leader).mpr rfl
  have hpos := Fintype.card_pos_iff.mpr ⟨leader⟩
  rw [← sum_followers_of_run hidle hrun hleader .raise (by simp),
    ← sum_followers_of_run hidle hrun hleader .lower (by simp)]
  by_cases hlarge : UInt32.size < 2 * Fintype.card ι
  · have hle := sum_followers_le leader fun i hi =>
      hjoins.turns hlarge i hi history (List.suffix_refl _)
    omega
  · -- A follower that is joined and stands in the live count once more stands there twice.
    have hle := sum_followers_le leader (k := 2) fun i hi => by
      have haccounted : m.Accounted roster id history i :=
        accounted_of_run hidle hrun (follower_of_ne hone hi)
      have hraised := haccounted.raised
      have honce := hjoins.once i hi
      have hpends := (m.grade roster id i).pends.toNat_le
      show entriesBy id i .raise history ≤ entriesBy id i .lower history + 2
      omega
    omega

end

/-! ### Everybody has come and gone -/

/-- Every follower has joined and has left again. -/
structure Dispersed (m : Machine κ ι) (roster : ι → Member κ) (leader : ι) (id : SegmentId)
    (history : List (Access ι)) : Prop where
  joins_eq : ∀ i, i ≠ leader → entriesBy id i .join history = 1
  /-- As often as it has added itself to the live count, it has taken itself back. -/
  lowers_eq : ∀ i, i ≠ leader → entriesBy id i .lower history = entriesBy id i .raise history
  stands : ∀ i, i ≠ leader → (m.grade roster id i).stands = false
  /-- Only the leader is left. -/
  live_eq : (m.kernel.header id).live = 1

/-- If all together have joined as often as there are followers, and each once at most, then each
has joined once. -/
theorem joins_eq_of_run (hidle : ∀ i, m₀.stage i = .idle)
    (hrun : Run roster (fun _ => True) m₀ history m)
    (hleader : (roster leader).config.isLeader = true) (hjoins : JoinsOnce leader id history)
    (hall : Fintype.card ι ≤ 1 + entries id .join history) {i : ι} (hi : i ≠ leader) :
    entriesBy id i .join history = 1 := by
  have hle : ∀ i ∈ Finset.univ.erase leader, entriesBy id i .join history ≤ 1 := fun i hi =>
    hjoins.once i (Finset.ne_of_mem_erase hi)
  have hcard : ∑ _i ∈ Finset.univ.erase leader, 1 = Fintype.card ι - 1 := by
    rw [Finset.sum_const, Finset.card_erase_of_mem (Finset.mem_univ leader), Finset.card_univ]
    exact Nat.mul_one _
  have hbelow := Finset.sum_le_sum hle
  have heq : ∑ i ∈ Finset.univ.erase leader, entriesBy id i .join history =
      ∑ _i ∈ Finset.univ.erase leader, 1 := by
    rw [sum_followers_of_run hidle hrun hleader .join (by simp)] at hbelow ⊢
    omega
  exact (Finset.sum_eq_sum_iff_of_le hle).mp heq i (Finset.mem_erase.mpr ⟨hi, Finset.mem_univ i⟩)

theorem lowers_eq_of_run (hone : ∀ i, (roster i).config.isLeader = true ↔ i = leader)
    (hidle : ∀ i, m₀.stage i = .idle) (hrun : Run roster (fun _ => True) m₀ history m)
    (hsame : entries id .raise history = entries id .lower history) {i : ι} (hi : i ≠ leader) :
    entriesBy id i .lower history = entriesBy id i .raise history := by
  have hleader := (hone leader).mpr rfl
  have hle : ∀ i ∈ Finset.univ.erase leader,
      entriesBy id i .lower history ≤ entriesBy id i .raise history := fun i hi =>
    lowerBy_le_of_run hidle hrun (follower_of_ne hone (Finset.ne_of_mem_erase hi))
  have heq : ∑ i ∈ Finset.univ.erase leader, entriesBy id i .lower history =
      ∑ i ∈ Finset.univ.erase leader, entriesBy id i .raise history := by
    rw [sum_followers_of_run hidle hrun hleader .lower (by simp),
      sum_followers_of_run hidle hrun hleader .raise (by simp)]
    exact hsame.symm
  exact (Finset.sum_eq_sum_iff_of_le hle).mp heq i (Finset.mem_erase.mpr ⟨hi, Finset.mem_univ i⟩)

theorem dispersed_of_gathered (hone : ∀ i, (roster i).config.isLeader = true ↔ i = leader)
    (hidle : ∀ i, m₀.stage i = .idle) (hrun : Run roster (fun _ => True) m₀ history m)
    (hjoins : JoinsOnce leader id history) (hlive : (m.kernel.header id).live = 1)
    (hsame : entries id .raise history = entries id .lower history)
    (hall : Fintype.card ι ≤ 1 + entries id .join history) :
    m.Dispersed roster leader id history where
  joins_eq i hi := joins_eq_of_run hidle hrun ((hone leader).mpr rfl) hjoins hall hi
  lowers_eq i hi := lowers_eq_of_run hone hidle hrun hsame hi
  stands i hi := by
    have haccounted : m.Accounted roster id history i :=
      accounted_of_run hidle hrun (follower_of_ne hone hi)
    have hstanding := haccounted.standing
    rw [lowers_eq_of_run hone hidle hrun hsame hi] at hstanding
    exact Bool.toNat_eq_zero.mp (by omega)
  live_eq := hlive

theorem dispersed_of_retires (hone : ∀ i, (roster i).config.isLeader = true ↔ i = leader)
    (hidle : ∀ i, m₀.stage i = .idle) (hnew : m₀.kernel.segments.length ≤ id) {n : UInt32}
    (hparticipants : (roster leader).config.participants = some n)
    (hcard : Fintype.card ι = n.toNat)
    (hwaits : (roster leader).config.teardownTimeout.isZero = false)
    (hrun : Run roster (fun _ => True) m₀ history m) {c : Call}
    (hstep : Step roster m (some ⟨leader, c⟩) next) {mapping : Mapping}
    (hretires : (next.stage leader).retires? = some mapping) (hid : mapping.segment = id)
    (hjoins : JoinsOnce leader id (⟨leader, c⟩ :: history)) :
    next.Dispersed roster leader id (⟨leader, c⟩ :: history) := by
  have hsize : Fintype.card ι < UInt32.size := hcard ▸ n.toNat_lt
  have hfew := raise_lt_of_joinsOnce hone hidle hrun hsize hjoins.tail
  have hlower : entries id .lower history ≤ entries id .raise history :=
    lower_le_of_run hone hidle hrun
  have hledgered := ledgered_of_run hone hidle hnew hrun
  have htallied := tallied_of_run hone hidle hnew hrun
  have hafter : Run roster (fun _ => True) m₀ (⟨leader, c⟩ :: history) next :=
    .step hrun hstep trivial
  cases hstep with
  | access _ _ hcalling =>
    obtain ⟨d, hstage⟩ := Stage.eq_calling_of_retires?_eq_some hretires
    rw [stage_settle_self] at hstage
    obtain ⟨phase, rfl, hnext⟩ := Call.detach_of_step (Stage.after_eq_calling hstage)
    obtain ⟨w, joined, rfl, hlive, hexpected, hsite⟩ :=
      looked_of_retires (sound_of_run hrun hidle) hcalling hnext hwaits
    rw [hid] at hlive
    obtain ⟨honly, hsame⟩ := hledgered.gathered hcalling hid hlive hlower hfew
    have hall : Fintype.card ι ≤ 1 + entries id .join history := by
      rw [hparticipants] at hexpected
      calc Fintype.card ι = n.toNat := hcard
        _ ≤ joined.toNat := UInt32.le_iff_toNat_le.mp hexpected
        _ ≤ 1 + entries id .join history := htallied d w mapping joined hcalling hid
    have hentries : ∀ mark, entries id mark history =
        entries id mark (⟨leader, .detach d (.readLive w mapping joined)⟩ :: history) :=
      fun _ => rfl
    simp only [hentries] at hsame hall
    refine dispersed_of_gathered hone hidle hafter hjoins ?_ hsame hall
    simp only [settle, hsite]
    exact honly

/-- When the leader of a group of known size has waited and goes on without complaint, every
follower has joined and has left again, and none is attached any more, whatever happens then. -/
theorem barrier_sound (hone : ∀ i, (roster i).config.isLeader = true ↔ i = leader)
    (hidle : ∀ i, m₀.stage i = .idle) (hnew : m₀.kernel.segments.length ≤ id) {n : UInt32}
    (hparticipants : (roster leader).config.participants = some n)
    (hcard : Fintype.card ι = n.toNat)
    (hwaits : (roster leader).config.teardownTimeout.isZero = false)
    (hrun : Run roster (fun _ => True) m₀ history m) {c : Call}
    (hstep : Step roster m (some ⟨leader, c⟩) next) {mapping : Mapping}
    (hretires : (next.stage leader).retires? = some mapping) (hid : mapping.segment = id)
    (hjoins : JoinsOnce leader id (⟨leader, c⟩ :: history)) :
    next.Dispersed roster leader id (⟨leader, c⟩ :: history) ∧
      ∀ later last, Run roster (fun _ => True) next later last →
        JoinsOnce leader id (later ++ ⟨leader, c⟩ :: history) → ∀ i, i ≠ leader →
        last.grade roster id i ≠ .joined ∧
          ∀ x ∈ later, x.member = i → x.call.mark? id ≠ some .join := by
  have hdispersed := dispersed_of_retires hone hidle hnew hparticipants hcard hwaits hrun hstep
    hretires hid hjoins
  refine ⟨hdispersed, ?_⟩
  intro later last hlater hjoinsLater i hi
  have hnoMore := hjoinsLater.no_more hi (hdispersed.joins_eq i hi)
  refine ⟨?_, hnoMore⟩
  have hgrade : next.grade roster id i ≠ .joined := by
    intro hjoined
    have hstands := hdispersed.stands i hi
    rw [hjoined] at hstands
    cases hstands
  have hsound := sound_step (sound_of_run hrun hidle) hstep
  exact (ne_joined_of_run hsound (follower_of_ne hone hi) hgrade hlater hnoMore).2

end

def awaitedPair (follows : Bool) : Member Bool :=
  sample follows fun config =>
    { config with rank := if follows then 1 else 0, participants := some 2 }

/-- The follower joins and leaves before the leader looks. -/
theorem barrier_sound_pair : ∃ (history : List (Access Bool)) (c : Call)
    (m next : Machine Bool Bool), Step awaitedPair m (some ⟨false, c⟩) next ∧
      next.Dispersed awaitedPair false 0 (⟨false, c⟩ :: history) := by
  obtain ⟨⟨⟨history, m⟩, access, next⟩, hplay, hreached⟩ := Option.map_eq_some_iff.mp
    (by decide +kernel :
      ((play awaitedPair (fun _ => True)
        (.allocate false 4096 :: List.replicate 10 (.access false) ++
          .allocate true 4096 :: List.replicate 11 (.access true) ++
          .release true :: List.replicate 3 (.access true) ++
          .release false :: List.replicate 3 (.access false))
        ([], fresh (fun follows => if follows then 2 else 1) [1, 2])).bind (fun before =>
          (before.2.obey awaitedPair (.access false)).map fun after => (before, after))).map
        (fun (before, access, next) => (access.map (·.member),
          (next.stage false).retires?.map Mapping.segment,
          entriesBy 0 true .join (access.toList ++ before.1))) = some (some false, some 0, 1))
  simp only [Option.bind_eq_some_iff, Option.map_eq_some_iff, Prod.mk.injEq] at hplay hreached
  obtain ⟨_, hplay, _, hobey, rfl, rfl⟩ := hplay
  obtain ⟨⟨⟨_, c⟩, rfl, rfl⟩, ⟨mapping, hretires, hid⟩, hjoin⟩ := hreached
  have hstep := step_of_obey hobey
  refine ⟨history, c, m, next, hstep, ?_⟩
  have hone : ∀ i, (awaitedPair i).config.isLeader = true ↔ i = false := by decide
  have hjoins : JoinsOnce false 0 (⟨false, c⟩ :: history) := by
    refine ⟨?_, ?_⟩
    · intro i hi
      rw [Bool.eq_true_of_not_eq_false hi]
      exact Nat.le_of_eq hjoin
    · intro hlarge
      exact absurd hlarge (by decide)
  exact (barrier_sound hone (fun _ => rfl) (Nat.le_refl 0) (n := 2) rfl (by decide) (by decide)
    (run_of_play (.start trivial) _ hplay) hstep hretires hid hjoins).1

end Machine
end StagingMemory
