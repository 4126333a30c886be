import StagingMemory.Proofs.Barrier
/-!
What the leader has waited for when its release ends without complaint, however many followers come,
and however often each of them does. The header counts joins and not followers: a follower that
comes again counts again, and one whose memory cannot be registered has counted already. And a
follower may still join between the leader's last look and the store that retires the segment. What
holds is that by that look as many joins as expected had ended, each in a block that was released
again or in a failed registration, and that no follower was attached (`Machine.turnout_counted`).
-/
namespace StagingMemory

/-! ### What a release reports -/

def Process.ReportsLate (p q : Process) : Prop :=
  ∃ context more,
    q.output = p.output ++ p.notice ⟨.teardownTimedOut, some context⟩ ++ more

namespace Process

theorem said_trace (p : Process) (text : String) :
    p.Said [.logged ⟨.debug, text⟩] (p.trace text) :=
  ⟨rfl, rfl, rfl, rfl, rfl, rfl⟩

theorem notice_of_loud {p : Process} (hloud : p.quiet = false) (report : Report) :
    p.notice report = .printed report :: (p.notice report).tail := by
  simp [notice, hloud]

theorem said_emitAny (p : Process) (d : Diagnostic) (context : Option String) :
    ∃ written, p.Said written (p.emitAny d context).2 := by
  cases context with
  | none => exact ⟨[], .refl p⟩
  | some context => exact ⟨_, p.said_emit d context⟩

end Process

namespace Detach

/-- Whatever else is reported comes after the wait that ran out. -/
theorem said_reports (d : Detach) (late : Option String) (refused : Option SystemError)
    (p : Process) :
    ∃ more, (p.emitAny .teardownTimedOut late).2.Said more (d.reports late refused p).2 := by
  unfold reports
  cases hfirst : p.emitAny .teardownTimedOut late with
  | mk first q =>
    cases first with
    | faulted | aborted => exact ⟨[], .refl q⟩
    | returned =>
      dsimp only
      obtain ⟨written, hsaid⟩ := q.said_emitAny .unlinkFailed
        (refused.map fun e => "segment " ++ d.config.segment.text ++ ": " ++ e.message)
      cases hsecond : q.emitAny .unlinkFailed
        (refused.map fun e => "segment " ++ d.config.segment.text ++ ": " ++ e.message) with
      | mk second r =>
        rw [hsecond] at hsaid
        cases second with
        | faulted | aborted => exact ⟨written, hsaid⟩
        | returned => exact ⟨_, hsaid.trans (r.said_trace _)⟩

theorem reportsLate_closed (d : Detach) (context : String) (refused : Option SystemError)
    (s : Site) : s.process.ReportsLate (d.closed (some context) refused s).2.process := by
  rw [closed_eq]
  generalize hp : s.process.recordRelease d.account d.block.bytes = p
  obtain ⟨more, hmore⟩ := d.said_reports (some context) refused p
  have hsaid := (p.said_emit .teardownTimedOut context).trans hmore
  refine ⟨context, more, ?_⟩
  show (d.reports (some context) refused p).2.output = _
  rw [hsaid.output_eq, ← hp, ← List.append_assoc]
  rfl

/-- If the wait did not run out, something else is written first. -/
theorem output_reports_none (d : Detach) (refused : Option SystemError) {p : Process}
    (hloud : p.quiet = false) : ∃ first more,
      (d.reports none refused p).2.output = p.output ++ first :: more ∧
        ∀ context, first ≠ .printed ⟨.teardownTimedOut, some context⟩ := by
  cases refused with
  | none => exact ⟨_, [], rfl, by simp⟩
  | some e =>
    generalize hcontext : "segment " ++ d.config.segment.text ++ ": " ++ e.message = context
    have hsaid := p.said_emit .unlinkFailed context
    have hnotice := Process.notice_of_loud hloud ⟨.unlinkFailed, some context⟩
    have hother : ∀ text, Output.printed ⟨.unlinkFailed, some context⟩ ≠
        .printed ⟨.teardownTimedOut, some text⟩ := by
      intro text heq
      have hsame := (Report.mk.inj (Output.printed.inj heq)).1
      exact absurd hsame (by decide)
    have hreports : (d.reports none (some e) p).2.output = (p.emit .unlinkFailed context).2.output ∨
        ∃ line, (d.reports none (some e) p).2.output =
          (p.emit .unlinkFailed context).2.output ++ [line] := by
      unfold reports
      simp only [Process.emitAny, Option.map_some, hcontext]
      cases p.emit .unlinkFailed context with
      | mk o q =>
        cases o with
        | faulted | aborted => exact Or.inl rfl
        | returned => exact Or.inr ⟨_, rfl⟩
    rcases hreports with heq | ⟨line, heq⟩
    · exact ⟨_, _, by rw [heq, hsaid.output_eq, hnotice], hother⟩
    · exact ⟨_, _, by rw [heq, hsaid.output_eq, hnotice, List.append_assoc, List.cons_append],
        hother⟩

/-- Where reports are printed, a release reports that the wait ran out only if it did. -/
theorem not_reportsLate_closed (d : Detach) (refused : Option SystemError) {s : Site}
    (hloud : s.process.quiet = false) :
    ¬ s.process.ReportsLate (d.closed none refused s).2.process := by
  rw [closed_eq]
  rintro ⟨context, more, hlate⟩
  obtain ⟨first, rest, houtput, hfirst⟩ := d.output_reports_none refused
    (p := s.process.recordRelease d.account d.block.bytes) hloud
  have hsame : s.process.output ++ first :: rest = s.process.output ++
      (.printed ⟨.teardownTimedOut, some context⟩ ::
        ((s.process.notice ⟨.teardownTimedOut, some context⟩).tail ++ more)) := by
    rw [← List.cons_append, ← List.append_assoc]
    rw [← Process.notice_of_loud hloud]
    exact houtput.symm.trans hlate
  exact hfirst context (List.cons.inj (List.append_cancel_left hsame)).1

namespace Transition

variable {d : Detach} {phase : Phase} {s t : Site} {progress : Progress Phase Unit}

theorem before_unlink (h : Transition d phase s progress t) {m : Mapping} {late : Option String}
    (hp : progress = .running (.unlink m late)) : phase = .retire m late := by
  cases h with
  | retired =>
    cases hp
    rfl
  | unregistered => split at hp <;> cases hp
  | _ => cases hp

theorem before_leave (h : Transition d phase s progress t) (hrole : d.config.isLeader = true)
    {m : Mapping} {late : Option String} {refused : Option SystemError}
    (hp : progress = .running (.leave m late refused)) : phase = .unlink m late := by
  cases h with
  | unlinked | unlinkFailed =>
    cases hp
    rfl
  | unregistered =>
    rw [if_pos hrole] at hp
    cases hp
  | _ => cases hp

theorem before_close (h : Transition d phase s progress t) {m : Mapping} {late : Option String}
    {refused : Option SystemError} (hp : progress = .running (.close m late refused)) :
    phase = .leave m late refused := by
  cases h with
  | left =>
    cases hp
    rfl
  | unregistered => split at hp <;> cases hp
  | _ => cases hp

end Transition
end Detach

/-! ### Where a follower's stay ends -/

/-- What a follower does about the segment once it stands in the live count, other than to join. -/
inductive Turn where
  /-- It has come too late, and takes itself back. -/
  | withdraw
  /-- It is handed its block. -/
  | serve
  /-- Its memory could not be registered, and it takes itself back. -/
  | undo
  /-- It releases its block. -/
  | leave
  deriving DecidableEq

def Call.turn? (id : SegmentId) : Call → Option Turn
  | attach _ (.withdraw _ m) => if m.segment = id then some .withdraw else none
  | attach _ (.finish m) => if m.segment = id then some .serve else none
  | attach _ (.undo m _) => if m.segment = id then some .undo else none
  | detach _ (.leave m _ _) => if m.segment = id then some .leave else none
  | _ => none

def Attach.rechecks (id : SegmentId) : Attach.Phase → Bool
  | .recheck _ m | .withdraw _ m | .raiseJoined m => m.segment = id
  | _ => false

def Attach.registers (id : SegmentId) : Attach.Phase → Bool
  | .register m | .undo m _ | .finish m => m.segment = id
  | _ => false

namespace Stage

def rechecks (id : SegmentId) : Stage → Bool
  | calling (.attach _ phase) => Attach.rechecks id phase
  | _ => false

def registers (id : SegmentId) : Stage → Bool
  | calling (.attach _ phase) => Attach.registers id phase
  | _ => false

@[simp] theorem rechecks_attach (id : SegmentId) (a : Attach) (phase : Attach.Phase) :
    (calling (.attach a phase)).rechecks id = Attach.rechecks id phase := rfl

@[simp] theorem registers_attach (id : SegmentId) (a : Attach) (phase : Attach.Phase) :
    (calling (.attach a phase)).registers id = Attach.registers id phase := rfl

@[simp] theorem rechecks_detach (id : SegmentId) (d : Detach) (phase : Detach.Phase) :
    (calling (.detach d phase)).rechecks id = false := rfl

@[simp] theorem registers_detach (id : SegmentId) (d : Detach) (phase : Detach.Phase) :
    (calling (.detach d phase)).registers id = false := rfl

@[simp] theorem after_running (c : Call) : after (.running c) = calling c := rfl

@[simp] theorem rechecks_after_done (id : SegmentId) (o : Outcome Reply) :
    (after (.done o)).rechecks id = false := by
  unfold after
  split
  case h_1 heq => cases heq
  all_goals rfl

@[simp] theorem registers_after_done (id : SegmentId) (o : Outcome Reply) :
    (after (.done o)).registers id = false := by
  unfold after
  split
  case h_1 heq => cases heq
  all_goals rfl

end Stage

structure Call.Balances (id : SegmentId) (c : Call) (after : Stage) : Prop where
  rechecks_eq : (after.rechecks id).toNat + (decide (c.turn? id = some .withdraw)).toNat +
      (decide (c.mark? id = some .join)).toNat =
    ((Stage.calling c).rechecks id).toNat + (decide (c.mark? id = some .raise)).toNat
  registers_eq : (after.registers id).toNat + (decide (c.turn? id = some .serve)).toNat +
      (decide (c.turn? id = some .undo)).toNat =
    ((Stage.calling c).registers id).toNat + (decide (c.mark? id = some .join)).toNat
  lowers_eq : (decide (c.mark? id = some .lower)).toNat =
    (decide (c.turn? id = some .withdraw)).toNat + (decide (c.turn? id = some .undo)).toNat +
      (decide (c.turn? id = some .leave)).toNat

section

attribute [local simp] Attach.rechecks Attach.registers Call.mark? Call.turn?

theorem Attach.Transition.balances {a : Attach} {phase : Attach.Phase} {s t : Site}
    {progress : Progress Attach.Phase Attach.Result}
    (h : Transition a phase s progress t) (hrole : a.config.isLeader = false)
    (hsuits : a.Suits phase) (id : SegmentId) :
    (Call.attach a phase).Balances id (.after (progress.map (.attach a) .ofResult)) := by
  -- A step concerns the segment only if it is the one that the call has mapped.
  cases h with
  | found | absent | unopened | short | sized | foundMapped | foundUnmapped | ready | unready
  | owned | orphaned | matched | mismatched | expired | waiting | woken | asleep =>
    constructor <;> simp
  | @raised _ _ m | @confirmed _ _ m | @refused _ _ m | @withdrawn _ _ m | @joined _ m
  | @unregistered _ m | @registerFatal _ m | @undoneError _ m | @undoneFault _ m
  | @undoneAbort _ m =>
    by_cases hid : m.segment = id <;> constructor <;> simp [hid, hrole]
  | @registered _ m =>
    rw [hrole]
    by_cases hid : m.segment = id <;> constructor <;> simp [hid]
  | @finished _ m =>
    by_cases hid : m.segment = id <;> constructor <;> simp [hid]
  | failed => constructor <;> simp
  | _ => simp [Suits, hrole] at hsuits

theorem Detach.balances {d : Detach} (hrole : d.config.isLeader = false) (phase : Detach.Phase)
    (id : SegmentId) (progress : Progress Detach.Phase Unit) :
    (Call.detach d phase).Balances id
      (.after (progress.map (.detach d) fun _ => .released)) := by
  -- Whatever becomes of a release, it neither rechecks nor registers.
  have hafter : (Stage.after (progress.map (.detach d) fun _ => .released)).rechecks id = false ∧
      (Stage.after (progress.map (.detach d) fun _ => .released)).registers id = false := by
    cases progress <;> simp
  obtain ⟨hrechecks, hregisters⟩ := hafter
  cases phase with
  | leave m =>
    by_cases hid : m.segment = id <;> constructor <;> simp [hid, hrole, hrechecks, hregisters]
  | _ => constructor <;> simp [hrechecks, hregisters]

end

/-! ### The followers' accounts -/

section

variable {ι : Type v} [DecidableEq ι] {id : SegmentId}

def turnsBy (id : SegmentId) (i : ι) (turn : Turn) (history : List (Access ι)) : Nat :=
  history.countP fun access => access.member = i ∧ access.call.turn? id = some turn

theorem turnsBy_cons_self {i : ι} {c : Call} {history : List (Access ι)} {turn : Turn} :
    turnsBy id i turn (⟨i, c⟩ :: history) =
      turnsBy id i turn history + (decide (c.turn? id = some turn)).toNat := by
  by_cases h : c.turn? id = some turn <;> simp [turnsBy, h]

theorem turnsBy_cons_of_ne {i j : ι} (h : j ≠ i) {c : Call} {history : List (Access ι)}
    {turn : Turn} : turnsBy id j turn (⟨i, c⟩ :: history) = turnsBy id j turn history := by
  simp [turnsBy, Ne.symm h]

theorem entriesBy_cons {i : ι} {c : Call} {history : List (Access ι)} {mark : Mark} :
    entriesBy id i mark (⟨i, c⟩ :: history) =
      entriesBy id i mark history + (decide (c.mark? id = some mark)).toNat := by
  rw [entriesBy_cons_self, enter]
  by_cases h : c.mark? id = some mark <;> simp [h]

end

/-- A release is about to end, and has nothing to complain of. -/
def Stage.closes? : Stage → Option Mapping
  | calling (.detach _ (.close m none _)) => some m
  | _ => none

theorem Stage.eq_calling_of_closes?_eq_some {stage : Stage} {m : Mapping}
    (h : stage.closes? = some m) :
    ∃ d refused, stage = .calling (.detach d (.close m none refused)) := by
  unfold closes? at h
  split at h
  · cases h
    exact ⟨_, _, rfl⟩
  · cases h

namespace Machine

variable {κ : Type u} {ι : Type v} {m next : Machine κ ι} {roster : ι → Member κ} {leader : ι}
  {id : SegmentId} {history : List (Access ι)}

theorem balances_of_access (hsound : m.Sound roster) {i : ι} {c : Call}
    (hfollower : (roster i).config.isLeader = false) (hcalling : m.stage i = .calling c) :
    c.Balances id (.after (c.step (m.site (roster i).home)).1) := by
  have hsuits := hsound.suits i
  rw [hcalling] at hsuits
  cases c with
  | attach a phase =>
    obtain ⟨hconfig, hsuits⟩ := hsuits
    have ht := a.step_transition phase (m.site (roster i).home)
    exact ht.balances (hconfig ▸ hfollower) hsuits id
  | detach d phase =>
    have hconfig : d.config = (roster i).config := hsuits.1
    exact Detach.balances (hconfig ▸ hfollower) phase id _

theorem grade_of_holding {i : ι} {block : Block} (hholding : m.stage i = .holding block)
    (hid : m.segment? roster i = some id) : m.grade roster id i = .joined := by
  rw [segment?, hholding] at hid
  simp [grade, hholding, Stage.grade, hid, Stage.reached]

/-- Who does either stands in the live count. -/
theorem stands_of_visits {i : ι}
    (h : (m.stage i).rechecks id = true ∨ (m.stage i).registers id = true) :
    (m.grade roster id i).stands = true := by
  cases hstage : m.stage i with
  | idle | holding | halted =>
    rw [hstage] at h
    rcases h with h | h <;> cases h
  | calling c =>
    rw [hstage] at h
    cases c with
    | detach => rcases h with h | h <;> cases h
    | attach a phase =>
      cases phase with
      | recheck w mapping | withdraw w mapping | raiseJoined mapping | register mapping
      | undo mapping | finish mapping =>
        have hid : mapping.segment = id := by
          simpa [Attach.rechecks, Attach.registers] using h
        rw [grade_of_attach hstage rfl hid]
        rfl
      | _ => rcases h with h | h <;> cases h

variable [DecidableEq ι]

/-- Whatever the follower has entered is accounted for: each time it raised the live count it
withdrew, or joined, or is about to do so; each join ended in a block or in a failed registration,
or is about to; and it lowers the count in no other way than by withdrawing, by undoing its join and
by leaving. -/
structure Visited (m : Machine κ ι) (id : SegmentId) (history : List (Access ι)) (i : ι) :
    Prop where
  raises_eq : entriesBy id i .raise history =
    turnsBy id i .withdraw history + entriesBy id i .join history +
      ((m.stage i).rechecks id).toNat
  joins_eq : entriesBy id i .join history =
    turnsBy id i .serve history + turnsBy id i .undo history + ((m.stage i).registers id).toNat
  lowers_eq : entriesBy id i .lower history =
    turnsBy id i .withdraw history + turnsBy id i .undo history + turnsBy id i .leave history

/-- What is not the follower's doing does not change its account. -/
theorem Visited.stays {i : ι} {after : List (Access ι)} (h : m.Visited id history i)
    (hrechecks : (next.stage i).rechecks id = (m.stage i).rechecks id)
    (hregisters : (next.stage i).registers id = (m.stage i).registers id)
    (hentries : ∀ mark, entriesBy id i mark after = entriesBy id i mark history)
    (hturns : ∀ turn, turnsBy id i turn after = turnsBy id i turn history) :
    next.Visited id after i := by
  constructor
  · rw [hentries, hentries, hturns, hrechecks]
    exact h.raises_eq
  · rw [hentries, hturns, hturns, hregisters]
    exact h.joins_eq
  · rw [hentries, hturns, hturns, hturns]
    exact h.lowers_eq

/-- An access of the follower's own changes its account as the call goes on. -/
theorem Visited.access {i : ι} {c : Call} (h : m.Visited id history i)
    (hcalling : m.stage i = .calling c) (hbalances : c.Balances id (next.stage i)) :
    next.Visited id (⟨i, c⟩ :: history) i := by
  obtain ⟨hraises, hjoins, hlowers⟩ := h
  obtain ⟨hrechecks, hregisters, hlowered⟩ := hbalances
  rw [hcalling] at hraises hjoins
  constructor
  · rw [entriesBy_cons, entriesBy_cons, turnsBy_cons_self]
    omega
  · rw [entriesBy_cons, turnsBy_cons_self, turnsBy_cons_self]
    omega
  · rw [entriesBy_cons, turnsBy_cons_self, turnsBy_cons_self, turnsBy_cons_self]
    omega

/-- The follower is done with the segment: each of its joins has ended, in a block or in a failed
registration, and each block that it was handed it has released. -/
structure Settled (m : Machine κ ι) (roster : ι → Member κ) (id : SegmentId)
    (history : List (Access ι)) (i : ι) : Prop where
  joins_eq : entriesBy id i .join history =
    turnsBy id i .serve history + turnsBy id i .undo history
  leaves_eq : turnsBy id i .leave history = turnsBy id i .serve history
  stands : (m.grade roster id i).stands = false
  segment_ne : ∀ block, m.stage i = .holding block → m.segment? roster i ≠ some id

/-- Who stands in the live count no more, and has taken itself back as often as it added itself, is
done. -/
theorem Visited.settled {i : ι} (h : m.Visited id history i)
    (hstands : (m.grade roster id i).stands = false)
    (hsame : entriesBy id i .lower history = entriesBy id i .raise history) :
    m.Settled roster id history i := by
  have hrechecks : (m.stage i).rechecks id = false := by
    by_contra hne
    rw [stands_of_visits (Or.inl (Bool.not_eq_false _ ▸ hne))] at hstands
    cases hstands
  have hregisters : (m.stage i).registers id = false := by
    by_contra hne
    rw [stands_of_visits (Or.inr (Bool.not_eq_false _ ▸ hne))] at hstands
    cases hstands
  obtain ⟨hraises, hjoins, hlowers⟩ := h
  rw [hrechecks] at hraises
  rw [hregisters] at hjoins
  simp only [Bool.toNat_false, Nat.add_zero] at hraises hjoins
  refine ⟨hjoins, ?_, hstands, ?_⟩
  · omega
  · intro block hholding hid
    rw [grade_of_holding hholding hid] at hstands
    cases hstands

variable [DecidableEq κ]

/-- Who begins a call does nothing about the segment yet. -/
theorem visits_of_none (hstep : Step roster m none next) (i : ι) :
    (next.stage i).rechecks id = (m.stage i).rechecks id ∧
      (next.stage i).registers id = (m.stage i).registers id := by
  rcases stage_cases hstep i with h | ⟨hidle, a, phase, hfirst, h⟩ | ⟨d, hholding, h⟩ |
    ⟨c, haccess, -⟩
  · rw [h]
    exact ⟨rfl, rfl⟩
  · rw [h, hidle]
    cases hfirst <;> exact ⟨rfl, rfl⟩
  · rw [h, hholding]
    exact ⟨rfl, rfl⟩
  · cases haccess

theorem Visited.step {i : ι} (h : m.Visited id history i)
    (hfollower : (roster i).config.isLeader = false) (hsound : m.Sound roster)
    {access : Option (Access ι)} (hstep : Step roster m access next) :
    next.Visited id (access.toList ++ history) i := by
  cases access with
  | none =>
    obtain ⟨hrechecks, hregisters⟩ := visits_of_none hstep i
    exact h.stays hrechecks hregisters (fun _ => rfl) (fun _ => rfl)
  | some x =>
    obtain ⟨j, c⟩ := x
    simp only [Option.toList_some, List.singleton_append]
    by_cases hij : i = j
    · subst hij
      have hcalling := stage_of_step hstep
      apply h.access hcalling
      rw [stage_after_step hstep]
      exact balances_of_access hsound hfollower hcalling
    · have hstage := stage_of_other hstep hij
      exact h.stays (by rw [hstage]) (by rw [hstage]) (fun _ => entriesBy_cons_of_ne hij)
        (fun _ => turnsBy_cons_of_ne hij)

theorem visited_of_run {m₀ : Machine κ ι} (hidle : ∀ i, m₀.stage i = .idle)
    (hrun : Run roster (fun _ => True) m₀ history m) {i : ι}
    (hfollower : (roster i).config.isLeader = false) : m.Visited id history i := by
  induction hrun with
  | start =>
    constructor
    · rw [hidle i]
      rfl
    · rw [hidle i]
      rfl
    · rfl
  | step hrun hstep _ ih => exact ih.step hfollower (sound_of_run hrun hidle) hstep

/-! ### The leader's last look -/

/-- A release that is past its first access has come there by an access of its own. -/
theorem detach_before {m₀ : Machine κ ι} (hidle : ∀ i, m₀.stage i = .idle)
    (hrun : Run roster (fun _ => True) m₀ history m) {i : ι} {d : Detach} {phase : Detach.Phase}
    (hcalling : m.stage i = .calling (.detach d phase)) (hphase : phase ≠ .unregister) :
    ∃ later earlier before previous, history = later ++ ⟨i, .detach d previous⟩ :: earlier ∧
      (∀ x ∈ later, x.member ≠ i) ∧ Run roster (fun _ => True) m₀ earlier before ∧
      Run roster (fun _ => True) before (later ++ [⟨i, .detach d previous⟩]) m ∧
      before.stage i = .calling (.detach d previous) ∧
      d.Transition previous (before.site (roster i).home) (.running phase)
        ((Call.detach d previous).step (before.site (roster i).home)).2 := by
  induction hrun with
  | start =>
    rw [hidle i] at hcalling
    cases hcalling
  | @step history m next access hrun hstep _ ih =>
    cases access with
    | none =>
      cases origin_of_step hstep hcalling with
      | stayed hbefore =>
        obtain ⟨later, earlier, before, previous, rfl, hothers, hearlier, hlater, hprevious⟩ :=
          ih hbefore
        exact ⟨later, earlier, before, previous, rfl, hothers, hearlier, .step hlater hstep trivial,
          hprevious⟩
      | releases => exact absurd rfl hphase
      | steps haccess => cases haccess
    | some x =>
      obtain ⟨j, c⟩ := x
      by_cases hij : i = j
      · subst hij
        have hbefore := stage_of_step hstep
        have hlater : Run roster (fun _ => True) m [⟨i, c⟩] next :=
          .step (.start trivial) hstep trivial
        rw [stage_after_step hstep] at hcalling
        obtain ⟨previous, rfl, hnext⟩ := Call.detach_of_step (Stage.after_eq_calling hcalling)
        exact ⟨[], history, m, previous, rfl, by simp, hrun, hlater, hbefore, hnext⟩
      · rw [stage_of_other hstep hij] at hcalling
        obtain ⟨later, earlier, before, previous, rfl, hothers, hearlier, hlater, hprevious⟩ :=
          ih hcalling
        refine ⟨⟨j, c⟩ :: later, earlier, before, previous, rfl, ?_, hearlier,
          .step hlater hstep trivial, hprevious⟩
        intro x hx
        rcases List.mem_cons.mp hx with rfl | hx
        · exact Ne.symm hij
        · exact hothers x hx

/-- A release that comes to its end has retired the segment, with the same complaint or none. -/
theorem retired_of_close {m₀ : Machine κ ι} (hidle : ∀ i, m₀.stage i = .idle)
    (hrun : Run roster (fun _ => True) m₀ history m)
    (hleader : (roster leader).config.isLeader = true) {d : Detach} {mapping : Mapping}
    {late : Option String} {refused : Option SystemError}
    (hcalling : m.stage leader = .calling (.detach d (.close mapping late refused))) :
    ∃ rest earlier retiring,
      history = rest ++ ⟨leader, .detach d (.retire mapping late)⟩ :: earlier ∧
      Run roster (fun _ => True) m₀ earlier retiring ∧
      Run roster (fun _ => True) retiring (rest ++ [⟨leader, .detach d (.retire mapping late)⟩]) m ∧
      retiring.stage leader = .calling (.detach d (.retire mapping late)) := by
  have hsuits := (sound_of_run hrun hidle).suits leader
  rw [hcalling] at hsuits
  have hconfig : d.config = (roster leader).config := hsuits.1
  obtain ⟨later, _, _, _, rfl, -, hleaving, hlater, hcalling, hnext⟩ :=
    detach_before hidle hrun hcalling (by simp)
  obtain rfl := hnext.before_close rfl
  obtain ⟨later₁, _, _, _, rfl, -, hunlinking, hlater₁, hcalling, hnext⟩ :=
    detach_before hidle hleaving hcalling (by simp)
  obtain rfl := hnext.before_leave (hconfig ▸ hleader) rfl
  obtain ⟨later₂, earlier, retiring, _, rfl, -, hretiring, hlater₂, hcalling, hnext⟩ :=
    detach_before hidle hunlinking hcalling (by simp)
  obtain rfl := hnext.before_unlink rfl
  have hrest := (hlater₂.trans hlater₁).trans hlater
  refine ⟨later ++ ⟨leader, .detach d (.leave mapping late refused)⟩ ::
    (later₁ ++ ⟨leader, .detach d (.unlink mapping late)⟩ :: later₂), earlier, retiring, ?_,
    hretiring, ?_, hcalling⟩
  · simp
  · simpa using hrest

/-- The leader's last look at how many are attached, before it retires the segment without
complaint. -/
structure LastLook (roster : ι → Member κ) (leader : ι) (m₀ : Machine κ ι) (d : Detach)
    (mapping : Mapping) (earlier : List (Access ι)) (looked : Machine κ ι)
    (later : List (Access ι)) (m : Machine κ ι) : Prop where
  before : Run roster (fun _ => True) m₀ earlier looked
  after : Run roster (fun _ => True) looked later m
  /-- Between the look and the store that retires the segment the leader does nothing. -/
  retires : ∃ w joined rest between,
    looked.stage leader = .calling (.detach d (.readLive w mapping joined)) ∧
      later = rest ++ ⟨leader, .detach d (.retire mapping none)⟩ ::
        (between ++ [⟨leader, .detach d (.readLive w mapping joined)⟩]) ∧
      ∀ x ∈ between, x.member ≠ leader

/-- A leader that has waited and comes to the end of its release without complaint has looked, and
has seen as many joined as expected and nobody else attached. -/
theorem lastLook_of_close {m₀ : Machine κ ι} (hidle : ∀ i, m₀.stage i = .idle)
    (hrun : Run roster (fun _ => True) m₀ history m)
    (hleader : (roster leader).config.isLeader = true)
    (hwaits : (roster leader).config.teardownTimeout.isZero = false) {d : Detach}
    {mapping : Mapping} {refused : Option SystemError}
    (hcalling : m.stage leader = .calling (.detach d (.close mapping none refused))) :
    ∃ later earlier looked w joined, history = later ++ earlier ∧
      LastLook roster leader m₀ d mapping earlier looked later m ∧
      looked.stage leader = .calling (.detach d (.readLive w mapping joined)) ∧
      (looked.kernel.header mapping.segment).live ≤ 1 ∧
      (roster leader).config.participants.getD 1 ≤ joined := by
  obtain ⟨rest, _, retiring, rfl, hretiring, hrest, hcalling⟩ :=
    retired_of_close hidle hrun hleader hcalling
  obtain ⟨between, earlier, looked, _, rfl, hothers, hlooked, hbetween, hlooking, hnext⟩ :=
    detach_before hidle hretiring hcalling (by simp)
  obtain ⟨w, joined, rfl, hlive, hexpected, -⟩ :=
    looked_of_retires (sound_of_run hlooked hidle) hlooking hnext hwaits
  refine ⟨rest ++ ⟨leader, .detach d (.retire mapping none)⟩ ::
    (between ++ [⟨leader, .detach d (.readLive w mapping joined)⟩]), earlier, looked, w, joined, ?_,
    ⟨hlooked, ?_, w, joined, rest, between, hlooking, rfl, hothers⟩, hlooking, hlive, hexpected⟩
  · simp
  · simpa using hbetween.trans hrest

/-- The leader's release comes to its end, and does not report that the wait ran out. -/
def EndsQuietly (m : Machine κ ι) (roster : ι → Member κ) (leader : ι) (d : Detach)
    (mapping : Mapping) (next : Machine κ ι) : Prop :=
  (∃ late refused, Step roster m (some ⟨leader, .detach d (.close mapping late refused)⟩) next) ∧
    ¬ (m.process (roster leader).home).ReportsLate (next.process (roster leader).home)

/-- What ends quietly had nothing to complain of. -/
theorem EndsQuietly.calling {d : Detach} {mapping : Mapping}
    (h : m.EndsQuietly roster leader d mapping next) :
    ∃ refused, m.stage leader = .calling (.detach d (.close mapping none refused)) := by
  obtain ⟨⟨late, refused, hstep⟩, hquiet⟩ := h
  have hcalling := stage_of_step hstep
  cases late with
  | none => exact ⟨refused, hcalling⟩
  | some context =>
    exfalso
    apply hquiet
    cases hstep
    rw [process_settle_self]
    exact d.reportsLate_closed context refused ((m.site (roster leader).home).unmap mapping)

/-- Where reports are printed, a release without complaint ends quietly. -/
theorem endsQuietly_of_close {d : Detach} {mapping : Mapping} {refused : Option SystemError}
    (hcalling : m.stage leader = .calling (.detach d (.close mapping none refused)))
    (hloud : (m.process (roster leader).home).quiet = false) :
    m.EndsQuietly roster leader d mapping (m.settle roster leader
      ((Call.detach d (.close mapping none refused)).step (m.site (roster leader).home))) := by
  refine ⟨⟨none, refused, .access leader _ hcalling⟩, ?_⟩
  rw [process_settle_self]
  exact d.not_reportsLate_closed refused
    (s := (m.site (roster leader).home).unmap mapping) hloud

/-! ### What the leader has waited for -/

/-- What the counts vouch for: as many joins as there are followers to wait for; and, if those that
stand in the live count are not so many that it wraps, that every follower is done. -/
structure Turnout [Fintype ι] (m : Machine κ ι) (roster : ι → Member κ) (leader : ι)
    (id : SegmentId) (n : UInt32) (history : List (Access ι)) : Prop where
  joins_le : n.toNat ≤ 1 + ∑ i ∈ Finset.univ.erase leader, entriesBy id i .join history
  settled : entries id .raise history + 1 < entries id .lower history + UInt32.size →
    ∀ i, i ≠ leader → m.Settled roster id history i

variable [Fintype ι]

/-- What a leader may conclude from the counts that it has read. -/
theorem turnout_of_look {m₀ : Machine κ ι}
    (hone : ∀ i, (roster i).config.isLeader = true ↔ i = leader)
    (hidle : ∀ i, m₀.stage i = .idle) (hnew : m₀.kernel.segments.length ≤ id)
    (hrun : Run roster (fun _ => True) m₀ history m) {d : Detach} {w : Wait} {mapping : Mapping}
    {joined n : UInt32}
    (hlooking : m.stage leader = .calling (.detach d (.readLive w mapping joined)))
    (hid : mapping.segment = id) (hlive : (m.kernel.header id).live ≤ 1) (hexpected : n ≤ joined) :
    m.Turnout roster leader id n history := by
  have hleader := (hone leader).mpr rfl
  constructor
  · have htallied := tallied_of_run hone hidle hnew hrun
    rw [sum_followers_of_run hidle hrun hleader .join (by simp)]
    calc n.toNat ≤ joined.toNat := UInt32.le_iff_toNat_le.mp hexpected
      _ ≤ 1 + entries id .join history := htallied d w mapping joined hlooking hid
  · intro hfew i hi
    have hlower : entries id .lower history ≤ entries id .raise history :=
      lower_le_of_run hone hidle hrun
    have hledgered := ledgered_of_run hone hidle hnew hrun
    obtain ⟨-, hsame⟩ := hledgered.gathered hlooking hid hlive hlower hfew
    have hfollower := follower_of_ne hone hi
    have hbalanced := lowers_eq_of_run hone hidle hrun hsame hi
    have haccounted : m.Accounted roster id history i := accounted_of_run hidle hrun hfollower
    have hstanding := haccounted.standing
    have hstands : (m.grade roster id i).stands = false := by
      apply Bool.toNat_eq_zero.mp
      omega
    have hvisited : m.Visited id history i := visited_of_run hidle hrun hfollower
    exact hvisited.settled hstands hbalanced

/-- In every run of one leader and any followers, however often each of them comes: where the leader
of a group of known size waits, and its release ends without the report that the wait ran out, it
has looked at the counts before it retired the segment, and by then as many joins as expected were
complete; and, if the live count did not wrap, every follower was done with the segment, its joins
ended in blocks that it had released again, or in failed registrations. -/
theorem turnout_counted {m₀ : Machine κ ι}
    (hone : ∀ i, (roster i).config.isLeader = true ↔ i = leader)
    (hidle : ∀ i, m₀.stage i = .idle) (hnew : m₀.kernel.segments.length ≤ id) {n : UInt32}
    (hparticipants : (roster leader).config.participants = some n)
    (hwaits : (roster leader).config.teardownTimeout.isZero = false)
    (hrun : Run roster (fun _ => True) m₀ history m) {d : Detach} {mapping : Mapping}
    (hquiet : m.EndsQuietly roster leader d mapping next) (hid : mapping.segment = id) :
    ∃ later earlier looked, history = later ++ earlier ∧
      LastLook roster leader m₀ d mapping earlier looked later m ∧
      looked.Turnout roster leader id n earlier := by
  obtain ⟨refused, hcalling⟩ := hquiet.calling
  obtain ⟨later, earlier, looked, w, joined, hhistory, hlook, hlooking, hlive, hexpected⟩ :=
    lastLook_of_close hidle hrun ((hone leader).mpr rfl) hwaits hcalling
  rw [hid] at hlive
  rw [hparticipants] at hexpected
  have hturnout := turnout_of_look hone hidle hnew hlook.before hlooking hid hlive hexpected
  exact ⟨later, earlier, looked, hhistory, hlook, hturnout⟩

/-- The follower joins and leaves, and the leader releases its block to the end. -/
theorem turnout_counted_pair : ∃ (later earlier : List (Access Bool)) (d : Detach)
    (mapping : Mapping) (looked m next : Machine Bool Bool),
    m.EndsQuietly awaitedPair false d mapping next ∧
      LastLook awaitedPair false (fresh (fun follows => if follows then 2 else 1) [1, 2]) d mapping
        earlier looked later m ∧
      looked.Turnout awaitedPair false 0 2 earlier ∧ looked.Settled awaitedPair 0 earlier true := by
  obtain ⟨⟨history, m⟩, hplay, hreached⟩ := Option.map_eq_some_iff.mp
    (by decide +kernel :
      (play awaitedPair (fun _ => True)
        (.allocate false 4096 :: List.replicate 10 (.access false) ++
          .allocate true 4096 :: List.replicate 11 (.access true) ++
          .release true :: List.replicate 3 (.access true) ++
          .release false :: List.replicate 7 (.access false))
        ([], fresh (fun follows => if follows then 2 else 1) [1, 2])).map (fun (history, m) =>
          ((m.stage false).closes?.map Mapping.segment, (m.process false).quiet,
            entries 0 .raise history)) = some (some 0, false, 1))
  simp only [Option.map_eq_some_iff, Prod.mk.injEq] at hreached
  obtain ⟨⟨mapping, hmapping, hid⟩, hloud, hraise⟩ := hreached
  obtain ⟨d, refused, hcalling⟩ := Stage.eq_calling_of_closes?_eq_some hmapping
  have hone : ∀ i, (awaitedPair i).config.isLeader = true ↔ i = false := by decide
  have hquiet : m.EndsQuietly awaitedPair false d mapping _ := endsQuietly_of_close hcalling hloud
  obtain ⟨later, earlier, looked, rfl, hlook, hturnout⟩ := turnout_counted hone (fun _ => rfl)
    (Nat.le_refl 0) rfl (by decide) (run_of_play (.start trivial) _ hplay) hquiet hid
  have hle : entries 0 .raise earlier ≤ entries 0 .raise (later ++ earlier) :=
    entries_le_append later earlier
  have hword : 2 < UInt32.size := by decide
  have hsettled := hturnout.settled (by omega) true (by decide)
  exact ⟨later, earlier, d, mapping, looked, m, _, hquiet, hlook, hturnout, hsettled⟩

def served (leader : ι) (id : SegmentId) (history : List (Access ι)) : Finset ι :=
  Finset.univ.filter fun i => i ≠ leader ∧ 0 < turnsBy id i .serve history

def awaitedTrio (i : Fin 3) : Member (Fin 3) :=
  { sample i fun config => { config with rank := .ofNat i, participants := some 3 } with
    device := .host (if i = 1 then .required else .disabled) }

/-- The first follower comes twice, and its memory cannot be locked. The leader looks, and sees as
many joins as it waits for; but the other follower joins before the segment is retired. The release
ends quietly, though only one follower was ever handed a block, and it still holds it when the
segment is retired. -/
theorem turnout_not_followers : ∃ (earlier later : List (Access (Fin 3))) (d : Detach)
    (mapping : Mapping) (block : Block) (retiring m next : Machine (Fin 3) (Fin 3)),
    (awaitedTrio 0).config.participants = some 3 ∧
      (awaitedTrio 0).config.teardownTimeout.isZero = false ∧
      Run awaitedTrio (fun _ => True) (fresh (fun i => .ofNat (i + 1)) [1, 2, 3]) earlier retiring ∧
      (retiring.stage 0).retires? = some mapping ∧
      retiring.stage 2 = .holding block ∧ retiring.segment? awaitedTrio 2 = some mapping.segment ∧
      Run awaitedTrio (fun _ => True) retiring later m ∧
      m.EndsQuietly awaitedTrio 0 d mapping next ∧
      (served 0 mapping.segment (later ++ earlier)).card + 1 < 3 := by
  obtain ⟨⟨⟨earlier, retiring⟩, later, m⟩, hplay, hreached⟩ := Option.map_eq_some_iff.mp
    (by decide +kernel :
      ((play awaitedTrio (fun _ => True)
        (.allocate 0 131072 :: List.replicate 10 (.access 0) ++
          .allocate 1 131072 :: List.replicate 12 (.access 1) ++
          .allocate 1 131072 :: List.replicate 12 (.access 1) ++
          .release 0 :: List.replicate 4 (.access 0) ++
          .allocate 2 131072 :: List.replicate 11 (.access 2))
        ([], fresh (fun i => .ofNat (i + 1)) [1, 2, 3])).bind (fun before =>
          (play awaitedTrio (fun _ => True) (List.replicate 3 (.access 0)) ([], before.2)).map
            fun after => (before, after))).map
        (fun ((earlier, retiring), later, m) =>
          ((retiring.stage 0).retires?.map Mapping.segment,
            decide ((retiring.stage 0).retires? = (m.stage 0).closes?),
            decide ((retiring.stage 2).block?.isSome = true ∧
              retiring.segment? awaitedTrio 2 = some 0),
            (m.process 0).quiet, (served 0 0 (later ++ earlier)).card)) =
        some (some 0, true, true, false, 1))
  simp only [Option.bind_eq_some_iff, Option.map_eq_some_iff, Prod.mk.injEq,
    decide_eq_true_eq] at hplay hreached
  obtain ⟨_, hplay, _, hafter, rfl, rfl⟩ := hplay
  obtain ⟨⟨mapping, hretires, hid⟩, hsame, ⟨hblock, hsegment⟩, hloud, hserved⟩ := hreached
  obtain ⟨block, hblock⟩ := Option.isSome_iff_exists.mp hblock
  obtain ⟨d, refused, hcalling⟩ := Stage.eq_calling_of_closes?_eq_some (hsame.symm.trans hretires)
  refine ⟨earlier, later, d, mapping, block, retiring, m, _, rfl, by decide,
    run_of_play (.start trivial) _ hplay, hretires, Stage.eq_holding_of_block?_eq_some hblock, ?_,
    run_of_play (.start trivial) _ hafter, endsQuietly_of_close hcalling hloud, ?_⟩
  · rw [hid]
    exact hsegment
  · rw [hid, hserved]
    decide

end Machine
end StagingMemory
