import StagingMemory.Proofs.Transition
import StagingMemory.Resource.Call
/-!
A call on shared memory that runs with nobody else about ends. Between two pauses each step lowers
the number of steps left until the next pause or the end; a pause takes the clock's grain at least
and none begins after the deadline, so the number of pauses left goes down as well. Both together
are the call's budget. Main statements: a step that does not end the call lowers the budget
(`Call.budget_advance`), and what every step keeps holds of how the call ends (`runAlone_rule`).
-/
namespace StagingMemory

namespace Wait

/-- How many pauses may begin between now and the deadline. -/
def rounds (w : Wait) (now : Nat) : Nat := (w.deadline - now + Kernel.grain - 1) / Kernel.grain

theorem rounds_antitone (w : Wait) {now later : Nat} (h : now ≤ later) :
    w.rounds later ≤ w.rounds now := by
  unfold rounds
  exact Nat.div_le_div_right (by omega)

/-- A pause that begins before the deadline is one less to take. -/
theorem rounds_lt_of_pause {w : Wait} {k : Kernel} {length : Nat}
    (h : w.judge k.clock = .pause length) : w.rounds (k.pauseEnd length) < w.rounds k.clock := by
  have hbefore : k.clock < w.deadline := by
    unfold judge at h
    split at h
    · cases h
    · omega
  have hgrain : k.clock + Kernel.grain ≤ k.pauseEnd length := by
    unfold Kernel.pauseEnd
    omega
  have hone : w.rounds (k.clock + Kernel.grain) + 1 ≤ w.rounds k.clock := by
    unfold rounds Kernel.grain
    omega
  have hlater := w.rounds_antitone hgrain
  omega

/-- A wait that begins now has as many rounds as its time has grains. -/
theorem rounds_of_start?_eq_some {w : Wait} {now : Nat} {timeout interval : Duration}
    (h : start? now timeout interval = some w) :
    w.rounds now = (timeout.nanoseconds + Kernel.grain - 1) / Kernel.grain := by
  unfold start? at h
  dsimp only at h
  split at h
  · cases h
    simp only [rounds, Nat.add_sub_cancel_left]
  · cases h

end Wait

namespace Attach

/-- How many steps lie before the next pause or the end. -/
def burst : Phase → Nat
  | .findLeftover => 17
  | .measureLeftover _ => 16
  | .mapLeftover _ => 15
  | .checkLeftover _ => 14
  | .retireLeftover _ => 13
  | .removeLeftover => 12
  | .reportLeftover => 11
  | .create => 10
  | .resize _ => 9
  | .map _ => 8
  | .discard _ => 2
  | .claim _ => 7
  | .find _ => 15
  | .measure _ _ => 14
  | .mapFound _ _ _ => 13
  | .checkReady _ _ => 12
  | .checkOwner _ _ => 11
  | .checkLength _ _ => 10
  | .raiseLive _ _ => 9
  | .recheck _ _ => 8
  | .withdraw _ _ => 3
  | .raiseJoined _ => 7
  | .missed _ => 2
  | .pause _ _ => Call.longestBurst
  | .register _ => 6
  | .undo _ _ => 2
  | .publishBytes _ => 5
  | .publishJoined _ => 4
  | .publishLive _ => 3
  | .publishState _ => 2
  | .finish _ => 1
  | .fail _ => 1

def patience (now : Nat) : Phase → Nat
  | .find w | .measure w _ | .mapFound w _ _ | .checkReady w _ | .checkOwner w _
  | .checkLength w _ | .raiseLive w _ | .recheck w _ | .withdraw w _ | .missed w => w.rounds now
  | .pause w wake => w.rounds wake
  | _ => 0

def budget (now : Nat) (phase : Phase) : Nat := burst phase + Call.longestBurst * patience now phase

/-- A step that does not end the call lowers its budget, unless the call sleeps on. -/
theorem Transition.budget_lt {a : Attach} {phase next : Phase} {s t : Site}
    (h : Transition a phase s (.running next) t)
    (hawake : ∀ wake, wake? phase = some wake → wake ≤ s.kernel.clock) :
    budget t.kernel.clock next < budget s.kernel.clock phase := by
  have hclock := h.clock_eq
  rw [hclock]
  cases h with
  | waiting hpause =>
    have hrounds := Wait.rounds_lt_of_pause hpause
    simp only [budget, burst, patience, Call.longestBurst]
    omega
  | @woken _ w wake hwake =>
    have hrounds := w.rounds_antitone hwake
    simp only [budget, burst, patience, Call.longestBurst]
    omega
  | asleep hasleep =>
    have hle := hawake _ rfl
    omega
  | registered =>
    simp only [budget]
    split <;> simp [burst, patience]
  | _ =>
    simp only [budget, burst, patience]
    omega

end Attach

namespace Detach

def burst : Phase → Nat
  | .unregister => 9
  | .gather _ => 8
  | .readJoined _ _ => 7
  | .readLive _ _ _ => 6
  | .missed _ _ _ _ => 5
  | .pause _ _ _ => Call.longestBurst
  | .retire _ _ => 4
  | .unlink _ _ => 3
  | .leave _ _ _ => 2
  | .close _ _ _ => 1

def patience (d : Detach) (now : Nat) : Phase → Nat
  | .unregister | .gather _ =>
    (d.config.teardownTimeout.nanoseconds + Kernel.grain - 1) / Kernel.grain
  | .readJoined w _ | .readLive w _ _ | .missed w _ _ _ => w.rounds now
  | .pause w _ wake => w.rounds wake
  | _ => 0

def budget (d : Detach) (now : Nat) (phase : Phase) : Nat :=
  burst phase + Call.longestBurst * d.patience now phase

theorem Transition.budget_lt {d : Detach} {phase next : Phase} {s t : Site}
    (h : Transition d phase s (.running next) t)
    (hawake : ∀ wake, wake? phase = some wake → wake ≤ s.kernel.clock) :
    d.budget t.kernel.clock next < d.budget s.kernel.clock phase := by
  have hclock := h.clock_eq
  rw [hclock]
  cases h with
  | unregistered =>
    simp only [budget]
    split <;> simp only [burst, patience] <;> omega
  | patient hstart =>
    simp only [budget, burst, patience, Wait.rounds_of_start?_eq_some hstart]
    omega
  | waiting hpause =>
    have hrounds := Wait.rounds_lt_of_pause hpause
    simp only [budget, burst, patience, Call.longestBurst]
    omega
  | @woken _ w _ wake hwake =>
    have hrounds := w.rounds_antitone hwake
    simp only [budget, burst, patience, Call.longestBurst]
    omega
  | asleep hasleep =>
    have hle := hawake _ rfl
    omega
  | _ =>
    simp only [budget, burst, patience]
    omega

end Detach

namespace Call

/-- How many steps the call has left at most, when nobody else is about. -/
def budget (now : Nat) : Call → Nat
  | attach _ phase => Attach.budget now phase
  | detach d phase => d.budget now phase

def wakeUp (c : Call) (s : Site) : Site :=
  match c.wake? with
  | some wake => { s with kernel := s.kernel.passUntil wake }
  | none => s

theorem advance_eq (c : Call) (s : Site) : c.advance s = c.step (c.wakeUp s) := by
  unfold advance wakeUp
  cases c.wake? <;> rfl

theorem le_clock_wakeUp {c : Call} {wake : Nat} (h : c.wake? = some wake) (s : Site) :
    wake ≤ (c.wakeUp s).kernel.clock := by
  simp only [wakeUp, h, Kernel.passUntil]
  omega

theorem budget_wakeUp (c : Call) (s : Site) :
    c.budget (c.wakeUp s).kernel.clock ≤ c.budget s.kernel.clock := by
  unfold wakeUp
  cases h : c.wake? with
  | none => exact Nat.le_refl _
  | some wake =>
    cases c with
    | attach a phase => cases phase <;> simp_all [wake?, Attach.wake?, budget, Attach.budget,
        Attach.patience]
    | detach d phase => cases phase <;> simp_all [wake?, Detach.wake?, budget, Detach.budget,
        Detach.patience]

theorem budget_step {c next : Call} {s t : Site} (h : c.step s = (.running next, t))
    (hawake : ∀ wake, c.wake? = some wake → wake ≤ s.kernel.clock) :
    next.budget t.kernel.clock < c.budget s.kernel.clock := by
  cases c with
  | attach a phase =>
    have htransition := a.step_transition phase s
    cases hs : a.step phase s with
    | mk progress u =>
      simp only [step, ofAttach, hs] at h
      rw [hs] at htransition
      cases progress with
      | done o => cases h
      | running phase' =>
        cases h
        exact htransition.budget_lt hawake
  | detach d phase =>
    have htransition := d.step_transition phase s
    cases hs : d.step phase s with
    | mk progress u =>
      simp only [step, ofDetach, hs] at h
      rw [hs] at htransition
      cases progress with
      | done o => cases h
      | running phase' =>
        cases h
        exact htransition.budget_lt hawake

theorem budget_advance {c next : Call} {s t : Site} (h : c.advance s = (.running next, t)) :
    next.budget t.kernel.clock < c.budget s.kernel.clock := by
  rw [advance_eq] at h
  have hstep := budget_step h fun wake hwake => le_clock_wakeUp hwake s
  have hwake := c.budget_wakeUp s
  omega

end Call

def Reached (Keeps : Call → Site → Prop) (Ends : Outcome Reply → Site → Prop) :
    Progress Call Reply × Site → Prop
  | (.running next, t) => Keeps next t
  | (.done o, t) => Ends o t

theorem Reached.mono {Keeps : Call → Site → Prop} {Ends Ends' : Outcome Reply → Site → Prop}
    {result : Progress Call Reply × Site} (h : Reached Keeps Ends result)
    (hends : ∀ o t, Ends o t → Ends' o t) : Reached Keeps Ends' result := by
  obtain ⟨progress, t⟩ := result
  cases progress with
  | running next => exact h
  | done o => exact hends o t h

/-- Running a call alone: what every step keeps, and what it gives at the end, holds of the end, and
the end is reached within the budget. -/
theorem runAlone_rule (Keeps : Call → Site → Prop) (Ends : Outcome Reply → Site → Prop)
    (hstep : ∀ c s, Keeps c s → Reached Keeps Ends (c.advance s))
    (c : Call) (s : Site) (steps : Nat) (hbudget : c.budget s.kernel.clock < steps)
    (h : Keeps c s) : ∃ o t, runAlone steps (.running c, s) = (.done o, t) ∧ Ends o t := by
  induction steps generalizing c s with
  | zero => omega
  | succ steps ih =>
    have hadvance := hstep c s h
    cases heq : c.advance s with
    | mk progress t =>
      rw [heq] at hadvance
      simp only [runAlone, heq]
      cases progress with
      | done o => exact ⟨o, t, runAlone_done steps o t, hadvance⟩
      | running next =>
        have hlt := Call.budget_advance heq
        exact ih next t (by omega) hadvance

/-- What every step keeps holds as long as the call goes on. -/
theorem runAlone_keeps (Keeps : Call → Site → Prop)
    (hstep : ∀ c s, Keeps c s → Reached Keeps (fun _ _ => True) (c.advance s)) {steps : Nat}
    {c next : Call} {s t : Site} (hrun : runAlone steps (.running c, s) = (.running next, t))
    (h : Keeps c s) : Keeps next t := by
  induction steps generalizing c s with
  | zero =>
    cases hrun
    exact h
  | succ steps ih =>
    have hadvance := hstep c s h
    cases heq : c.advance s with
    | mk progress u =>
      rw [heq] at hadvance
      simp only [runAlone, heq] at hrun
      cases progress with
      | done o =>
        rw [runAlone_done] at hrun
        cases hrun
      | running after => exact ih hrun hadvance

/-- One step more is a step of the call that is under way by then. -/
theorem runAlone_succ {steps : Nat} {begun : Progress Call Reply × Site} {c : Call} {s : Site}
    (h : runAlone steps begun = (.running c, s)) : runAlone (steps + 1) begun = c.advance s := by
  induction steps generalizing begun with
  | zero =>
    cases h
    cases hadvance : c.advance s
    simp only [runAlone, hadvance]
  | succ steps ih =>
    obtain ⟨progress, t⟩ := begun
    cases progress with
    | running d => exact ih h
    | done o =>
      rw [runAlone_done] at h
      cases h

/-- A call that has ended stays as it ended. -/
theorem runAlone_of_le {steps more : Nat} {begun : Progress Call Reply × Site} {o : Outcome Reply}
    {s : Site} (h : runAlone steps begun = (.done o, s)) (hle : steps ≤ more) :
    runAlone more begun = (.done o, s) := by
  induction steps generalizing begun more with
  | zero =>
    cases h
    exact runAlone_done more o s
  | succ steps ih =>
    obtain ⟨progress, t⟩ := begun
    cases progress with
    | done =>
      rw [runAlone_done] at h ⊢
      exact h
    | running c =>
      obtain ⟨rest, rfl⟩ : ∃ rest, more = rest + 1 := ⟨more - 1, by omega⟩
      rw [runAlone] at h ⊢
      exact ih h (by omega)

namespace Attach

/-- The steps that a call may take suffice from its first phase on. -/
theorem budget_begin {a : Attach} {phase : Phase} {s t : Site}
    (h : a.begin s = (.running phase, t)) :
    budget t.kernel.clock phase < (Call.attach a phase).stepBound := by
  unfold begin at h
  split at h
  · cases h
    simp only [budget, burst, patience, Call.stepBound, Call.longestBurst, Kernel.grain]
    omega
  · split at h
    · cases h
      split <;> simp only [budget, burst, patience, Call.stepBound, Call.longestBurst,
        Kernel.grain] <;> omega
    · split at h
      case h_1 w hstart =>
        cases h
        have hrounds := Wait.rounds_of_start?_eq_some hstart
        simp only [budget, burst, patience, Call.stepBound, Call.longestBurst, Call.timeout,
          Kernel.grain] at hrounds ⊢
        omega
      case h_2 => cases h

end Attach

namespace Detach

theorem budget_begin {d : Detach} {phase : Phase} {s t : Site}
    (h : d.begin s = (.running phase, t)) :
    d.budget t.kernel.clock phase < (Call.detach d phase).stepBound := by
  cases h
  simp only [budget, burst, patience, Call.stepBound, Call.longestBurst, Call.timeout,
    Kernel.grain]
  omega

end Detach

namespace Resource

theorem budget_beginAllocate {config : SharingConfig} {device : Device} {account : Nat}
    {bytes : UInt64} {s t : Site} {c : Call}
    (h : (⟨.shared config, device, account⟩ : Resource).beginAllocate bytes s = (.running c, t)) :
    c.budget t.kernel.clock < c.stepBound := by
  unfold beginAllocate at h
  split at h
  · cases h
  · dsimp only at h
    cases hbegin : (⟨config, device, account, bytes⟩ : Attach).begin s with
    | mk progress u =>
      rw [hbegin] at h
      cases progress with
      | done o => cases h
      | running phase =>
        cases h
        exact Attach.budget_begin hbegin

end Resource
end StagingMemory
