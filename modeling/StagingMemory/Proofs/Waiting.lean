import StagingMemory.Proofs.Looking
/-!
Both waits are bounded and never give up early. A follower that waits for a segment and a leader
that waits for the others keep the same watch: they look, read the clock when there was nothing to
see, and pause before they look again. A log of what the looks came to and of what the clock read
says all there is to say about such a watch, whatever goes on elsewhere and however long the sleeps
last, as long as no sleep ends before its time. Main statements: every step of a watch is logged
(`Watch.Lawful.logged`), the log says how the wait stands (`Wait.Logged.kept`), both waits are such
watches (`waits_bounded`), and a course of either call is watched until its wait is over
(`Attach.watched_of_course`, `Detach.watched_of_course`).
-/
namespace StagingMemory

universe u v w

namespace Wait

/-! ### Logs -/

inductive Event (ρ : Type u) where
  /-- A look came to something. -/
  | saw (r : ρ)
  /-- The clock was read. -/
  | read (now : Nat)

namespace Event

variable {ρ : Type u}

def sight? : Event ρ → Option ρ
  | saw r => some r
  | read _ => none

def reading? : Event ρ → Option Nat
  | saw _ => none
  | read now => some now

end Event

/-- How a wait stands: in the middle of a look, after one that came to nothing, asleep, or over. -/
inductive Stance (ρ : Type u) where
  | looking
  | missed (r : ρ)
  | paused (wake : Nat)
  | found (r : ρ)
  | expired (r : ρ) (waited : Duration)

namespace Stance

variable {ρ : Type u}

def isOver : Stance ρ → Bool
  | found _ | expired _ _ => true
  | _ => false

end Stance

section

variable {ρ : Type u}

def sights (log : List (Event ρ)) : List ρ := log.filterMap Event.sight?

def readings (log : List (Event ρ)) : List Nat := log.filterMap Event.reading?

def pause? (w : Wait) (now : Nat) : Option Nat :=
  match w.judge now with
  | .expired _ => none
  | .pause length => some length

def pauses (w : Wait) (log : List (Event ρ)) : List Nat := (readings log).filterMap w.pause?

@[simp] theorem sights_saw (r : ρ) (log : List (Event ρ)) :
    sights (.saw r :: log) = r :: sights log := rfl

@[simp] theorem sights_read (now : Nat) (log : List (Event ρ)) :
    sights (.read now :: log) = sights log := rfl

@[simp] theorem readings_saw (r : ρ) (log : List (Event ρ)) :
    readings (.saw r :: log) = readings log := rfl

@[simp] theorem readings_read (now : Nat) (log : List (Event ρ)) :
    readings (.read now :: log) = now :: readings log := rfl

@[simp] theorem pauses_saw (w : Wait) (r : ρ) (log : List (Event ρ)) :
    w.pauses (.saw r :: log) = w.pauses log := rfl

theorem pauses_read (w : Wait) (now : Nat) (log : List (Event ρ)) :
    w.pauses (.read now :: log) = (w.pause? now).toList ++ w.pauses log := by
  simp only [pauses, readings_read, List.filterMap_cons]
  cases w.pause? now <;> rfl

/-- A log of rounds in which there was nothing to see. The next look begins at the given time or
later. -/
inductive Rounds (w : Wait) (Nothing : ρ → Prop) : List (Event ρ) → Nat → Prop
  | start : Rounds w Nothing [] w.started
  | more {log : List (Event ρ)} {earliest now length : Nat} {r : ρ}
      (h : Rounds w Nothing log earliest) (hr : Nothing r) (hlater : earliest ≤ now)
      (hpause : w.judge now = .pause length) :
      Rounds w Nothing (.read now :: .saw r :: log) (now + length)

inductive Logged (w : Wait) (Nothing : ρ → Prop) (now : Nat) : Stance ρ → List (Event ρ) → Prop
  | looking {log : List (Event ρ)} {earliest : Nat} (h : w.Rounds Nothing log earliest)
      (hnow : earliest ≤ now) : Logged w Nothing now .looking log
  | missed {log : List (Event ρ)} {earliest : Nat} {r : ρ} (h : w.Rounds Nothing log earliest)
      (hnow : earliest ≤ now) (hr : Nothing r) : Logged w Nothing now (.missed r) (.saw r :: log)
  | paused {log : List (Event ρ)} {earliest last wake : Nat}
      (h : w.Rounds Nothing (.read last :: log) earliest) (hwake : earliest ≤ wake) :
      Logged w Nothing now (.paused wake) (.read last :: log)
  | found {log : List (Event ρ)} {earliest : Nat} {r : ρ} (h : w.Rounds Nothing log earliest)
      (hr : ¬ Nothing r) : Logged w Nothing now (.found r) (.saw r :: log)
  | expired {log : List (Event ρ)} {earliest last : Nat} {r : ρ}
      (h : w.Rounds Nothing log earliest) (hr : Nothing r) (hlast : w.deadline ≤ last) :
      Logged w Nothing now (.expired r ⟨last - w.started⟩) (.read last :: .saw r :: log)

structure Kept (w : Wait) (Nothing : ρ → Prop) (log : List (Event ρ)) (stance : Stance ρ) :
    Prop where
  /-- The first look that does not come to nothing ends the wait, and nothing else makes it find
  something. -/
  found_iff : ∀ r, stance = .found r ↔ (sights log).head? = some r ∧ ¬ Nothing r
  missed : ∀ r ∈ (sights log).tail, Nothing r
  /-- So does the first reading at or after the deadline, and nothing else makes it give up. -/
  expired_iff : ∀ r waited, stance = .expired r waited ↔ (sights log).head? = some r ∧
    ∃ now, (readings log).head? = some now ∧ w.deadline ≤ now ∧ waited = ⟨now - w.started⟩
  early : ∀ now ∈ (readings log).tail, now < w.deadline
  /-- It gives up only when every look came to nothing, and not before its time. -/
  patient : ∀ r waited, stance = .expired r waited →
    (∀ seen ∈ sights log, Nothing seen) ∧ w.deadline - w.started ≤ waited.nanoseconds
  /-- Looks and readings take turns, beginning with a look. -/
  alternate : log.IsChain fun newer older => newer.sight?.isSome ≠ older.sight?.isSome
  first : ∀ event ∈ log.getLast?, event.sight?.isSome = true
  /-- After every pause there was another look. -/
  again : stance.isOver = true → (sights log).length = (w.pauses log).length + 1
  /-- No pause reaches past the deadline, and all together they are no longer than the wait. -/
  within : ∀ now ∈ readings log, ∀ length, w.pause? now = some length → now + length ≤ w.deadline
  total_le : (w.pauses log).sum ≤ w.deadline - w.started

theorem pause?_eq_some_iff {w : Wait} {now length : Nat} :
    w.pause? now = some length ↔ w.judge now = .pause length := by
  unfold pause?
  cases w.judge now <;> simp

theorem lt_deadline_of_pause {w : Wait} {now length : Nat} (h : w.judge now = .pause length) :
    now < w.deadline := by
  unfold judge at h
  split at h
  · cases h
  · omega

theorem judge_of_le {w : Wait} {now : Nat} (h : w.deadline ≤ now) :
    w.judge now = .expired ⟨now - w.started⟩ := if_pos h

namespace Rounds

variable {w : Wait} {Nothing : ρ → Prop} {log : List (Event ρ)} {earliest : Nat}

theorem sights_nothing (h : w.Rounds Nothing log earliest) : ∀ r ∈ sights log, Nothing r := by
  induction h with
  | start => simp [sights]
  | more _ hr _ _ ih => simpa using ⟨hr, ih⟩

theorem readings_lt (h : w.Rounds Nothing log earliest) :
    ∀ now ∈ readings log, now < w.deadline := by
  induction h with
  | start => simp [readings]
  | more _ _ _ hpause ih => simpa using ⟨lt_deadline_of_pause hpause, ih⟩

theorem not_deadline_le (h : w.Rounds Nothing log earliest) {now : Nat}
    (hhead : (readings log).head? = some now) : ¬ w.deadline ≤ now :=
  Nat.not_le.mpr (h.readings_lt now (List.mem_of_mem_head? hhead))

/-- Each pause begins when the one before it is over, or later. -/
theorem started_add_le (h : w.Rounds Nothing log earliest) :
    w.started + (w.pauses log).sum ≤ earliest := by
  induction h with
  | start => simp [pauses, readings]
  | more _ _ hlater hpause ih =>
    rw [pauses_read, pause?_eq_some_iff.mpr hpause, pauses_saw]
    simp only [Option.toList_some, List.cons_append, List.nil_append, List.sum_cons]
    omega

theorem earliest_le (hstarted : w.started ≤ w.deadline) (h : w.Rounds Nothing log earliest) :
    earliest ≤ w.deadline := by
  cases h with
  | start => exact hstarted
  | more _ _ _ hpause => exact add_le_deadline_of_judge_eq_pause hpause

theorem length_sights (h : w.Rounds Nothing log earliest) :
    (sights log).length = (w.pauses log).length := by
  induction h with
  | start => rfl
  | more _ _ _ hpause ih =>
    rw [pauses_read, pause?_eq_some_iff.mpr hpause, pauses_saw]
    simpa using ih

theorem chain_saw (h : w.Rounds Nothing log earliest) (r : ρ) :
    (Event.saw r :: log).IsChain fun newer older => newer.sight?.isSome ≠ older.sight?.isSome := by
  induction h generalizing r with
  | start => exact .singleton _
  | more _ _ _ _ ih =>
    exact .cons_cons (by simp [Event.sight?]) (.cons_cons (by simp [Event.sight?]) (ih _))

theorem first_saw (h : w.Rounds Nothing log earliest) (r : ρ) :
    ∀ event ∈ (Event.saw r :: log).getLast?, event.sight?.isSome = true := by
  induction h generalizing r with
  | start => simp [Event.sight?]
  | more _ _ _ _ ih =>
    rw [List.getLast?_cons_cons, List.getLast?_cons_cons]
    exact ih _

theorem chain (h : w.Rounds Nothing log earliest) :
    log.IsChain fun newer older => newer.sight?.isSome ≠ older.sight?.isSome := by
  cases h with
  | start => exact .nil
  | more h _ _ _ => exact .cons_cons (by simp [Event.sight?]) (h.chain_saw _)

theorem first (h : w.Rounds Nothing log earliest) :
    ∀ event ∈ log.getLast?, event.sight?.isSome = true := by
  cases h with
  | start => simp
  | more h _ _ _ =>
    rw [List.getLast?_cons_cons]
    exact h.first_saw _

theorem total_le (hstarted : w.started ≤ w.deadline) (h : w.Rounds Nothing log earliest) :
    (w.pauses log).sum ≤ w.deadline - w.started := by
  have hsum := h.started_add_le
  have hdeadline := h.earliest_le hstarted
  omega

variable {stance : Stance ρ}

theorem add_le_deadline_of_pause? {now length : Nat} (h : w.pause? now = some length) :
    now + length ≤ w.deadline :=
  add_le_deadline_of_judge_eq_pause (pause?_eq_some_iff.mp h)

/-- Between two rounds. -/
theorem kept (hstarted : w.started ≤ w.deadline) (h : w.Rounds Nothing log earliest)
    (hover : stance.isOver = false) : w.Kept Nothing log stance where
  found_iff r := by
    refine ⟨?_, fun ⟨hhead, hr⟩ => ?_⟩
    · rintro rfl
      cases hover
    · exact absurd (h.sights_nothing r (List.mem_of_mem_head? hhead)) hr
  missed r hr := h.sights_nothing r (List.mem_of_mem_tail hr)
  expired_iff r waited := by
    refine ⟨?_, fun ⟨_, now, hhead, hlate, _⟩ => ?_⟩
    · rintro rfl
      cases hover
    · exact absurd hlate (h.not_deadline_le hhead)
  early now hnow := h.readings_lt now (List.mem_of_mem_tail hnow)
  patient r waited heq := by
    subst heq
    cases hover
  alternate := h.chain
  first := h.first
  again htrue := by
    rw [hover] at htrue
    cases htrue
  within _ _ _ hpause := add_le_deadline_of_pause? hpause
  total_le := h.total_le hstarted

/-- After a look that came to nothing. -/
theorem kept_missed (hstarted : w.started ≤ w.deadline) (h : w.Rounds Nothing log earliest) {r : ρ}
    (hr : Nothing r) : w.Kept Nothing (.saw r :: log) (.missed r) where
  found_iff r' := by
    refine ⟨nofun, fun ⟨hhead, hr'⟩ => ?_⟩
    cases hhead
    exact absurd hr hr'
  missed := h.sights_nothing
  expired_iff r' waited := by
    refine ⟨nofun, fun ⟨_, now, hhead, hlate, _⟩ => ?_⟩
    exact absurd hlate (h.not_deadline_le hhead)
  early now hnow := h.readings_lt now (List.mem_of_mem_tail hnow)
  patient _ _ := nofun
  alternate := h.chain_saw r
  first := h.first_saw r
  again := nofun
  within _ _ _ hpause := add_le_deadline_of_pause? hpause
  total_le := (pauses_saw w r log).symm ▸ h.total_le hstarted

/-- After the look that ends the wait. -/
theorem kept_found (hstarted : w.started ≤ w.deadline) (h : w.Rounds Nothing log earliest) {r : ρ}
    (hr : ¬ Nothing r) : w.Kept Nothing (.saw r :: log) (.found r) where
  found_iff r' := by
    refine ⟨fun heq => ?_, fun ⟨hhead, _⟩ => ?_⟩
    · cases heq
      exact ⟨rfl, hr⟩
    · cases hhead
      rfl
  missed := h.sights_nothing
  expired_iff r' waited := by
    refine ⟨nofun, fun ⟨_, now, hhead, hlate, _⟩ => ?_⟩
    exact absurd hlate (h.not_deadline_le hhead)
  early now hnow := h.readings_lt now (List.mem_of_mem_tail hnow)
  patient _ _ := nofun
  alternate := h.chain_saw r
  first := h.first_saw r
  again _ := congrArg Nat.succ h.length_sights
  within _ _ _ hpause := add_le_deadline_of_pause? hpause
  total_le := (pauses_saw w r log).symm ▸ h.total_le hstarted

/-- After the reading that ends the wait. -/
theorem kept_expired (hstarted : w.started ≤ w.deadline) (h : w.Rounds Nothing log earliest) {r : ρ}
    {last : Nat} (hr : Nothing r) (hlast : w.deadline ≤ last) :
    w.Kept Nothing (.read last :: .saw r :: log) (.expired r ⟨last - w.started⟩) := by
  have hpause : w.pause? last = none := by
    unfold pause?
    rw [judge_of_le hlast]
  have hpauses : w.pauses (.read last :: .saw r :: log) = w.pauses log := by
    rw [pauses_read, hpause]
    rfl
  refine
    { found_iff := fun r' => ⟨nofun, fun ⟨hhead, hr'⟩ => ?_⟩
      missed := h.sights_nothing
      expired_iff := fun r' waited => ⟨fun heq => ?_, fun ⟨hhead, now, hnow, _, hwaited⟩ => ?_⟩
      early := h.readings_lt
      patient := fun r' waited heq => ?_
      alternate := .cons_cons (by simp [Event.sight?]) (h.chain_saw r)
      first := by
        rw [List.getLast?_cons_cons]
        exact h.first_saw r
      again := fun _ => by
        rw [hpauses]
        exact congrArg Nat.succ h.length_sights
      within := fun _ _ _ hp => add_le_deadline_of_pause? hp
      total_le := by
        rw [hpauses]
        exact h.total_le hstarted }
  · cases hhead
    exact absurd hr hr'
  · cases heq
    exact ⟨rfl, last, rfl, hlast, rfl⟩
  · cases hhead
    cases hnow
    rw [hwaited]
  · cases heq
    refine ⟨?_, Nat.sub_le_sub_right hlast _⟩
    simpa using ⟨hr, h.sights_nothing⟩

end Rounds

/-- Whatever a wait's log is, it says how the wait stands. -/
theorem Logged.kept {w : Wait} {Nothing : ρ → Prop} {log : List (Event ρ)} {now : Nat}
    {stance : Stance ρ} (hstarted : w.started ≤ w.deadline)
    (h : w.Logged Nothing now stance log) : w.Kept Nothing log stance := by
  cases h with
  | looking hrounds => exact hrounds.kept hstarted rfl
  | missed hrounds _ hr => exact hrounds.kept_missed hstarted hr
  | paused hrounds => exact hrounds.kept hstarted rfl
  | found hrounds hr => exact hrounds.kept_found hstarted hr
  | expired hrounds hr hlast => exact hrounds.kept_expired hstarted hr hlast

end

end Wait

/-- No step takes time. -/
theorem Call.clock_step (c : Call) (s : Site) : (c.step s).2.kernel.clock = s.kernel.clock := by
  cases c with
  | attach a phase => exact (a.step_transition phase s).clock_eq
  | detach d phase => exact (d.step_transition phase s).clock_eq

/-- A call that waits: its steps, by what it waits, how it stands in each phase, what a step of a
look comes to, and what counts as nothing to see. -/
structure Watch (φ : Type u) (α : Type v) (ρ : Type w) where
  step : φ → Site → Progress φ α × Site
  wait : Wait
  Stands : φ → Wait.Stance ρ → Prop
  glimpse? : φ → Site → Option ρ
  Nothing : ρ → Prop

open Wait

/-- A watch among other calls, with its log: between two steps anything may happen elsewhere, and
the clock goes on or stands still. A call that sleeps goes on, as it does at the latest when its
time has come, at any moment at which it has slept as long as it asked for. -/
inductive Vigil {φ : Type u} {α : Type v} {ρ : Type w} (watch : Watch φ α ρ)
    (begun : Progress φ α × Site) : List (Event ρ) → φ → Site → Prop
  | begin {phase : φ} {s : Site} (h : begun = (.running phase, s)) :
      Vigil watch begun [] phase s
  | look {log : List (Event ρ)} {phase next : φ} {s t u : Site} (h : Vigil watch begun log phase s)
      (hlooking : watch.Stands phase .looking) (hclock : s.kernel.clock ≤ t.kernel.clock)
      (hstep : watch.step phase t = (.running next, u)) :
      Vigil watch begun ((watch.glimpse? phase t).toList.map .saw ++ log) next u
  | read {log : List (Event ρ)} {phase next : φ} {s t u : Site} {r : ρ}
      (h : Vigil watch begun log phase s) (hmissed : watch.Stands phase (.missed r))
      (hclock : s.kernel.clock ≤ t.kernel.clock)
      (hstep : watch.step phase t = (.running next, u)) :
      Vigil watch begun (.read t.kernel.clock :: log) next u
  | sleep {log : List (Event ρ)} {phase next : φ} {s t late u : Site} {now length wake : Nat}
      (h : Vigil watch begun (.read now :: log) phase s)
      (hpaused : watch.Stands phase (.paused wake)) (hpause : watch.wait.judge now = .pause length)
      (hslept : now + length ≤ t.kernel.clock) (hlate : wake ≤ late.kernel.clock)
      (hwoken : watch.step phase late = (.running next, u)) :
      Vigil watch begun (.read now :: log) next t

namespace Watch

variable {φ : Type u} {α : Type v} {ρ : Type w}

structure Lawful (watch : Watch φ α ρ) : Prop where
  looks : ∀ {phase next : φ} {s t : Site}, watch.Stands phase .looking →
    watch.step phase s = (.running next, t) →
      t.kernel.clock = s.kernel.clock ∧
        match watch.glimpse? phase s with
        | none => watch.Stands next .looking
        | some r => (watch.Nothing r ∧ watch.Stands next (.missed r)) ∨
          (¬ watch.Nothing r ∧ watch.Stands next (.found r))
  judges : ∀ {phase next : φ} {s t : Site} {r : ρ}, watch.Stands phase (.missed r) →
    watch.step phase s = (.running next, t) →
      t.kernel.clock = s.kernel.clock ∧
        match watch.wait.judge s.kernel.clock with
        | .expired waited => watch.Stands next (.expired r waited)
        | .pause length => watch.Stands next (.paused (s.kernel.pauseEnd length))
  wakes : ∀ {phase next : φ} {s t : Site} {wake : Nat}, watch.Stands phase (.paused wake) →
    wake ≤ s.kernel.clock → watch.step phase s = (.running next, t) →
      t = s ∧ watch.Stands next .looking
  sleeps : ∀ {phase : φ} {s : Site} {wake : Nat}, watch.Stands phase (.paused wake) →
    s.kernel.clock < wake → watch.step phase s = (.running phase, s)
  /-- While the wait goes on, so does the call, -/
  goes : ∀ {phase : φ} {stance : Stance ρ}, watch.Stands phase stance → stance.isOver = false →
    ∀ s, ∃ next t, watch.step phase s = (.running next, t)
  /-- and the phase says how it stands. -/
  unique : ∀ {phase : φ} {stance other : Stance ρ}, watch.Stands phase stance →
    stance.isOver = false → watch.Stands phase other → other = stance

variable {watch : Watch φ α ρ} {begun : Progress φ α × Site}

/-- **Every step of a watch is logged.** -/
theorem Lawful.logged (hlawful : watch.Lawful)
    (hbegun : ∀ phase s, begun = (.running phase, s) →
      watch.Stands phase .looking ∧ watch.wait.started ≤ s.kernel.clock)
    {log : List (Event ρ)} {phase : φ} {s : Site} (h : Vigil watch begun log phase s) :
    ∃ stance, watch.Stands phase stance ∧
      watch.wait.Logged watch.Nothing s.kernel.clock stance log := by
  induction h with
  | begin h =>
    obtain ⟨hstands, hclock⟩ := hbegun _ _ h
    exact ⟨.looking, hstands, .looking .start hclock⟩
  | look _ hlooking hclock hstep ih =>
    obtain ⟨stance, hstands, hlogged⟩ := ih
    have heq := hlawful.unique hlooking rfl hstands
    subst heq
    obtain ⟨hsame, hnext⟩ := hlawful.looks hlooking hstep
    rw [hsame]
    cases hlogged with
    | looking hrounds hnow =>
      cases hsight : watch.glimpse? _ _ with
      | none =>
        rw [hsight] at hnext
        exact ⟨.looking, hnext, .looking hrounds (Nat.le_trans hnow hclock)⟩
      | some r =>
        rw [hsight] at hnext
        rcases hnext with ⟨hr, hstands'⟩ | ⟨hr, hstands'⟩
        · exact ⟨.missed r, hstands', .missed hrounds (Nat.le_trans hnow hclock) hr⟩
        · exact ⟨.found r, hstands', .found hrounds hr⟩
  | @read _ _ _ _ t _ r _ hmissed hclock hstep ih =>
    obtain ⟨stance, hstands, hlogged⟩ := ih
    have heq := hlawful.unique hmissed rfl hstands
    subst heq
    obtain ⟨hsame, hnext⟩ := hlawful.judges hmissed hstep
    rw [hsame]
    cases hlogged with
    | missed hrounds hnow hr =>
      by_cases hlate : watch.wait.deadline ≤ t.kernel.clock
      · rw [judge_of_le hlate] at hnext
        exact ⟨_, hnext, .expired hrounds hr hlate⟩
      · have hpause : watch.wait.judge t.kernel.clock = .pause _ := if_neg hlate
        rw [hpause] at hnext
        refine ⟨_, hnext, .paused (.more hrounds hr (Nat.le_trans hnow hclock) hpause) ?_⟩
        exact Nat.add_le_add_left (Nat.le_max_left _ _) _
  | sleep _ hpaused hpause hslept hlate hwoken ih =>
    obtain ⟨stance, hstands, hlogged⟩ := ih
    have heq := hlawful.unique hpaused rfl hstands
    subst heq
    refine ⟨.looking, (hlawful.wakes hpaused hlate hwoken).2, ?_⟩
    cases hlogged with
    | paused hrounds _ =>
      cases hrounds with
      | more hrounds hr hlater hpause' =>
        -- The pause that the log ends with is the one that the sleeper asked for.
        have hlength := hpause'.symm.trans hpause
        cases hlength
        exact .looking (.more hrounds hr hlater hpause) hslept

/-- Whenever a call that waits takes a step, and does not sleep on, its watch goes on. -/
theorem Lawful.vigil_of_step (hlawful : watch.Lawful)
    (hbegun : ∀ phase s, begun = (.running phase, s) →
      watch.Stands phase .looking ∧ watch.wait.started ≤ s.kernel.clock)
    {log : List (Event ρ)} {phase next : φ} {s t u : Site} (h : Vigil watch begun log phase s)
    {stance : Stance ρ} (hstands : watch.Stands phase stance) (hover : stance.isOver = false)
    (hclock : s.kernel.clock ≤ t.kernel.clock)
    (hawake : ∀ wake, stance = .paused wake → wake ≤ t.kernel.clock)
    (hstep : watch.step phase t = (.running next, u)) :
    ∃ more, Vigil watch begun (more ++ log) next u := by
  cases stance with
  | looking => exact ⟨_, .look h hstands hclock hstep⟩
  | missed r => exact ⟨[_], .read h hstands hclock hstep⟩
  | paused wake =>
    obtain ⟨other, hother, hlogged⟩ := hlawful.logged hbegun h
    have heq := hlawful.unique hstands rfl hother
    subst heq
    have hwake := hawake wake rfl
    obtain ⟨rfl, -⟩ := hlawful.wakes hstands hwake hstep
    cases hlogged with
    | paused hrounds hearliest =>
      cases hrounds with
      | more _ _ _ hpause =>
        exact ⟨[], .sleep h hstands hpause (Nat.le_trans hearliest hwake) hwake hstep⟩
  | found r => cases hover
  | expired r waited => cases hover

/-- The watch has come to where the call is, or its wait is over. -/
def Watched (watch : Watch φ α ρ) (begun : Progress φ α × Site) (call : φ → Call) (c : Call)
    (s : Site) : Prop :=
  ∃ log phase u, Vigil watch begun log phase u ∧ u.kernel.clock ≤ s.kernel.clock ∧
    (c = call phase ∨ ∃ stance, watch.Stands phase stance ∧ stance.isOver = true)

/-- A call is watched in all of its courses, so watches are its runs, and runs with shorter
sleeps. -/
theorem Lawful.watched_of_course (hlawful : watch.Lawful)
    (hbegun : ∀ phase s, begun = (.running phase, s) →
      watch.Stands phase .looking ∧ watch.wait.started ≤ s.kernel.clock)
    {call : φ → Call} (hcall : ∀ phase next s t, watch.step phase s = (.running next, t) →
      (call phase).step s = (.running (call next), t))
    {start : Progress Call Reply × Site} (hstart : ∀ c s, start = (.running c, s) →
      ∃ phase, c = call phase ∧ begun = (.running phase, s))
    {steps : List (Call × Site)} {c : Call} {s : Site}
    (h : Course (fun s t => s.kernel.clock ≤ t.kernel.clock) start steps (.running c, s)) :
    watch.Watched begun call c s := by
  refine Course.rule (fun _ => watch.Watched begun call) (fun _ _ _ => True) ?_ ?_ ?_ h
  · obtain ⟨progress, s⟩ := start
    cases progress with
    | done => trivial
    | running c =>
      obtain ⟨phase, hc, hbegin⟩ := hstart c s rfl
      exact ⟨[], phase, s, .begin hbegin, Nat.le_refl _, Or.inl hc⟩
  · rintro _ c s t ⟨log, phase, u, hvigil, hclock, hcome⟩ hlater
    exact ⟨log, phase, u, hvigil, Nat.le_trans hclock hlater, hcome⟩
  · rintro _ c s ⟨log, phase, u, hvigil, hclock, hcome⟩
    obtain ⟨stance, hstands, -⟩ := hlawful.logged hbegun hvigil
    cases hover : stance.isOver with
    | true =>
      have hstill := c.clock_step s
      rcases hstep : c.step s with ⟨progress, t⟩
      rw [hstep] at hstill
      cases progress with
      | done => trivial
      | running => exact ⟨log, phase, u, hvigil, hstill ▸ hclock, Or.inr ⟨stance, hstands, hover⟩⟩
    | false =>
      obtain rfl | ⟨other, hother, hover'⟩ := hcome
      · by_cases hasleep : ∃ wake, stance = .paused wake ∧ s.kernel.clock < wake
        · obtain ⟨wake, rfl, hlt⟩ := hasleep
          rw [hcall _ _ _ _ (hlawful.sleeps hstands hlt)]
          exact ⟨log, phase, u, hvigil, hclock, Or.inl rfl⟩
        · obtain ⟨next, t, hstep⟩ := hlawful.goes hstands hover s
          obtain ⟨more, hvigil'⟩ := hlawful.vigil_of_step hbegun hvigil hstands hover hclock
            (fun wake hwake => Nat.not_lt.mp fun hlt => hasleep ⟨wake, hwake, hlt⟩) hstep
          rw [hcall _ _ _ _ hstep]
          exact ⟨more ++ log, next, t, hvigil', Nat.le_refl _, Or.inl rfl⟩
      · cases hlawful.unique hstands hover hother
        cases hover.symm.trans hover'

end Watch

namespace Attach

inductive Shows (a : Attach) (w : Wait) : Phase → Stance Sight → Prop
  | find : Shows a w (.find w) .looking
  | measure {id : SegmentId} : Shows a w (.measure w id) .looking
  | mapFound {id : SegmentId} {length : Nat} : Shows a w (.mapFound w id length) .looking
  | checkReady {m : Mapping} : Shows a w (.checkReady w m) .looking
  | checkOwner {m : Mapping} : Shows a w (.checkOwner w m) .looking
  | checkLength {m : Mapping} : Shows a w (.checkLength w m) .looking
  | raiseLive {m : Mapping} : Shows a w (.raiseLive w m) .looking
  | recheck {m : Mapping} : Shows a w (.recheck w m) .looking
  | withdraw {m : Mapping} : Shows a w (.withdraw w m) .looking
  | raiseJoined {m : Mapping} : Shows a w (.raiseJoined m) .looking
  | missed : Shows a w (.missed w) (.missed (.ok none))
  | pause {wake : Nat} : Shows a w (.pause w wake) (.paused wake)
  | joined {m : Mapping} : Shows a w (.register m) (.found (.ok (some m)))
  | failed {error : AllocationError}
      (h : ∀ name waited, error ≠ .bootstrapTimedOut name waited) :
      Shows a w (.fail error) (.found (.error error))
  | timedOut {waited : Duration} :
      Shows a w (.fail (.bootstrapTimedOut a.config.segment waited)) (.expired (.ok none) waited)

def watch (a : Attach) (w : Wait) : Watch Phase Result Sight where
  step := a.step
  wait := w
  Stands := a.Shows w
  glimpse? phase s := match (a.step phase s).1 with
    | .running next => sight? next
    | .done _ => none
  Nothing seen := seen = .ok none

/-- A step of a look goes on with it, or ends it as the next phase says. -/
theorem Shows.look {a : Attach} {w : Wait} {phase next : Phase} {s t : Site}
    (h : a.Shows w phase .looking) (htrans : Transition a phase s (.running next) t) :
    match sight? next with
    | none => a.Shows w next .looking
    | some seen => (seen = .ok none ∧ a.Shows w next (.missed seen)) ∨
        (¬ seen = .ok none ∧ a.Shows w next (.found seen)) := by
  cases h with
  | find =>
    cases htrans with
    | found => exact .measure
    | absent => exact .inl ⟨rfl, .missed⟩
    | unopened => exact .inr ⟨nofun, .failed nofun⟩
  | measure =>
    cases htrans with
    | short => exact .inl ⟨rfl, .missed⟩
    | sized => exact .mapFound
  | mapFound =>
    cases htrans with
    | foundMapped => exact .checkReady
    | foundUnmapped => exact .inr ⟨nofun, .failed nofun⟩
  | checkReady =>
    cases htrans with
    | ready => exact .checkOwner
    | unready => exact .inl ⟨rfl, .missed⟩
  | checkOwner =>
    cases htrans with
    | owned => exact .checkLength
    | orphaned => exact .inl ⟨rfl, .missed⟩
  | checkLength =>
    cases htrans with
    | matched => exact .raiseLive
    | mismatched => exact .inr ⟨nofun, .failed nofun⟩
  | raiseLive =>
    cases htrans with
    | raised => exact .recheck
  | recheck =>
    cases htrans with
    | confirmed => exact .raiseJoined
    | refused => exact .withdraw
  | withdraw =>
    cases htrans with
    | withdrawn => exact .inl ⟨rfl, .missed⟩
  | raiseJoined =>
    cases htrans with
    | joined => exact .inr ⟨nofun, .joined⟩

theorem transition_of_step {a : Attach} {phase next : Phase} {s t : Site}
    (h : a.step phase s = (.running next, t)) : Transition a phase s (.running next) t := by
  have htrans := a.step_transition phase s
  rwa [h] at htrans

theorem lawful_watch (a : Attach) (w : Wait) : (a.watch w).Lawful where
  looks {phase next s t} hstands hstep := by
    have hstep' : a.step phase s = (.running next, t) := hstep
    have htrans := transition_of_step hstep'
    refine ⟨htrans.clock_eq, ?_⟩
    have hsight : (a.watch w).glimpse? phase s = sight? next := by
      simp only [watch, hstep']
    have hlook := Shows.look hstands htrans
    rw [hsight]
    cases hseen : sight? next with
    | none =>
      rw [hseen] at hlook
      exact hlook
    | some seen =>
      rw [hseen] at hlook
      exact hlook
  judges {phase next s t seen} hstands hstep := by
    have htrans := transition_of_step (a := a) hstep
    refine ⟨htrans.clock_eq, ?_⟩
    cases hstands with
    | missed =>
      cases htrans with
      | expired h =>
        rw [show (a.watch w).wait.judge s.kernel.clock = _ from h]
        exact .timedOut
      | waiting h =>
        rw [show (a.watch w).wait.judge s.kernel.clock = _ from h]
        exact .pause
  wakes {phase next s t wake} hstands hlate hstep := by
    have htrans := transition_of_step (a := a) hstep
    cases hstands with
    | pause =>
      cases htrans with
      | woken => exact ⟨rfl, .find⟩
      | asleep h => exact absurd hlate (Nat.not_le.mpr h)
  sleeps {phase s wake} hstands hlt := by
    cases hstands with
    | pause => simp [watch, step, stepFind, hlt]
  goes {phase stance} hstands hover s := by
    cases hstep : a.step phase s with
    | mk progress t =>
      cases progress with
      | running next => exact ⟨next, t, hstep⟩
      | done o =>
        have htrans := a.step_transition phase s
        rw [hstep] at htrans
        change Transition a phase s (.done o) t at htrans
        cases hstands <;> first | (cases htrans; done) | cases hover
  unique {phase stance other} hstands hover hother := by
    cases hstands <;> first | (cases hover; done) | (cases hother; rfl)

end Attach

namespace Detach

inductive Shows (d : Detach) (w : Wait) : Phase → Stance (UInt32 × UInt32) → Prop
  | readJoined {m : Mapping} : Shows d w (.readJoined w m) .looking
  | readLive {m : Mapping} {joined : UInt32} : Shows d w (.readLive w m joined) .looking
  | missed {m : Mapping} {joined live : UInt32} :
      Shows d w (.missed w m joined live) (.missed (joined, live))
  | pause {m : Mapping} {wake : Nat} : Shows d w (.pause w m wake) (.paused wake)
  | gathered {m : Mapping} {joined live : UInt32} :
      Shows d w (.retire m none) (.found (joined, live))
  | timedOut {m : Mapping} {joined live : UInt32} {waited : Duration} :
      Shows d w (.retire m (some (d.stragglers joined live waited)))
        (.expired (joined, live) waited)

/-- All followers have left, and the expected participants have joined. -/
def Gathered (d : Detach) (joined live : UInt32) : Prop := live ≤ 1 ∧ d.expected ≤ joined

/-- A leader's wait for the others. What it looks at is how many have joined and how many are
attached. -/
def watch (d : Detach) (w : Wait) : Watch Phase Unit (UInt32 × UInt32) where
  step := d.step
  wait := w
  Stands := d.Shows w
  glimpse? phase s := match phase with
    | .readLive _ m joined => some (joined, (s.header m).live)
    | _ => none
  Nothing seen := ¬ d.Gathered seen.1 seen.2

theorem transition_of_step {d : Detach} {phase next : Phase} {s t : Site}
    (h : d.step phase s = (.running next, t)) : Transition d phase s (.running next) t := by
  have htrans := d.step_transition phase s
  rwa [h] at htrans

theorem lawful_watch (d : Detach) (w : Wait) : (d.watch w).Lawful where
  looks {phase next s t} hstands hstep := by
    have hstep' : d.step phase s = (.running next, t) := hstep
    refine ⟨(transition_of_step hstep').clock_eq, ?_⟩
    cases hstands with
    | readJoined =>
      cases hstep'
      exact .readLive
    | @readLive m joined =>
      dsimp only [step] at hstep'
      split at hstep'
      case isTrue h =>
        cases hstep'
        exact .inr ⟨not_not.mpr h, .gathered⟩
      case isFalse h =>
        cases hstep'
        exact .inl ⟨h, .missed⟩
  judges {phase next s t seen} hstands hstep := by
    have htrans := transition_of_step (d := d) hstep
    refine ⟨htrans.clock_eq, ?_⟩
    cases hstands with
    | missed =>
      cases htrans with
      | expired h =>
        rw [show (d.watch w).wait.judge s.kernel.clock = _ from h]
        exact .timedOut
      | waiting h =>
        rw [show (d.watch w).wait.judge s.kernel.clock = _ from h]
        exact .pause
  wakes {phase next s t wake} hstands hlate hstep := by
    have htrans := transition_of_step (d := d) hstep
    cases hstands with
    | pause =>
      cases htrans with
      | woken => exact ⟨rfl, .readJoined⟩
      | asleep h => exact absurd hlate (Nat.not_le.mpr h)
  sleeps {phase s wake} hstands hlt := by
    cases hstands with
    | pause => simp [watch, step, hlt]
  goes {phase stance} hstands hover s := by
    cases hstep : d.step phase s with
    | mk progress t =>
      cases progress with
      | running next => exact ⟨next, t, hstep⟩
      | done o =>
        have htrans := d.step_transition phase s
        rw [hstep] at htrans
        change Transition d phase s (.done o) t at htrans
        cases hstands <;> cases htrans
  unique {phase stance other} hstands hover hother := by
    cases hstands <;> first | (cases hover; done) | (cases hother; rfl)

end Detach

theorem Wait.eq_of_start?_eq_some {now : Nat} {timeout interval : Duration} {w : Wait}
    (h : Wait.start? now timeout interval = some w) :
    w = ⟨now, now + timeout.nanoseconds, interval.nanoseconds⟩ := by
  unfold Wait.start? at h
  dsimp only at h
  split at h
  · cases h
    rfl
  · cases h

section

variable {w : Wait} {s t : Site} {c : Call} {steps : List (Call × Site)}

theorem Attach.begin_of_start {a : Attach} (hfollows : a.config.isLeader = false)
    (hrange : a.total < Size.wordValues)
    (hstart : Wait.start? s.kernel.clock a.config.bootstrapTimeout a.config.pollInterval = some w) :
    a.begin s = (.running (.find w), s) := by
  simp [begin, Nat.not_le.mpr hrange, hfollows, hstart]

theorem Attach.looks_first {a : Attach} (hfollows : a.config.isLeader = false)
    (hrange : a.total < Size.wordValues)
    (hstart : Wait.start? s.kernel.clock a.config.bootstrapTimeout a.config.pollInterval = some w)
    (phase : Phase) (u : Site) (h : a.begin s = (.running phase, u)) :
    a.Shows w phase .looking ∧ w.started ≤ u.kernel.clock := by
  rw [begin_of_start hfollows hrange hstart, Wait.eq_of_start?_eq_some hstart] at h
  cases h
  rw [Wait.eq_of_start?_eq_some hstart]
  exact ⟨.find, Nat.le_refl _⟩

theorem Detach.gather_of_start {d : Detach} {m : Mapping}
    (hwaits : d.config.teardownTimeout.isZero = false)
    (hstart : Wait.start? s.kernel.clock d.config.teardownTimeout d.config.pollInterval = some w) :
    d.step (.gather m) s = (.running (.readJoined w m), s) := by
  simp [step, hwaits, hstart]

theorem Detach.looks_first {d : Detach} {m : Mapping}
    (hwaits : d.config.teardownTimeout.isZero = false)
    (hstart : Wait.start? s.kernel.clock d.config.teardownTimeout d.config.pollInterval = some w)
    (phase : Phase) (u : Site) (h : d.step (.gather m) s = (.running phase, u)) :
    d.Shows w phase .looking ∧ w.started ≤ u.kernel.clock := by
  rw [gather_of_start hwaits hstart, Wait.eq_of_start?_eq_some hstart] at h
  cases h
  rw [Wait.eq_of_start?_eq_some hstart]
  exact ⟨.readJoined, Nat.le_refl _⟩

/-- A follower is watched, whatever goes on between its steps. -/
theorem Attach.watched_of_course {a : Attach} (hfollows : a.config.isLeader = false)
    (hrange : a.total < Size.wordValues)
    (hstart : Wait.start? s.kernel.clock a.config.bootstrapTimeout a.config.pollInterval = some w)
    (h : Course (fun s t => s.kernel.clock ≤ t.kernel.clock) (Call.ofAttach a (a.begin s)) steps
      (.running c, t)) :
    (a.watch w).Watched (a.begin s) (.attach a) c t := by
  refine (a.lawful_watch w).watched_of_course (Attach.looks_first hfollows hrange hstart)
    (fun phase next s t hstep => ?_) ?_ h
  · have hstep' : a.step phase s = (.running next, t) := hstep
    simp only [Call.step, Call.ofAttach, hstep', Progress.map]
  · rw [Attach.begin_of_start hfollows hrange hstart]
    rintro _ _ ⟨⟩
    exact ⟨.find w, rfl, rfl⟩

/-- So is a leader that waits for the others. -/
theorem Detach.watched_of_course {d : Detach} {m : Mapping}
    (hwaits : d.config.teardownTimeout.isZero = false)
    (hstart : Wait.start? s.kernel.clock d.config.teardownTimeout d.config.pollInterval = some w)
    (h : Course (fun s t => s.kernel.clock ≤ t.kernel.clock)
      (Call.ofDetach d (d.step (.gather m) s)) steps (.running c, t)) :
    (d.watch w).Watched (d.step (.gather m) s) (.detach d) c t := by
  refine (d.lawful_watch w).watched_of_course (Detach.looks_first hwaits hstart)
    (fun phase next s t hstep => ?_) ?_ h
  · have hstep' : d.step phase s = (.running next, t) := hstep
    simp only [Call.step, Call.ofDetach, hstep', Progress.map]
  · rw [Detach.gather_of_start hwaits hstart]
    rintro _ _ ⟨⟩
    exact ⟨.readJoined w m, rfl, rfl⟩

end

/-- **Both waits are bounded and never give up early.** Whatever goes on elsewhere, however long the
sleeps last and whatever the looks come to: a follower's wait and a leader's are logged as
`Wait.Kept` says, with how they stand shown by the phase, and take another step until they are
over. -/
theorem waits_bounded :
    (∀ (a : Attach) (s : Site) (w : Wait), a.config.isLeader = false →
      a.total < Size.wordValues →
      Wait.start? s.kernel.clock a.config.bootstrapTimeout a.config.pollInterval = some w →
      ∀ log phase t, Vigil (a.watch w) (a.begin s) log phase t →
        w = ⟨s.kernel.clock, s.kernel.clock + a.config.bootstrapTimeout.nanoseconds,
          a.config.pollInterval.nanoseconds⟩ ∧
        ∃ stance, a.Shows w phase stance ∧ w.Kept (fun seen => seen = .ok none) log stance ∧
          (stance.isOver = false → ∀ u, ∃ next v, a.step phase u = (.running next, v))) ∧
    ∀ (d : Detach) (m : Mapping) (s : Site) (w : Wait), d.config.teardownTimeout.isZero = false →
      Wait.start? s.kernel.clock d.config.teardownTimeout d.config.pollInterval = some w →
      ∀ log phase t, Vigil (d.watch w) (d.step (.gather m) s) log phase t →
        w = ⟨s.kernel.clock, s.kernel.clock + d.config.teardownTimeout.nanoseconds,
          d.config.pollInterval.nanoseconds⟩ ∧
        ∃ stance, d.Shows w phase stance ∧
          w.Kept (fun seen => ¬ (seen.2 ≤ 1 ∧ d.config.participants.getD 1 ≤ seen.1)) log stance ∧
          (stance.isOver = false → ∀ u, ∃ next v, d.step phase u = (.running next, v)) := by
  refine ⟨fun a s w hfollows hrange hstart log phase t h => ?_,
    fun d m s w hwaits hstart log phase t h => ?_⟩
  · have hw := Wait.eq_of_start?_eq_some hstart
    obtain ⟨stance, hstands, hlogged⟩ :=
      (a.lawful_watch w).logged (Attach.looks_first hfollows hrange hstart) h
    refine ⟨hw, stance, hstands, hlogged.kept ?_, (a.lawful_watch w).goes hstands⟩
    rw [hw]
    exact Nat.le_add_right _ _
  · have hw := Wait.eq_of_start?_eq_some hstart
    obtain ⟨stance, hstands, hlogged⟩ :=
      (d.lawful_watch w).logged (Detach.looks_first hwaits hstart) h
    refine ⟨hw, stance, hstands, hlogged.kept ?_, (d.lawful_watch w).goes hstands⟩
    rw [hw]
    exact Nat.le_add_right _ _

/-! ### A follower that gives up, and a leader that does not -/

def Site.at (s : Site) (time : Nat) : Site := { s with kernel := { s.kernel with clock := time } }

/-- Nobody ever leads this follower's group. It looks every 60 microseconds, for 100. -/
def lonely : Attach :=
  ⟨{ (Machine.sample () id).config with
      rank := 1, bootstrapTimeout := .ofMicroseconds 100, pollInterval := .ofMicroseconds 60 },
    .host .disabled, 0, 4096⟩

def lonelySite : Site := (Machine.fresh (fun _ => 1) [1] : Machine Unit Unit).site ()

def host : Detach :=
  ⟨{ (Machine.sample () id).config with
      participants := some 2, teardownTimeout := .ofMicroseconds 100,
      pollInterval := .ofMicroseconds 60 },
    .host .disabled, 0, ⟨0, 4096⟩⟩

def hostSite (joined : UInt32) : Site :=
  { publishedSite with kernel := publishedSite.kernel.modifyHeader 0 fun h => { h with joined } }

def shortWait : Wait := ⟨0, 100000, 60000⟩

def LonelyVigil (log : List (Event Attach.Sight)) (phase : Attach.Phase) (time : Nat) : Prop :=
  Vigil (lonely.watch shortWait) (lonely.begin lonelySite) log phase (lonelySite.at time)

namespace LonelyVigil

variable {log : List (Event Attach.Sight)} {time later now length wake : Nat}

theorem look (h : LonelyVigil log (.find shortWait) time) (hlater : time ≤ later) :
    LonelyVigil (.saw (.ok none) :: log) (.missed shortWait) later := by
  have hopen : (lonelySite.at later).openSegment lonely.config.segment = .error .notFound := by
    have hname : lonelySite.openSegment lonely.config.segment = .error .notFound := by
      decide +kernel
    exact hname
  have hstep : (lonely.watch shortWait).step (.find shortWait) (lonelySite.at later) =
      (.running (.missed shortWait), lonelySite.at later) := by
    simp [Attach.watch, Attach.step, Attach.stepFind, hopen]
  have hclock : (lonelySite.at time).kernel.clock ≤ (lonelySite.at later).kernel.clock := hlater
  have hlook := Vigil.look h .find hclock hstep
  have hsight : (lonely.watch shortWait).glimpse? (.find shortWait) (lonelySite.at later) =
      some (.ok none) := by
    simp [Attach.watch, Attach.step, Attach.stepFind, hopen, Attach.sight?]
  rwa [hsight] at hlook

theorem read (h : LonelyVigil log (.missed shortWait) time)
    (hpause : shortWait.judge time = .pause length) :
    LonelyVigil (.read time :: log) (.pause shortWait (time + max length Kernel.grain)) time := by
  have hstep : (lonely.watch shortWait).step (.missed shortWait) (lonelySite.at time) =
      (.running (.pause shortWait (time + max length Kernel.grain)), lonelySite.at time) := by
    simp [Attach.watch, Attach.step, Attach.stepFind, Site.at, hpause, Kernel.pauseEnd]
  exact Vigil.read h .missed (Nat.le_refl _) hstep

theorem giveUp (h : LonelyVigil log (.missed shortWait) time) (hlate : shortWait.deadline ≤ time) :
    LonelyVigil (.read time :: log) (.fail (.bootstrapTimedOut lonely.config.segment ⟨time⟩))
      time := by
  have hstep : (lonely.watch shortWait).step (.missed shortWait) (lonelySite.at time) =
      (.running (.fail (.bootstrapTimedOut lonely.config.segment ⟨time⟩)), lonelySite.at time) := by
    simp [Attach.watch, Attach.step, Attach.stepFind, Site.at, judge_of_le hlate]
    rfl
  exact Vigil.read h .missed (Nat.le_refl _) hstep

theorem sleep (h : LonelyVigil (.read now :: log) (.pause shortWait wake) time)
    (hpause : shortWait.judge now = .pause length) (hslept : now + length ≤ later) :
    LonelyVigil (.read now :: log) (.find shortWait) later := by
  have hstep : (lonely.watch shortWait).step (.pause shortWait wake) (lonelySite.at wake) =
      (.running (.find shortWait), lonelySite.at wake) := by
    simp [Attach.watch, Attach.step, Attach.stepFind, Site.at]
  exact Vigil.sleep h .pause hpause hslept (Nat.le_refl wake) hstep

/-- It looks three times, and sleeps for 60 and for 40 microseconds, no longer. -/
theorem expired : LonelyVigil
    [.read 100000, .saw (.ok none), .read 60000, .saw (.ok none), .read 0, .saw (.ok none)]
    (.fail (.bootstrapTimedOut lonely.config.segment ⟨100000⟩)) 100000 := by
  have hbegin : LonelyVigil [] (.find shortWait) 0 := .begin rfl
  have hlong : shortWait.judge 0 = .pause 60000 := rfl
  have hshort : shortWait.judge 60000 = .pause 40000 := rfl
  have hfirst := (hbegin.look (Nat.le_refl 0)).read hlong
  have hsecond := ((hfirst.sleep hlong (Nat.le_refl _)).look (Nat.le_refl _)).read hshort
  exact ((hsecond.sleep hshort (Nat.le_refl _)).look (Nat.le_refl _)).giveUp (Nat.le_refl _)

end LonelyVigil

def HostVigil (log : List (Event (UInt32 × UInt32))) (phase : Detach.Phase) (s : Site) : Prop :=
  Vigil (host.watch shortWait) (host.step (.gather ⟨0, 8192, 0⟩) (hostSite 1)) log phase s

/-- It sleeps once; then the follower has come and gone. -/
theorem hostVigil_gathered : HostVigil [.saw (2, 1), .read 0, .saw (1, 1)]
    (.retire ⟨0, 8192, 0⟩ none) ((hostSite 2).at 60000) := by
  have hbegin : HostVigil [] (.readJoined shortWait ⟨0, 8192, 0⟩) (hostSite 1) := .begin rfl
  have hjoined : HostVigil [] (.readLive shortWait ⟨0, 8192, 0⟩ 1) (hostSite 1) :=
    Vigil.look hbegin .readJoined (Nat.le_refl _) rfl
  have hmissed : HostVigil [.saw (1, 1)] (.missed shortWait ⟨0, 8192, 0⟩ 1 1) (hostSite 1) :=
    Vigil.look hjoined .readLive (Nat.le_refl _) rfl
  have hread : HostVigil [.read 0, .saw (1, 1)] (.pause shortWait ⟨0, 8192, 0⟩ 60000)
      (hostSite 1) :=
    Vigil.read hmissed .missed (Nat.le_refl _) rfl
  have hwoken : host.step (.pause shortWait ⟨0, 8192, 0⟩ 60000) ((hostSite 2).at 60000) =
      (.running (.readJoined shortWait ⟨0, 8192, 0⟩), (hostSite 2).at 60000) := rfl
  have hagain : HostVigil [.read 0, .saw (1, 1)] (.readJoined shortWait ⟨0, 8192, 0⟩)
      ((hostSite 2).at 60000) :=
    Vigil.sleep hread .pause rfl (Nat.le_refl 60000) (Nat.le_refl 60000) hwoken
  have hjoined' : HostVigil [.read 0, .saw (1, 1)] (.readLive shortWait ⟨0, 8192, 0⟩ 2)
      ((hostSite 2).at 60000) :=
    Vigil.look hagain .readJoined (Nat.le_refl _) rfl
  exact Vigil.look hjoined' .readLive (Nat.le_refl _) rfl

/-- The follower gives up after its 100 microseconds, which it spent on three looks, and the leader
finds everybody gone at its second. -/
theorem waits_bounded_short :
    shortWait.Kept (fun seen : Attach.Sight => seen = .ok none)
      [.read 100000, .saw (.ok none), .read 60000, .saw (.ok none), .read 0, .saw (.ok none)]
      (.expired (.ok none) ⟨100000⟩) ∧
    shortWait.Kept
      (fun seen : UInt32 × UInt32 =>
        ¬ (seen.2 ≤ 1 ∧ host.config.participants.getD 1 ≤ seen.1))
      [.saw (2, 1), .read 0, .saw (1, 1)] (.found (2, 1)) := by
  obtain ⟨-, stance, hstands, hkept, -⟩ := waits_bounded.1 lonely lonelySite shortWait (by decide)
    (by decide) rfl _ _ _ LonelyVigil.expired
  obtain ⟨-, stance', -, hkept', -⟩ := waits_bounded.2 host ⟨0, 8192, 0⟩ (hostSite 1) shortWait
    (by decide) rfl _ _ _ hostVigil_gathered
  refine ⟨?_, ?_⟩
  · have hexpired := (hkept.expired_iff (.ok none) ⟨100000⟩).mpr
      ⟨rfl, 100000, rfl, Nat.le_refl _, rfl⟩
    rwa [hexpired] at hkept
  · have hfound := (hkept'.found_iff (2, 1)).mpr ⟨rfl, by decide⟩
    rwa [hfound] at hkept'

end StagingMemory
