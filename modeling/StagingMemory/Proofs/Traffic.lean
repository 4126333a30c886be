import Mathlib.Algebra.BigOperators.Group.Finset.Basic
import StagingMemory.Proofs.Entries
/-!
Runs of a process with requests to its resources, on devices of any kind, any number at a time: in
each slot a request is made and its call takes its steps, while other slots do the same and the
world outside changes. Under which strict modes this happens, what may take back a block, and what
may change outside, are the rules of a run. Main statement: the books of every account balance, so
the reading of its gauge is the sum of the lengths of the blocks handed out and not yet released
(`Depot.balanced_of_traffic`).
-/
namespace StagingMemory

deriving instance DecidableEq for Stage

namespace Depot

universe v

variable {ι : Type v}

/-! ### Requests and steps -/

namespace Event

def slot : Event ι → ι
  | asked i _ _ | given i _ _ | stepped i _ => i

def source (e : Depot ι) : Event ι → Resource
  | asked _ r _ | given _ r _ => r
  | stepped i _ => (e.slot i).source

def result (s : Site) : Event ι → Progress Call Reply × Site
  | asked _ r bytes => r.beginAllocate bytes s
  | given _ r block => r.beginRelease block s
  | stepped _ c => c.step s

def stake : Event ι → Stake
  | asked _ _ bytes => .asked bytes
  | given _ _ block => .owed block
  | stepped _ c => c.stake

end Event

/-- What the runs of a process keep to. -/
structure Rules (ι : Type v) where
  /-- The strict modes in which something happens. -/
  Modes : StrictMode → Prop
  /-- The resources that are asked for memory. -/
  Asks : Resource → Prop
  /-- The second resource may take back what was asked of the first. -/
  Permits : Resource → Resource → Prop
  /-- What the world outside, and the rest of the process, may become. -/
  Between : Depot ι → Site → Prop

/-- What may happen next. The account is open; where the account is about to count bytes it has room
for them, and where a deadline is about to be set the clock can hold it. -/
inductive May (rules : Rules ι) (e : Depot ι) : Event ι → Prop
  | ask (i : ι) (r : Resource) (bytes : UInt64) (hidle : (e.slot i).stage = .idle)
      (hasks : rules.Asks r) (hopen : r.account < e.site.process.accounts.length)
      (hroomy : r.Roomy bytes e.site.process) (hprompt : r.Prompt e.site.kernel.clock) :
      May rules e (.asked i r bytes)
  | give (i : ι) (r : Resource) (block : Block) (hholding : (e.slot i).stage = .holding block)
      (hopen : r.account < e.site.process.accounts.length)
      (hpermits : rules.Permits (e.slot i).source r) : May rules e (.given i r block)
  | step (i : ι) (c : Call) (hcalling : (e.slot i).stage = .calling c) (hroomy : c.Roomy e.site)
      (htimely : c.Timely e.site) : May rules e (.stepped i c)

instance (rules : Rules ι) [DecidablePred rules.Asks] [DecidableRel rules.Permits] (e : Depot ι) :
    (event : Event ι) → Decidable (e.May rules event)
  | .asked i r bytes => decidable_of_iff ((e.slot i).stage = .idle ∧ rules.Asks r ∧
      r.account < e.site.process.accounts.length ∧ r.Roomy bytes e.site.process ∧
        r.Prompt e.site.kernel.clock)
      ⟨fun ⟨hidle, hasks, hopen, hroomy, hprompt⟩ =>
          .ask i r bytes hidle hasks hopen hroomy hprompt,
        fun
          | .ask _ _ _ hidle hasks hopen hroomy hprompt => ⟨hidle, hasks, hopen, hroomy, hprompt⟩⟩
  | .given i r block => decidable_of_iff ((e.slot i).stage = .holding block ∧
      r.account < e.site.process.accounts.length ∧ rules.Permits (e.slot i).source r)
      ⟨fun ⟨hholding, hopen, hpermits⟩ => .give i r block hholding hopen hpermits,
        fun | .give _ _ _ hholding hopen hpermits => ⟨hholding, hopen, hpermits⟩⟩
  | .stepped i c => decidable_of_iff ((e.slot i).stage = .calling c ∧ c.Roomy e.site ∧
      c.Timely e.site)
      ⟨fun ⟨hcalling, hroomy, htimely⟩ => .step i c hcalling hroomy htimely,
        fun | .step _ _ hcalling hroomy htimely => ⟨hcalling, hroomy, htimely⟩⟩

variable [DecidableEq ι]

def act (e : Depot ι) (event : Event ι) : Depot ι :=
  e.settle event.slot (event.source e) (event.result e.site)

abbrev Past (ι : Type v) := List (Event ι × Depot ι)

/-- A run that keeps to the rules. It ends where a call aborts the process. -/
inductive Traffic (rules : Rules ι) (e₀ : Depot ι) : Past ι → Depot ι → Prop
  | start : Traffic rules e₀ [] e₀
  | act {past : Past ι} {e : Depot ι} (event : Event ι) (hrun : Traffic rules e₀ past e)
      (hmode : rules.Modes e.site.process.readStrictMode.1) (hmay : e.May rules event)
      (hgoes : (event.result e.site).1 ≠ .done .aborted) :
      Traffic rules e₀ ((event, e) :: past) (e.act event)
  | elsewhere {past : Past ι} {e : Depot ι} (s : Site) (hrun : Traffic rules e₀ past e)
      (hbetween : rules.Between e s) : Traffic rules e₀ past { e with site := s }

/-- What happened did so in a state that a run had reached, as the rules say. -/
theorem Traffic.of_mem {rules : Rules ι} {e₀ e d : Depot ι} {past : Past ι} {event : Event ι}
    (hrun : Traffic rules e₀ past e) (hmem : (event, d) ∈ past) :
    ∃ earlier, Traffic rules e₀ earlier d ∧ rules.Modes d.site.process.readStrictMode.1 ∧
      d.May rules event ∧ (event.result d.site).1 ≠ .done .aborted := by
  induction hrun with
  | start => cases hmem
  | act event hrun hmode hmay hgoes ih =>
    rcases List.mem_cons.mp hmem with heq | hmem
    · cases heq
      exact ⟨_, hrun, hmode, hmay, hgoes⟩
    · exact ih hmem
  | elsewhere s hrun hbetween ih => exact ih hmem

/-! ### Calls on behalf of their slots -/

end Depot

structure Slot.Orderly (Modes : StrictMode → Prop) (x : Slot) (p : Process) : Prop where
  opened : x.stage ≠ .idle → x.source.account < p.accounts.length
  account_eq : ∀ c, x.stage = .calling c → c.account = x.source.account
  orderly : ∀ c, x.stage = .calling c → c.Orderly Modes

theorem Slot.Orderly.stays {Modes : StrictMode → Prop} {x : Slot} {p q : Process}
    (h : x.Orderly Modes p) (hlength : p.accounts.length ≤ q.accounts.length) :
    x.Orderly Modes q :=
  ⟨fun hstage => Nat.lt_of_lt_of_le (h.opened hstage) hlength, h.account_eq, h.orderly⟩

/-- A call is begun on its resource's account. -/
theorem Resource.began_beginAllocate {r : Resource} {bytes : UInt64} {s : Site} {c : Call}
    (Modes : StrictMode → Prop) (h : (r.beginAllocate bytes s).1 = .running c) :
    c.account = r.account ∧ c.Orderly Modes := by
  obtain ⟨strategy, device, account⟩ := r
  cases strategy with
  | pinned =>
    unfold beginAllocate at h
    split at h <;> cases h
  | shared config =>
    rcases (⟨(), config, device, account⟩ : Member Unit).beginAllocate_spec bytes s with
      ⟨phase, hfirst, heq⟩ | ⟨o, heq, -⟩
    · cases (congrArg Prod.fst heq).symm.trans h
      cases hfirst <;> exact ⟨rfl, trivial, nofun⟩
    · cases (congrArg Prod.fst heq).symm.trans h

theorem Resource.began_beginRelease {r : Resource} {block : Block} {s : Site} {c : Call}
    (Modes : StrictMode → Prop) (h : (r.beginRelease block s).1 = .running c) :
    c.account = r.account ∧ c.Orderly Modes := by
  obtain ⟨strategy, device, account⟩ := r
  cases strategy with
  | pinned => cases h
  | shared config =>
    cases h
    exact ⟨rfl, trivial⟩

/-- A call stays on its account and its device. -/
theorem Call.target_step {c next : Call} {s : Site} (h : (c.step s).1 = .running next) :
    next.account = c.account ∧ next.device = c.device := by
  cases c with
  | attach a phase =>
    cases hprogress : (a.step phase s).1 <;>
      simp only [step, ofAttach, hprogress, Progress.map_running, Progress.running.injEq] at h
    · subst h
      exact ⟨rfl, rfl⟩
    · cases h
  | detach d phase =>
    cases hprogress : (d.step phase s).1 <;>
      simp only [step, ofDetach, hprogress, Progress.map_running, Progress.running.injEq] at h
    · subst h
      exact ⟨rfl, rfl⟩
    · cases h

namespace Depot

universe v

variable {ι : Type v} {e : Depot ι} {event : Event ι} {Modes : StrictMode → Prop}
  {rules : Rules ι}

/-- What happens is entered in the account of the resource it happens to. -/
theorem May.posting (h : e.May rules event) (hmode : Modes e.site.process.readStrictMode.1)
    (hgoes : (event.result e.site).1 ≠ .done .aborted)
    (hslot : (e.slot event.slot).Orderly Modes e.site.process) :
    (event.source e).account < e.site.process.accounts.length ∧
      ∃ entered?, Posting Modes event.stake (event.result e.site).1 entered? ∧
        e.site.process.Enters (event.source e).account entered?
          (event.result e.site).2.process := by
  cases h with
  | ask i r bytes hidle hasks hopen hroomy hprompt =>
    exact ⟨hopen, r.posting_beginAllocate Modes hmode hroomy hprompt⟩
  | give i r block hholding hopen hpermits =>
    exact ⟨hopen, r.posting_beginRelease Modes hgoes⟩
  | step i c hcalling hroomy htimely =>
    obtain ⟨hopened, haccount, horderly⟩ := hslot
    have hopen := hopened (by rw [show (Event.stepped i c).slot = i from rfl, hcalling]; nofun)
    refine ⟨hopen, ?_⟩
    have hposting := c.posting_step Modes hmode hroomy htimely (horderly c hcalling) hgoes
    rw [haccount c hcalling] at hposting
    exact hposting

theorem May.orderly (h : e.May rules event) (hmode : Modes e.site.process.readStrictMode.1)
    (hgoes : (event.result e.site).1 ≠ .done .aborted)
    (hslot : (e.slot event.slot).Orderly Modes e.site.process) :
    (⟨.after (event.result e.site).1, event.source e⟩ : Slot).Orderly Modes
      (event.result e.site).2.process := by
  obtain ⟨hopen, entered?, -, henters⟩ := h.posting hmode hgoes hslot
  have hbegan : ∀ next, (event.result e.site).1 = .running next →
      next.account = (event.source e).account ∧ next.Orderly Modes := by
    intro next hnext
    cases h with
    | ask i r bytes => exact Resource.began_beginAllocate Modes hnext
    | give i r block => exact Resource.began_beginRelease Modes hnext
    | step i c hcalling =>
      exact ⟨(Call.target_step hnext).1.trans (hslot.account_eq c hcalling),
        Call.orderly_step Modes hnext hmode⟩
  exact ⟨fun _ => by rw [henters.length_eq]; exact hopen,
    fun next hnext => (hbegan next (Stage.after_eq_calling hnext)).1,
    fun next hnext => (hbegan next (Stage.after_eq_calling hnext)).2⟩

section

variable [DecidableEq ι] {rules : Rules ι} {e₀ : Depot ι} {past : Past ι}

/-- A slot that did not act is as it was. -/
theorem slot_act_of_ne {i : ι} (h : i ≠ event.slot) : (e.act event).slot i = e.slot i :=
  slot_settle_of_ne h ..

@[simp] theorem slot_act_self (e : Depot ι) (event : Event ι) : (e.act event).slot event.slot =
    ⟨.after (event.result e.site).1, event.source e⟩ := slot_settle_self ..

theorem orderly_of_traffic (hrun : Traffic rules e₀ past e)
    (hidle : ∀ i, (e₀.slot i).stage = .idle)
    (hbetween : ∀ e s, rules.Between e s →
      e.site.process.accounts.length ≤ s.process.accounts.length) :
    ∀ i, (e.slot i).Orderly rules.Modes e.site.process := by
  induction hrun with
  | start =>
    intro i
    have hstage := hidle i
    exact ⟨fun h => absurd hstage h, fun c h => by simp [hstage] at h,
      fun c h => by simp [hstage] at h⟩
  | @act past e event hrun hmode hmay hgoes ih =>
    intro i
    by_cases hi : i = event.slot
    · subst hi
      rw [slot_act_self]
      exact hmay.orderly hmode hgoes (ih event.slot)
    · obtain ⟨-, entered?, -, henters⟩ := hmay.posting hmode hgoes (ih event.slot)
      rw [slot_act_of_ne hi]
      exact (ih i).stays (Nat.le_of_eq henters.length_eq.symm)
  | @elsewhere past e s hrun hs ih => exact fun i => (ih i).stays (hbetween e s hs)

end

end Depot

/-! ### What is owed -/

inductive Tally where
  | handedOut
  | refused
  | givenBack
  deriving DecidableEq

/-- An allocation counts if it returns a block or an error, and a release however it ends. -/
def Stake.tally? : Stake → Progress Call Reply → Option Tally
  | asked _, .done (.returned (.allocated (some _))) => some .handedOut
  | asked _, .done (.returned (.refused _)) => some .refused
  | owed _, .done _ => some .givenBack
  | _, _ => none

def Entry.tally : Entry → Tally
  | allocation _ => .handedOut
  | failure => .refused
  | release _ => .givenBack

def Statistics.counter (s : Statistics) : Tally → Counter
  | .handedOut => s.allocations
  | .refused => s.failures
  | .givenBack => s.releases

theorem Statistics.counter_enter (s : Statistics) (entered? : Option Entry) (tally : Tally) :
    ((entered?.elim s s.enter).counter tally).count =
      (s.counter tally).count + if entered?.map Entry.tally = some tally then 1 else 0 := by
  cases entered? with
  | none => simp
  | some entry => cases entry <;> cases tally <;> simp [enter, counter, Entry.tally,
      recordAllocation, recordFailure, recordRelease, Counter.increment]

inductive Settled : Option Block → Option Entry → Option Block → Prop
  | still (owed? : Option Block) : Settled owed? none owed?
  | handedOut (block : Block) : Settled none (some (.allocation block.bytes)) (some block)
  | failed : Settled none (some .failure) none
  | givenBack (block : Block) : Settled (some block) (some (.release block.bytes)) none

/-- The reading of the gauge follows what is owed, and its peak is raised to the reading. -/
theorem Settled.gauge {before? after? : Option Block} {entered? : Option Entry} {s : Statistics}
    (h : Settled before? entered? after?)
    (hfits : ∀ n, entered? = some (.allocation n) → s.Fits n)
    (howes : after? = none → before?.elim 0 (·.bytes.toNat) ≤ s.bytes.current.toNat)
    (hpeak : s.bytes.current ≤ s.bytes.peak) :
    (entered?.elim s s.enter).bytes.current.toNat + before?.elim 0 (·.bytes.toNat) =
        s.bytes.current.toNat + after?.elim 0 (·.bytes.toNat) ∧
      (entered?.elim s s.enter).bytes.peak =
        max s.bytes.peak (entered?.elim s s.enter).bytes.current := by
  have hhighest : ∀ reading, reading ≤ s.bytes.peak → s.bytes.peak = max s.bytes.peak reading := by
    intro reading hle
    rw [show max s.bytes.peak reading = if s.bytes.peak ≤ reading then reading else s.bytes.peak
      from rfl]
    split
    case isTrue hge => exact UInt64.le_antisymm hge hle
    case isFalse => rfl
  cases h with
  | still => exact ⟨rfl, hhighest _ hpeak⟩
  | failed => exact ⟨rfl, hhighest _ hpeak⟩
  | handedOut block =>
    have hroom := hfits _ rfl
    simp only [Option.elim_some, Statistics.enter, Statistics.recordAllocation_of_fits hroom,
      Option.elim_none, Nat.add_zero, and_true]
    rw [UInt64.toNat_add, Nat.mod_eq_of_lt hroom]
  | givenBack block =>
    have hle : block.bytes.toNat ≤ s.bytes.current.toNat := howes rfl
    have hreading : (s.enter (.release block.bytes)).bytes.current.toNat =
        s.bytes.current.toNat - block.bytes.toNat := by
      rw [Statistics.enter, Statistics.recordRelease_eq]
      exact UInt64.toNat_ofNat_of_lt'
        (Nat.lt_of_le_of_lt (Nat.sub_le ..) s.bytes.current.toNat_lt_size)
    refine ⟨?_, hhighest _ (UInt64.le_trans (UInt64.le_iff_toNat_le.mpr ?_) hpeak)⟩
    · simp only [Option.elim_some, Option.elim_none, hreading]
      omega
    · simp only [Option.elim_some, hreading]
      omega

namespace Posting

variable {Modes : StrictMode → Prop} {stake : Stake} {progress : Progress Call Reply}
  {entered? : Option Entry}

theorem settled (h : Posting Modes stake progress entered?) :
    Settled stake.owed? entered? (Stage.after progress).stake.owed? := by
  cases h with
  | running h =>
    rw [← h]
    exact .still _
  | nothing | warnedFatally => exact .still none
  | handedOut block => exact .handedOut block
  | refused | failedFatally => exact .failed
  | released block | releasedFatally block => exact .givenBack block

/-- What is entered is how the call counts, but for an error whose report is fatal. -/
theorem tally?_eq (h : Posting Modes stake progress entered?) :
    stake.tally? progress = entered?.map Entry.tally ∨
      stake.tally? progress = none ∧ entered? = some .failure ∧ ∃ mode, Modes mode ∧ mode ≠ .warn := by
  cases h with
  | running h =>
    refine Or.inl ?_
    cases stake <;> rfl
  | failedFatally _ _ hmode hstrict => exact Or.inr ⟨rfl, rfl, _, hmode, hstrict⟩
  | _ => exact Or.inl rfl

end Posting

/-- The block that the slot owes, if it owes one that is on the account. -/
def Slot.owed? (x : Slot) (id : Nat) : Option Block :=
  if x.source.account = id then x.stage.stake.owed? else none

namespace Depot

variable {ι : Type v} {e : Depot ι} {event : Event ι} {Modes : StrictMode → Prop}
  {rules : Rules ι} {id : Nat}

def Event.tally? (id : Nat) (e : Depot ι) (event : Event ι) : Option Tally :=
  if (event.source e).account = id then event.stake.tally? (event.result e.site).1 else none

def tallied (id : Nat) (past : Past ι) (tally : Tally) : Nat :=
  past.countP fun (event, e) => event.tally? id e = some tally

def gauge (id : Nat) (e : Depot ι) : Gauge := (e.site.process.account id).bytes

structure Posts (Modes : StrictMode → Prop) (id : Nat) (e : Depot ι) (event : Event ι)
    (entered? : Option Entry) : Prop where
  settled : Settled ((e.slot event.slot).owed? id) entered?
    ((⟨.after (event.result e.site).1, event.source e⟩ : Slot).owed? id)
  account_eq : (event.result e.site).2.process.account id =
    entered?.elim (e.site.process.account id) (e.site.process.account id).enter
  fits : ∀ n, entered? = some (.allocation n) → (e.site.process.account id).Fits n
  tally?_eq : event.tally? id e = entered?.map Entry.tally ∨
    event.tally? id e = none ∧ entered? = some .failure ∧ ∃ mode, Modes mode ∧ mode ≠ .warn

/-- Where each block goes back to the resource it came from, what happens on one account leaves the
others alone. -/
theorem May.posts (h : e.May rules event) (hown : ∀ a b, rules.Permits a b → a = b)
    (hmode : Modes e.site.process.readStrictMode.1)
    (hgoes : (event.result e.site).1 ≠ .done .aborted)
    (hslot : (e.slot event.slot).Orderly Modes e.site.process) (id : Nat) :
    ∃ entered?, e.Posts Modes id event entered? := by
  obtain ⟨hopen, entered?, hposting, henters⟩ := h.posting hmode hgoes hslot
  have hbefore : (e.slot event.slot).stage.stake.owed? = event.stake.owed? ∧
      ((e.slot event.slot).source = event.source e ∨ event.stake.owed? = none) := by
    cases h with
    | ask i r bytes hidle =>
      have hstage : (e.slot (Event.asked i r bytes).slot).stage = .idle := hidle
      rw [hstage]
      exact ⟨rfl, Or.inr rfl⟩
    | give i r block hholding _ hpermits =>
      have hstage : (e.slot (Event.given i r block).slot).stage = .holding block := hholding
      rw [hstage]
      exact ⟨rfl, Or.inl (hown _ _ hpermits)⟩
    | step i c hcalling =>
      have hstage : (e.slot (Event.stepped i c).slot).stage = .calling c := hcalling
      rw [hstage]
      exact ⟨rfl, Or.inl rfl⟩
  by_cases haccount : (event.source e).account = id
  · subst haccount
    refine ⟨entered?, ?_, henters.account_eq hopen, henters.fits, ?_⟩
    · have howed : (e.slot event.slot).owed? (event.source e).account = event.stake.owed? := by
        rcases hbefore.2 with hsource | hnone
        · rw [Slot.owed?, hsource, if_pos rfl, hbefore.1]
        · rw [Slot.owed?, hbefore.1, hnone, ite_self]
      rw [howed, Slot.owed?, if_pos rfl]
      exact hposting.settled
    · rw [Event.tally?, if_pos rfl]
      exact hposting.tally?_eq
  · refine ⟨none, ?_, henters.account_of_ne (Ne.symm haccount), nofun, Or.inl ?_⟩
    · have howed : (e.slot event.slot).owed? id = none := by
        rcases hbefore.2 with hsource | hnone
        · rw [Slot.owed?, hsource, if_neg haccount]
        · rw [Slot.owed?, hbefore.1, hnone, ite_self]
      rw [howed, Slot.owed?, if_neg haccount]
      exact .still none
    · rw [Event.tally?, if_neg haccount]
      rfl

/-! ### Balance -/

/-- The books of the account balance: the counters are what happened, the reading of the gauge is
what is owed, and its peak is the highest reading there was. -/
structure Balanced (Modes : StrictMode → Prop) (id : Nat) (past : Past ι) (e : Depot ι) : Prop where
  counter_eq : ∀ tally, (tally = .refused → ∀ mode, Modes mode → mode = .warn) →
    ((e.site.process.account id).counter tally).count = .ofNat (tallied id past tally)
  owing : ∃ owing : Finset ι, (∀ i, i ∈ owing ↔ ((e.slot i).owed? id).isSome) ∧
    tallied id past .handedOut = tallied id past .givenBack + owing.card ∧
    (gauge id e).current.toNat = ∑ i ∈ owing, ((e.slot i).owed? id).elim 0 (·.bytes.toNat)
  peak_mem : ∃ d ∈ e :: past.map Prod.snd, (gauge id d).current = (gauge id e).peak
  le_peak : ∀ d ∈ e :: past.map Prod.snd, (gauge id d).current ≤ (gauge id e).peak

variable {past : Past ι} {entered? : Option Entry}

theorem tallied_cons (id : Nat) (past : Past ι) (e : Depot ι) (event : Event ι) (tally : Tally) :
    tallied id ((event, e) :: past) tally =
      tallied id past tally + if event.tally? id e = some tally then 1 else 0 := by
  simp only [tallied, List.countP_cons, decide_eq_true_eq]

/-- A peak that the new reading raises is still the highest reading. -/
theorem Balanced.highest (h : e.Balanced Modes id past) (next : Depot ι)
    (hpeak : (gauge id next).peak = max (gauge id e).peak (gauge id next).current) :
    (∃ d ∈ next :: e :: past.map Prod.snd, (gauge id d).current = (gauge id next).peak) ∧
      ∀ d ∈ next :: e :: past.map Prod.snd, (gauge id d).current ≤ (gauge id next).peak := by
  rw [show max (gauge id e).peak (gauge id next).current =
    if (gauge id e).peak ≤ (gauge id next).current then (gauge id next).current
    else (gauge id e).peak from rfl] at hpeak
  split at hpeak
  case isTrue hraised =>
    rw [hpeak]
    refine ⟨⟨next, List.mem_cons_self, rfl⟩, fun d hd => ?_⟩
    rcases List.mem_cons.mp hd with rfl | hd
    · exact UInt64.le_refl _
    · exact UInt64.le_trans (h.le_peak d hd) hraised
  case isFalse hlower =>
    rw [hpeak]
    obtain ⟨d, hd, hreading⟩ := h.peak_mem
    refine ⟨⟨d, List.mem_cons_of_mem _ hd, hreading⟩, fun d hd => ?_⟩
    rcases List.mem_cons.mp hd with rfl | hd
    · exact UInt64.le_of_lt (UInt64.not_le.mp hlower)
    · exact h.le_peak d hd

variable [DecidableEq ι]

theorem Balanced.act (h : e.Balanced Modes id past) (hposts : e.Posts Modes id event entered?) :
    (e.act event).Balanced Modes id ((event, e) :: past) := by
  obtain ⟨hsettled, haccount, hfits, htally⟩ := hposts
  obtain ⟨owing, howing, hcount, hsum⟩ := h.owing
  have hothers : ∀ i, i ≠ event.slot →
      ((((e.act event).slot i).owed? id).isSome ↔ ((e.slot i).owed? id).isSome) := fun i hi => by
    rw [slot_act_of_ne hi]
  obtain ⟨after, hafter, hfollow⟩ := exists_following howing event.slot hothers
  have hcards := hfollow (fun _ => 1) (fun _ => 1) fun _ _ => rfl
  have hlengths := hfollow (fun i => ((e.slot i).owed? id).elim 0 (·.bytes.toNat))
    (fun i => (((e.act event).slot i).owed? id).elim 0 (·.bytes.toNat)) fun i hi => by
      rw [slot_act_of_ne hi]
  rw [← Finset.card_eq_sum_ones, ← Finset.card_eq_sum_ones] at hcards
  simp only [slot_act_self] at hcards hlengths
  generalize (e.slot event.slot).owed? id = before? at hsettled hcards hlengths
  generalize (⟨.after (event.result e.site).1, event.source e⟩ : Slot).owed? id = after?
    at hsettled hcards hlengths
  have hsome : ∀ owed? : Option Block, (if owed?.isSome = true then
      owed?.elim 0 (·.bytes.toNat) else 0) = owed?.elim 0 (·.bytes.toNat) := fun owed? => by
    cases owed? <;> rfl
  rw [hsome, hsome, ← hsum] at hlengths
  have hnext : (e.act event).site.process.account id =
    entered?.elim (e.site.process.account id) (e.site.process.account id).enter := haccount
  obtain ⟨hreading, hpeak⟩ := hsettled.gauge hfits
    (by
      rintro rfl
      exact Nat.le.intro ((Nat.add_comm ..).trans hlengths))
    (h.le_peak e List.mem_cons_self)
  rw [← hnext] at hreading hpeak
  obtain ⟨hmem, hle⟩ := h.highest (e.act event) hpeak
  have hcounts : ∀ tally, (tally = .refused → ∀ mode, Modes mode → mode = .warn) →
      (event.tally? id e = some tally ↔ entered?.map Entry.tally = some tally) := by
    intro tally hlenient
    rcases htally with heq | ⟨hnone, rfl, mode, hmode, hstrict⟩
    · rw [heq]
    · have hother : tally ≠ .refused := fun h => hstrict (hlenient h mode hmode)
      simp [hnone, Entry.tally, Ne.symm hother]
  refine ⟨fun tally hlenient => ?_, ⟨after, hafter, ?_, ?_⟩, hmem, hle⟩
  · rw [hnext, Statistics.counter_enter, h.counter_eq tally hlenient, tallied_cons,
      UInt64.ofNat_add]
    simp only [hcounts tally hlenient]
    split <;> rfl
  · have hhanded := hcounts .handedOut nofun
    have hgiven := hcounts .givenBack nofun
    rw [tallied_cons, tallied_cons]
    simp only [hhanded, hgiven]
    cases hsettled <;> simp [Entry.tally] at hcards ⊢ <;> omega
  · have hgauge : (gauge id (e.act event)).current.toNat + before?.elim 0 (·.bytes.toNat) =
      (gauge id e).current.toNat + after?.elim 0 (·.bytes.toNat) := hreading
    omega

end Depot

def Site.Opens (s t : Site) : Prop :=
  ∃ count, t.process.accounts = s.process.accounts ++ List.replicate count .zero

theorem Site.Opens.account_eq {s t : Site} (h : s.Opens t) (id : Nat) :
    t.process.account id = s.process.account id := by
  obtain ⟨count, haccounts⟩ := h
  simp only [Process.account, haccounts]
  by_cases hlt : id < s.process.accounts.length
  · rw [List.getElem?_append_left hlt]
  · rw [List.getElem?_append_right (Nat.not_lt.mp hlt), List.getElem?_replicate,
      List.getElem?_eq_none (Nat.not_lt.mp hlt)]
    split <;> rfl

theorem Site.Opens.length_le {s t : Site} (h : s.Opens t) :
    s.process.accounts.length ≤ t.process.accounts.length := by
  obtain ⟨count, haccounts⟩ := h
  rw [haccounts, List.length_append]
  exact Nat.le_add_right ..

namespace Depot

variable {ι : Type v} {rules : Rules ι} {e₀ e : Depot ι} {past : Past ι} {id : Nat}

theorem balanced_start {Modes : StrictMode → Prop} (hidle : ∀ i, (e.slot i).stage = .idle)
    (hzero : e.site.process.account id = .zero) : e.Balanced Modes id [] := by
  have howed : ∀ i, (e.slot i).owed? id = none := fun i => by
    rw [Slot.owed?, hidle i]
    exact ite_self _
  refine ⟨fun tally _ => ?_, ⟨∅, fun i => ?_, rfl, ?_⟩, ⟨e, List.mem_cons_self, ?_⟩, fun d hd => ?_⟩
  · rw [hzero]
    cases tally <;> rfl
  · simp [howed i]
  · rw [gauge, hzero]
    rfl
  · rw [gauge, hzero]
    rfl
  · rw [List.mem_singleton.mp hd, gauge, hzero]
    exact UInt64.le_refl _

/-- What happens elsewhere changes neither what is owed nor what was counted. -/
theorem Balanced.elsewhere {Modes : StrictMode → Prop} (h : e.Balanced Modes id past) {s : Site}
    (haccount : s.process.account id = e.site.process.account id) :
    Balanced Modes id past { e with site := s } := by
  have hgauge : gauge id { e with site := s } = gauge id e := congrArg Statistics.bytes haccount
  obtain ⟨owing, howing, hcount, hsum⟩ := h.owing
  refine ⟨fun tally hlenient => ?_, ⟨owing, howing, hcount, hgauge ▸ hsum⟩, ?_, fun d hd => ?_⟩
  · rw [haccount]
    exact h.counter_eq tally hlenient
  · obtain ⟨d, hd, hreading⟩ := h.peak_mem
    rcases List.mem_cons.mp hd with rfl | hd
    · exact ⟨_, List.mem_cons_self, by rw [hgauge, hreading]⟩
    · exact ⟨d, List.mem_cons_of_mem _ hd, by rw [hgauge, hreading]⟩
  · rw [hgauge]
    rcases List.mem_cons.mp hd with rfl | hd
    · rw [hgauge]
      exact h.le_peak e List.mem_cons_self
    · exact h.le_peak d (List.mem_cons_of_mem _ hd)

/-- The counters are words, so the difference of two is the number of active blocks as long as fewer
than `2 ^ 64` blocks were handed out. -/
theorem Balanced.active_eq {Modes : StrictMode → Prop} (h : e.Balanced Modes id past)
    {card : Nat} (hcount : tallied id past .handedOut = tallied id past .givenBack + card)
    (hlt : tallied id past .handedOut < UInt64.size) :
    (e.site.process.account id).active.toNat = card := by
  have hhanded : (e.site.process.account id).allocations.count.toNat =
      tallied id past .handedOut := by
    rw [show (e.site.process.account id).allocations.count = _ from h.counter_eq .handedOut nofun]
    exact UInt64.toNat_ofNat_of_lt' hlt
  have hgiven : (e.site.process.account id).releases.count.toNat = tallied id past .givenBack := by
    rw [show (e.site.process.account id).releases.count = _ from h.counter_eq .givenBack nofun]
    exact UInt64.toNat_ofNat_of_lt' (by omega)
  have hle : (e.site.process.account id).releases.count ≤
      (e.site.process.account id).allocations.count := by
    rw [UInt64.le_iff_toNat_le, hhanded, hgiven]
    omega
  rw [Statistics.active, if_pos hle, UInt64.toNat_sub_of_le _ _ hle, hhanded, hgiven]
  omega

variable [DecidableEq ι]

theorem balanced_of_traffic (hrun : Traffic rules e₀ past e)
    (hown : ∀ a b, rules.Permits a b → a = b) (hopens : ∀ e s, rules.Between e s → e.site.Opens s)
    (hidle : ∀ i, (e₀.slot i).stage = .idle) (hzero : e₀.site.process.account id = .zero) :
    e.Balanced rules.Modes id past := by
  induction hrun with
  | start => exact balanced_start hidle hzero
  | act event hrun hmode hmay hgoes ih =>
    have hslots := orderly_of_traffic hrun hidle fun e s h => (hopens e s h).length_le
    obtain ⟨entered?, hposts⟩ := hmay.posts hown hmode hgoes (hslots event.slot) id
    exact ih.act hposts
  | elsewhere s hrun hbetween ih => exact ih.elsewhere ((hopens _ _ hbetween).account_eq id)

/-! ### Exact accounts -/

/-- Blocks go back to the resources they came from, under strict modes of these, and elsewhere
accounts are opened at most. -/
def Rules.own (Modes : StrictMode → Prop) : Rules ι where
  Modes := Modes
  Asks _ := True
  Permits := (· = ·)
  Between e s := e.site.Opens s

instance (Modes : StrictMode → Prop) [h : DecidablePred Modes] :
    DecidablePred (Rules.own (ι := ι) Modes).Modes := h

instance (Modes : StrictMode → Prop) : DecidablePred (Rules.own (ι := ι) Modes).Asks :=
  fun _ => inferInstanceAs (Decidable True)

instance (Modes : StrictMode → Prop) : DecidableRel (Rules.own (ι := ι) Modes).Permits :=
  fun a b => inferInstanceAs (Decidable (a = b))

/-- What can be said of an account when this happened, where no diagnostic is fatal. -/
structure Accounted (id : Nat) (past : Past ι) (e : Depot ι) : Prop where
  allocations_eq :
    (e.site.process.account id).allocations.count = .ofNat (tallied id past .handedOut)
  failures_eq : (e.site.process.account id).failures.count = .ofNat (tallied id past .refused)
  releases_eq : (e.site.process.account id).releases.count = .ofNat (tallied id past .givenBack)
  /-- Blocks are active, and in use with their lengths, until their release is counted. -/
  outstanding : ∃ outstanding : Finset ι, (∀ i, i ∈ outstanding ↔ ((e.slot i).owed? id).isSome) ∧
    (tallied id past .handedOut < UInt64.size →
      (e.site.process.account id).active.toNat = outstanding.card) ∧
    (gauge id e).current.toNat = ∑ i ∈ outstanding, ((e.slot i).owed? id).elim 0 (·.bytes.toNat)
  /-- While no call is in flight, these are the blocks that the slots hold. -/
  held : (∀ i c, (e.slot i).stage ≠ .calling c) → ∀ i block, (e.slot i).owed? id = some block ↔
    (e.slot i).stage = .holding block ∧ (e.slot i).source.account = id
  peak_mem : ∃ d ∈ e :: past.map Prod.snd, (gauge id d).current = (gauge id e).peak
  le_peak : ∀ d ∈ e :: past.map Prod.snd, (gauge id d).current ≤ (gauge id e).peak
  /-- A request for nothing is answered, and leaves everything as it is. -/
  nothing : ∀ r : Resource,
    r.beginAllocate 0 e.site = (.done (.returned (.allocated none)), e.site)
  /-- A clone has an account of its own, which is empty, and no other account is touched. -/
  clone : ∀ r : Resource, (r.clone e.site.process).2.account (r.clone e.site.process).1.account =
      .zero ∧
    (∀ i, (e.slot i).stage ≠ .idle → (e.slot i).source.account ≠ (r.clone e.site.process).1.account) ∧
    e.site.Opens { e.site with process := (r.clone e.site.process).2 }

/-- In every state that a run of requests can reach, where no diagnostic is fatal and each block
goes back to the resource it came from, every account that was empty says exactly what happened on
it. -/
theorem accounted_of_traffic (hrun : Traffic (.own (· = .warn)) e₀ past e)
    (hidle : ∀ i, (e₀.slot i).stage = .idle) (hzero : e₀.site.process.account id = .zero) :
    e.Accounted id past := by
  have hopens : ∀ (e : Depot ι) (s : Site), (Rules.own (· = .warn)).Between e s → e.site.Opens s :=
    fun _ _ h => h
  have hbalanced := balanced_of_traffic hrun (fun _ _ h => h) hopens hidle hzero
  have hslots := orderly_of_traffic hrun hidle fun e s h => (hopens e s h).length_le
  obtain ⟨owing, howing, hcount, hsum⟩ := hbalanced.owing
  refine ⟨hbalanced.counter_eq .handedOut nofun, hbalanced.counter_eq .refused fun _ _ h => h,
    hbalanced.counter_eq .givenBack nofun,
    ⟨owing, howing, hbalanced.active_eq hcount, hsum⟩, fun hquiet i block => ?_,
    hbalanced.peak_mem, hbalanced.le_peak, fun _ => rfl, fun r => ⟨?_, fun i hstage => ?_, 1, rfl⟩⟩
  · unfold Slot.owed?
    cases hstage : (e.slot i).stage with
    | calling c => exact absurd hstage (hquiet i c)
    | idle | halted => simp [Stage.stake, Stake.owed?]
    | holding held => simp [Stage.stake, Stake.owed?, and_comm]
  · simp [Resource.clone, Process.openAccount, Process.account]
  · exact Nat.ne_of_lt ((hslots i).opened hstage)

/-! ### Schedules -/

inductive Move (ι : Type v) where
  | allocate (i : ι) (r : Resource) (bytes : UInt64)
  | release (i : ι) (r : Resource)
  | access (i : ι)

def Move.event? (e : Depot ι) : Move ι → Option (Event ι)
  | allocate i r bytes => some (.asked i r bytes)
  | release i r => (e.slot i).stage.block?.map (.given i r)
  | access i =>
    match (e.slot i).stage with
    | .calling c => some (.stepped i c)
    | _ => none

def carry? (rules : Rules ι) [DecidablePred rules.Modes] [DecidablePred rules.Asks]
    [DecidableRel rules.Permits] :
    List (Move ι) → Past ι × Depot ι → Option (Past ι × Depot ι)
  | [], reached => some reached
  | move :: rest, (past, e) => (move.event? e).bind fun event =>
    if rules.Modes e.site.process.readStrictMode.1 ∧ e.May rules event ∧
        (event.result e.site).1 ≠ .done .aborted then
      carry? rules rest ((event, e) :: past, e.act event)
    else none

theorem traffic_of_carry? [DecidablePred rules.Modes] [DecidablePred rules.Asks]
    [DecidableRel rules.Permits] (hrun : Traffic rules e₀ past e) (moves : List (Move ι))
    {reached : Past ι × Depot ι}
    (h : carry? rules moves (past, e) = some reached) :
    Traffic rules e₀ reached.1 reached.2 := by
  induction moves generalizing past e with
  | nil =>
    cases h
    exact hrun
  | cons move rest ih =>
    simp only [carry?, Option.bind_eq_some_iff, Option.ite_none_right_eq_some] at h
    obtain ⟨event, -, ⟨hmode, hmay, hgoes⟩, h⟩ := h
    exact ih (.act event hrun hmode hmay hgoes) h

def original : Resource :=
  ⟨.shared (Machine.sample () fun config => { config with teardownTimeout := ⟨0⟩ }).config,
    .host .required, 0⟩

def opened : Depot Bool where
  site := ⟨.initial [1] 0, (Process.fresh 1).openAccount.2⟩
  slot _ := ⟨.idle, original⟩

def cloned (e : Depot Bool) : Depot Bool :=
  { e with site := { e.site with process := (original.clone e.site.process).2 } }

/-- A block is allocated, and while it is held the name is taken; then a clone is made, the block
goes back, and the clone allocates under the same name: one account has all of this but the last,
the other has only that. -/
theorem accounted_of_traffic_clone : ∃ (past : Past Bool) (e : Depot Bool),
    Traffic (.own (· = .warn)) opened past e ∧
      e.site.process.accounts = [⟨⟨1⟩, ⟨1⟩, ⟨1⟩, ⟨0, 4096⟩⟩, ⟨⟨1⟩, ⟨0⟩, ⟨0⟩, ⟨100, 100⟩⟩] ∧
      e.Accounted 0 past ∧ e.Accounted 1 past := by
  obtain ⟨⟨past, e⟩, hplay, haccounts⟩ := Option.map_eq_some_iff.mp
    (by decide +kernel :
      ((carry? (.own (· = .warn)) (.allocate false original 4096 ::
          List.replicate 10 (.access false) ++ .allocate true original 8192 ::
          List.replicate 2 (.access true)) ([], opened)).bind fun (past, e) =>
        carry? (.own (· = .warn)) (.release false original :: List.replicate 6 (.access false) ++
          .allocate true ⟨original.strategy, original.device, 1⟩ 100 ::
          List.replicate 10 (.access true)) (past, cloned e)).map (fun (_, e) =>
            e.site.process.accounts) =
        some [⟨⟨1⟩, ⟨1⟩, ⟨1⟩, ⟨0, 4096⟩⟩, ⟨⟨1⟩, ⟨0⟩, ⟨0⟩, ⟨100, 100⟩⟩])
  obtain ⟨⟨before, d⟩, hfirst, hsecond⟩ := Option.bind_eq_some_iff.mp hplay
  have hopens : opened.site.process.account 1 = .zero := by decide
  have hcloned : Traffic (.own (· = .warn)) opened before (cloned d) :=
    .elsewhere _ (traffic_of_carry? .start _ hfirst) ⟨1, rfl⟩
  have hrun := traffic_of_carry? hcloned _ hsecond
  exact ⟨past, e, hrun, haccounts, accounted_of_traffic hrun (fun _ => rfl) (by decide),
    accounted_of_traffic hrun (fun _ => rfl) hopens⟩

end Depot

end StagingMemory
