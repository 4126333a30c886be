import StagingMemory.Proofs.Depot
import StagingMemory.Proofs.Following
import StagingMemory.Proofs.Reports
/-!
What a call enters in the account of its resource. A call makes one entry at most, in the step with
which it ends, and before it reports that it failed or what went wrong with a release. A warning
that comes earlier, that a leftover was removed or that pages stay unlocked, ends an allocation
without an entry where it is fatal: this is the only way in which an attempt goes uncounted. Main
statements: `Call.posting_step`, one lemma for every step of every call, and
`Resource.posting_beginAllocate`.
-/
namespace StagingMemory

/-! ### Entries -/

inductive Entry where
  | allocation (bytes : UInt64)
  | failure
  | release (bytes : UInt64)
  deriving DecidableEq

def Statistics.enter (s : Statistics) : Entry → Statistics
  | .allocation n => (s.recordAllocation n).2
  | .failure => s.recordFailure
  | .release n => s.recordRelease n

def Statistics.Fits (s : Statistics) (n : UInt64) : Prop :=
  s.bytes.current.toNat + n.toNat < UInt64.size

instance (s : Statistics) (n : UInt64) : Decidable (s.Fits n) :=
  inferInstanceAs (Decidable (_ < _))

namespace Statistics

variable {s : Statistics} {n : UInt64}

theorem recordAllocation_of_fits (h : s.Fits n) : s.recordAllocation n = (.returned (), { s with
    allocations := ⟨s.allocations.count + 1⟩
    bytes := ⟨s.bytes.current + n, max s.bytes.peak (s.bytes.current + n)⟩ }) := by
  have hfits : ¬ UInt64.size ≤ s.bytes.current.toNat + n.toNat := Nat.not_le.mpr h
  simp only [recordAllocation, Gauge.add, Gauge.overflows, decide_eq_true_eq, if_neg hfits]
  rfl

end Statistics

namespace Process

/-- `q` has the accounts of `p`, with at most one entry more, which is in this one and for which
there is room. -/
structure Enters (p : Process) (id : Nat) (entered? : Option Entry) (q : Process) : Prop where
  accounts_eq : q.accounts =
    entered?.elim p.accounts fun entry => p.accounts.modify id (·.enter entry)
  fits : ∀ n, entered? = some (.allocation n) → (p.account id).Fits n

variable {p q r : Process} {id other : Nat} {entered? : Option Entry}

theorem Enters.of_nothing (h : q.accounts = p.accounts) : p.Enters id none q := ⟨h, nofun⟩

theorem Enters.length_eq (h : p.Enters id entered? q) : q.accounts.length = p.accounts.length := by
  rw [h.accounts_eq]
  cases entered? with
  | none => rfl
  | some entry => exact List.length_modify ..

theorem Enters.account_eq (h : p.Enters id entered? q) (hopen : id < p.accounts.length) :
    q.account id = entered?.elim (p.account id) (p.account id).enter := by
  unfold account
  rw [h.accounts_eq]
  cases entered? with
  | none => rfl
  | some entry => simp [List.getElem?_eq_getElem hopen]

/-- No other account is touched. -/
theorem Enters.account_of_ne (h : p.Enters id entered? q) (hother : other ≠ id) :
    q.account other = p.account other := by
  unfold account
  rw [h.accounts_eq]
  cases entered? with
  | none => rfl
  | some entry => simp [Ne.symm hother]

/-- What else happens in the process leaves the accounts alone. -/
theorem Enters.congr (h : p.Enters id entered? q) (hbefore : p.accounts = r.accounts) :
    r.Enters id entered? q where
  accounts_eq := hbefore ▸ h.accounts_eq
  fits n hn := by
    have hroom := h.fits n hn
    rwa [account, hbefore] at hroom

end Process

/-! ### What is at stake -/

inductive Stake where
  | nothing
  /-- An allocation of so many bytes is under way. -/
  | asked (bytes : UInt64)
  /-- The block was handed out, and its release has not been counted. -/
  | owed (block : Block)
  deriving DecidableEq

namespace Stake

def owed? : Stake → Option Block
  | owed block => some block
  | _ => none

end Stake

namespace Call

def account : Call → Nat
  | attach a _ => a.account
  | detach d _ => d.account

def stake : Call → Stake
  | attach a _ => .asked a.bytes
  | detach d _ => .owed d.block

/-- A leader that is about to wait can hold its deadline. -/
def Timely (s : Site) : Call → Prop
  | detach d (.gather _) => d.config.teardownTimeout.isZero = true ∨
      Wait.start? s.kernel.clock d.config.teardownTimeout d.config.pollInterval ≠ none
  | _ => True

instance (s : Site) (c : Call) : Decidable (c.Timely s) := by
  unfold Timely
  split <;> infer_instance

/-- What is undone is undone because registering failed; where it failed by a fault, warnings are
fatal in one of the strict modes. -/
def Orderly (Modes : StrictMode → Prop) : Call → Prop
  | attach _ phase => Attach.EndsRegistration phase ∧
      ∀ m fault, phase = .undo m (.faulted fault) → Modes .fatalWarnings
  | detach _ _ => True

end Call

def Stage.stake : Stage → Stake
  | calling c => c.stake
  | holding block => .owed block
  | _ => .nothing

/-- What a request or a step comes to and what it enters, by what was at stake, in a process that is
only ever in some of the strict modes. -/
inductive Posting (Modes : StrictMode → Prop) : Stake → Progress Call Reply → Option Entry → Prop
  | running {stake : Stake} {c : Call} (h : c.stake = stake) : Posting Modes stake (.running c) none
  | nothing : Posting Modes (.asked 0) (.done (.returned (.allocated none))) none
  | handedOut (block : Block) :
      Posting Modes (.asked block.bytes) (.done (.returned (.allocated (some block))))
        (some (.allocation block.bytes))
  | refused (bytes : UInt64) (error : AllocationError) :
      Posting Modes (.asked bytes) (.done (.returned (.refused error))) (some .failure)
  /-- The error was counted before it was reported, and the report was fatal. -/
  | failedFatally (bytes : UInt64) {error : AllocationError} {d : Diagnostic} {context : String}
      (h : error.diagnostic? = some d) {mode : StrictMode} (hmode : Modes mode)
      (hstrict : mode ≠ .warn) :
      Posting Modes (.asked bytes) (.done (.faulted (Process.strictFault d context)))
        (some .failure)
  /-- A warning was fatal, and nothing was counted before it. -/
  | warnedFatally (bytes : UInt64) {d : Diagnostic} {context : String}
      (h : d = .staleRemoved ∨ d = .lockFailed) (hmode : Modes .fatalWarnings) :
      Posting Modes (.asked bytes) (.done (.faulted (Process.strictFault d context))) none
  | released (block : Block) :
      Posting Modes (.owed block) (.done (.returned .released)) (some (.release block.bytes))
  /-- The release was counted before anything was reported, and a report was fatal. -/
  | releasedFatally (block : Block) {d : Diagnostic} {context : String}
      (h : d = .teardownTimedOut ∨ d = .unlinkFailed) (hmode : Modes .fatalWarnings) :
      Posting Modes (.owed block) (.done (.faulted (Process.strictFault d context)))
        (some (.release block.bytes))

/-- A call that goes on enters nothing, and is about what it was about. -/
theorem Posting.of_running {Modes : StrictMode → Prop} {stake : Stake} {c : Call}
    {entered? : Option Entry} (h : Posting Modes stake (.running c) entered?) :
    entered? = none ∧ c.stake = stake := by
  cases h with
  | running h => exact ⟨rfl, h⟩

/-! ### Fatal reports -/

namespace Process

variable {p q : Process} {r : Report}

/-- Where the report of a warning is fatal, warnings are. -/
theorem mode_eq_of_fatal (h : p.fatal r = true) (hwarning : r.diagnostic.severity = .warning) :
    p.readStrictMode.1 = .fatalWarnings := by
  have hfatal : p.readStrictMode.1.warningsFatal = true := by
    rw [fatal, hwarning] at h
    exact h
  exact eq_of_beq hfatal

theorem reportsAs_emitAny (p : Process) (d : Diagnostic) (context : Option String) :
    p.ReportsAs (p.emitAny d context).2 := by
  cases context with
  | none => exact .refl p
  | some context => exact (p.emit_spec d context).2.toReportsAs

/-- Only where warnings are fatal does a warning fault. -/
theorem mode_of_emitAny {d : Diagnostic} {context : Option String} {fault : Fault}
    (h : p.emitAny d context = (.faulted fault, q)) (hwarning : d.severity = .warning) :
    p.readStrictMode.1 = .fatalWarnings := by
  cases context with
  | none => cases h
  | some context => exact mode_eq_of_fatal (fatal_of_emit h).1 hwarning

end Process

theorem Device.mode_of_register {device : Device} {p q : Process} {address : Nat} {bytes : UInt64}
    {flags : RegisterFlags} {fault : Fault}
    (h : device.register p address bytes flags = (.faulted fault, q)) :
    p.readStrictMode.1 = .fatalWarnings := by
  obtain ⟨-, hwarned, hcalm⟩ := register_spec h
  cases hwarning : device.warning? p address bytes with
  | none =>
    obtain ⟨answer, hanswer⟩ := hcalm hwarning
    cases hanswer
  | some r =>
    have hfault := hwarned r hwarning
    have hseverity : r.diagnostic.severity = .warning := by
      unfold warning? at hwarning
      split at hwarning
      · split at hwarning <;> cases hwarning
        rfl
      · cases hwarning
    cases hfatal : p.fatal r with
    | true => exact Process.mode_eq_of_fatal hfatal hseverity
    | false =>
      rw [hfatal] at hfault
      cases hfault

/-! ### Shared memory -/

namespace Attach

variable {a : Attach} {s : Site} {o : Outcome Result} {p : Process}

theorem enters_of_succeeded {m : Mapping}
    (h : a.succeeded m s = (.done o, { s with process := p }))
    (hroom : (s.process.account a.account).Fits a.bytes) :
    s.process.Enters a.account (some (.allocation a.bytes)) p := by
  unfold succeeded at h
  cases h
  refine ⟨rfl, fun n hn => ?_⟩
  cases hn
  exact hroom

theorem enters_of_failed {error : AllocationError}
    (h : a.failed error s = (.done o, { s with process := p })) :
    s.process.Enters a.account (some .failure) p := by
  unfold failed at h
  cases hd : error.diagnostic? with
  | none =>
    simp only [hd] at h
    cases h
    exact ⟨rfl, nofun⟩
  | some d =>
    simp only [hd] at h
    generalize "rank " ++ toString a.config.rank ++ ": " ++ error.message = context at h
    cases hemit : (s.process.recordFailure a.account).emit d context with
    | mk reported q =>
      rw [hemit] at h
      cases h
      exact ⟨(Process.wrote_of_emit hemit).accounts_eq, nofun⟩

/-- An allocation makes its entry in the step with which it succeeds or fails. -/
theorem Transition.posting (Modes : StrictMode → Prop) {phase : Phase} {t : Site}
    {progress : Progress Phase Result} (h : Transition a phase s progress t)
    (hmode : Modes s.process.readStrictMode.1) (hroomy : a.Roomy s phase)
    (horderly : (Call.attach a phase).Orderly Modes) :
    ∃ entered?, Posting Modes (.asked a.bytes) (progress.map (.attach a) .ofResult) entered? ∧
      s.process.Enters a.account entered? t.process := by
  cases progress with
  | running next => exact ⟨none, .running rfl, .of_nothing h.accounts_eq⟩
  | done o =>
    cases h with
    | leftoverFatal h =>
      obtain ⟨hfatal, hfault⟩ := Process.fatal_of_emit h
      subst hfault
      rw [Process.mode_eq_of_fatal hfatal rfl] at hmode
      exact ⟨none, .warnedFatally a.bytes (Or.inl rfl) hmode,
        .of_nothing (Process.wrote_of_emit h).accounts_eq⟩
    | @undoneFault _ m fault =>
      have haccounts : (a.undone s m).process.accounts = s.process.accounts := by
        unfold undone
        split <;> rfl
      rcases horderly.1 with ⟨e, he⟩ | ⟨context, hfault⟩
      · cases he
      · cases hfault
        exact ⟨none, .warnedFatally a.bytes (Or.inr rfl) (horderly.2 m _ rfl), .of_nothing haccounts⟩
    | undoneAbort => rcases horderly.1 with ⟨e, he⟩ | ⟨context, hfault⟩ <;> cases ‹_ = _›
    | @finished _ m _ p h =>
      have hroom : (s.process.account a.account).bytes.current.toNat + a.bytes.toNat <
          UInt64.size := hroomy rfl
      obtain ⟨-, ho⟩ := succeeded_spec h
      rw [if_pos hroom] at ho
      subst ho
      exact ⟨_, .handedOut ⟨m.payload, a.bytes⟩, enters_of_succeeded h hroom⟩
    | @failed _ error _ _ h =>
      have henters := enters_of_failed h
      rcases (failed_spec h).2 with rfl | ⟨d, context, hd, rfl⟩
      · exact ⟨_, .refused a.bytes _, henters⟩
      · refine ⟨_, .failedFatally a.bytes hd hmode fun hwarn => ?_, henters⟩
        cases failed_of_lenient hwarn h

/-- What is undone next is undone because registering failed. -/
theorem Transition.orderly (Modes : StrictMode → Prop) {phase next : Phase} {t : Site}
    (h : Transition a phase s (.running next) t) (hmode : Modes s.process.readStrictMode.1) :
    (Call.attach a next).Orderly Modes := by
  refine ⟨h.endsRegistration, fun m fault hnext => ?_⟩
  cases h with
  | registerFatal h =>
    rw [Device.mode_of_register h] at hmode
    exact hmode
  | registered => split at hnext <;> cases hnext
  | _ => cases hnext

end Attach

namespace Detach

variable {d : Detach} {s : Site}

/-- What is reported last faults only where warnings are fatal. -/
theorem mode_of_reports {late : Option String} {refused : Option SystemError} {p : Process}
    {fault : Fault} (h : (d.reports late refused p).1 = .faulted fault) :
    p.readStrictMode.1 = .fatalWarnings := by
  unfold reports at h
  cases hfirst : p.emitAny .teardownTimedOut late with
  | mk first q =>
    rw [hfirst] at h
    cases first with
    | aborted => cases h
    | faulted fault => exact Process.mode_of_emitAny hfirst rfl
    | returned _ =>
      have hsame := (p.reportsAs_emitAny .teardownTimedOut late).mode_eq
      rw [hfirst] at hsame
      dsimp only at h
      cases hsecond : q.emitAny .unlinkFailed
          (refused.map fun e => "segment " ++ d.config.segment.text ++ ": " ++ e.message) with
      | mk second r =>
        rw [hsecond] at h
        cases second with
        | returned _ | aborted => cases h
        | faulted fault => exact hsame.symm.trans (Process.mode_of_emitAny hsecond rfl)

/-- The release is counted, whatever is reported afterwards. -/
theorem posting_of_closed (Modes : StrictMode → Prop) {t : Site} {late : Option String}
    {refused : Option SystemError} {o : Outcome Unit} (hmode : Modes s.process.readStrictMode.1)
    (h : d.closed late refused s = (.done o, t)) :
    Posting Modes (.owed d.block) (.done (o.map fun _ => .released))
        (some (.release d.block.bytes)) ∧
      s.process.Enters d.account (some (.release d.block.bytes)) t.process := by
  rw [closed_eq] at h
  cases h
  obtain ⟨hwrote, hending⟩ :=
    d.reports_spec late refused (s.process.recordRelease d.account d.block.bytes)
  refine ⟨?_, hwrote.accounts_eq, nofun⟩
  rcases hending with hreturned | ⟨context, hfatal⟩
  · rw [hreturned]
    exact .released d.block
  · have hwarnings : Modes .fatalWarnings := by
      have hstrict : (s.process.recordRelease d.account d.block.bytes).readStrictMode.1 =
          .fatalWarnings := by
        rcases hfatal with hfatal | hfatal <;> exact mode_of_reports hfatal
      rw [← hstrict]
      exact hmode
    rcases hfatal with hfatal | hfatal <;> rw [hfatal]
    · exact .releasedFatally d.block (Or.inl rfl) hwarnings
    · exact .releasedFatally d.block (Or.inr rfl) hwarnings

/-- A release makes its entry in its last step, before it reports anything. -/
theorem Transition.posting (Modes : StrictMode → Prop) {phase : Phase} {t : Site}
    {progress : Progress Phase Unit} (h : Transition d phase s progress t)
    (hmode : Modes s.process.readStrictMode.1) (htimely : (Call.detach d phase).Timely s)
    (hgoes : progress ≠ .done .aborted) :
    ∃ entered?, Posting Modes (.owed d.block) (progress.map (.detach d) fun _ => .released) entered? ∧
      s.process.Enters d.account entered? t.process := by
  cases h with
  | refused | lost => exact absurd rfl hgoes
  | @overflowed _ m hzero hnone =>
    rcases htimely with h | h
    · cases hzero.symm.trans h
    · exact absurd hnone h
  | unregistered h =>
    exact ⟨none, .running rfl, .of_nothing (Device.kept_of_unregister h).accounts_eq⟩
  | @closed _ m _ _ _ _ h =>
    obtain ⟨hposting, henters⟩ := posting_of_closed Modes (s := s.unmap m) hmode h
    exact ⟨_, hposting, henters.congr rfl⟩
  | _ => exact ⟨none, .running rfl, .of_nothing rfl⟩

end Detach

theorem Call.posting_step (Modes : StrictMode → Prop) (c : Call) {s : Site}
    (hmode : Modes s.process.readStrictMode.1) (hroomy : c.Roomy s) (htimely : c.Timely s)
    (horderly : c.Orderly Modes) (hgoes : (c.step s).1 ≠ .done .aborted) :
    ∃ entered?, Posting Modes c.stake (c.step s).1 entered? ∧
      s.process.Enters c.account entered? (c.step s).2.process := by
  cases c with
  | attach a phase => exact (a.step_transition phase s).posting Modes hmode hroomy horderly
  | detach d phase =>
    refine (d.step_transition phase s).posting Modes hmode htimely fun haborted => hgoes ?_
    simp [step, ofDetach, haborted]

theorem Call.orderly_step (Modes : StrictMode → Prop) {c next : Call} {s : Site}
    (h : (c.step s).1 = .running next) (hmode : Modes s.process.readStrictMode.1) :
    next.Orderly Modes := by
  cases next with
  | attach a phase =>
    obtain ⟨_, rfl, ht⟩ := attach_of_step h
    exact ht.orderly Modes hmode
  | detach => trivial

/-! ### Pinned memory -/

/-- Mapping memory for the process's own enters nothing, and the only fault is the warning that its
pages stay unlocked. -/
theorem Process.allocate_spec {device : Device} {p q : Process} {bytes : UInt64}
    {result : Outcome (Except DeviceError Nat)} (h : device.allocate p bytes = (result, q)) :
    q.accounts = p.accounts ∧ ((∃ answer, result = .returned answer) ∨
      ∃ context, result = .faulted (strictFault .lockFailed context) ∧
        p.readStrictMode.1 = .fatalWarnings) := by
  cases device with
  | dummy index =>
    unfold Device.allocate at h
    obtain ⟨answer, r, hasked⟩ : ∃ answer r, p.dummyAllocate index bytes = (answer, r) :=
      ⟨_, _, rfl⟩
    simp only [hasked] at h
    cases h
    refine ⟨?_, Or.inl ⟨_, rfl⟩⟩
    rw [(dummyAllocate_spec hasked).1]
    rfl
  | host policy =>
    unfold Device.allocate hostAllocate at h
    dsimp only at h
    split at h
    · cases h
      exact ⟨rfl, Or.inl ⟨_, rfl⟩⟩
    case h_2 length _ =>
      split at h
      · cases h
        exact ⟨rfl, Or.inl ⟨_, rfl⟩⟩
      case h_2 address space _ =>
        cases hlock : ({ p with space } : Process).lockPages policy address length with
        | mk locked r =>
          obtain ⟨hkept, -, hne, hfault⟩ := kept_of_lockPages hlock
          have haccounts : r.accounts = p.accounts := hkept.accounts_eq
          rw [hlock] at h
          cases locked with
          | returned answer => cases answer <;> cases h <;> exact ⟨haccounts, Or.inl ⟨_, rfl⟩⟩
          | faulted fault =>
            cases h
            obtain ⟨context, rfl⟩ := hfault fault rfl
            have hregister : (Device.host policy).register { p with space } address length
                .standard = (.faulted (strictFault .lockFailed context), q) := hlock
            have hmode := Device.mode_of_register hregister
            exact ⟨haccounts, Or.inr ⟨context, rfl, hmode⟩⟩
          | aborted => exact absurd rfl hne

theorem Device.accounts_of_free {device : Device} {p q : Process} {address : Nat} {bytes : UInt64}
    {result : Except DeviceError Unit} (h : device.free p address bytes = (result, q)) :
    q.accounts = p.accounts := by
  cases device with
  | dummy index =>
    change p.dummyFree index address bytes = (result, q) at h
    unfold Process.dummyFree at h
    dsimp only at h
    split at h
    · obtain ⟨-, rfl⟩ := Prod.mk.inj h
      rfl
    · split at h <;> obtain ⟨-, rfl⟩ := Prod.mk.inj h <;> rfl
  | host policy =>
    change p.hostFree address bytes = (result, q) at h
    unfold Process.hostFree at h
    split at h
    · cases h
      rfl
    · split at h <;> cases h <;> rfl

/-- Where the device answers, the answer is counted at once. -/
theorem Pinned.posting_allocated (Modes : StrictMode → Prop) {r : Pinned} {bytes : UInt64}
    {p : Process} (answer : Except DeviceError Nat)
    (hfits : ∀ address, answer = .ok address → (p.account r.account).Fits bytes) :
    ∃ entered?, Posting Modes (.asked bytes)
        (.done ((r.allocated bytes answer p).1.map .ofResult)) entered? ∧
      p.Enters r.account entered? (r.allocated bytes answer p).2 := by
  cases answer with
  | error e => exact ⟨_, .refused bytes _, rfl, nofun⟩
  | ok address =>
    have hroom := hfits address rfl
    have hrecorded : p.recordAllocation r.account bytes = (.returned (),
        p.modifyAccount r.account fun s => (s.recordAllocation bytes).2) := by
      rw [Process.recordAllocation, Statistics.recordAllocation_of_fits hroom]
    simp only [allocated, hrecorded]
    refine ⟨_, .handedOut ⟨address, bytes⟩, rfl, fun n hn => ?_⟩
    cases hn
    exact hroom

/-! ### Requests -/

namespace Resource

variable {r : Resource} {bytes : UInt64} {block : Block} {s : Site}

def Fits (r : Resource) (bytes : UInt64) (p : Process) : Prop := (p.account r.account).Fits bytes

instance (r : Resource) (bytes : UInt64) (p : Process) : Decidable (r.Fits bytes p) :=
  inferInstanceAs (Decidable ((p.account r.account).Fits bytes))

/-- The account has room for what the request is about to hand out. -/
def Roomy (r : Resource) (bytes : UInt64) (p : Process) : Prop :=
  match r.strategy, (r.device.allocate p bytes).1 with
  | .pinned, .returned (.ok _) => r.Fits bytes p
  | _, _ => True

instance (r : Resource) (bytes : UInt64) (p : Process) : Decidable (r.Roomy bytes p) := by
  unfold Roomy
  split <;> infer_instance

theorem Fits.roomy {p : Process} (h : r.Fits bytes p) : r.Roomy bytes p := by
  unfold Roomy
  split
  · exact h
  · trivial

/-- A follower's deadline is a time that the clock can hold. -/
def Prompt (r : Resource) (now : Nat) : Prop :=
  match r.strategy with
  | .pinned => True
  | .shared config => config.isLeader = true ∨
      Wait.start? now config.bootstrapTimeout config.pollInterval ≠ none

instance (r : Resource) (now : Nat) : Decidable (r.Prompt now) := by
  unfold Prompt
  split <;> infer_instance

theorem posting_beginAllocate (Modes : StrictMode → Prop)
    (hmode : Modes s.process.readStrictMode.1) (hroomy : r.Roomy bytes s.process)
    (hprompt : r.Prompt s.kernel.clock) :
    ∃ entered?, Posting Modes (.asked bytes) (r.beginAllocate bytes s).1 entered? ∧
      s.process.Enters r.account entered? (r.beginAllocate bytes s).2.process := by
  by_cases hzero : bytes = 0
  · subst hzero
    exact ⟨none, .nothing, .of_nothing rfl⟩
  · obtain ⟨strategy, device, account⟩ := r
    cases strategy with
    | pinned =>
      rw [beginAllocate, if_neg hzero]
      simp only [Pinned.allocate]
      cases hasked : device.allocate s.process bytes with
      | mk result p =>
        obtain ⟨haccounts, ⟨answer, rfl⟩ | ⟨context, rfl, hstrict⟩⟩ :=
          Process.allocate_spec hasked
        · have hroom : ∀ address, answer = .ok address → (p.account account).Fits bytes := by
            rintro address rfl
            simp only [Roomy, hasked] at hroomy
            simp only [Process.account, haccounts]
            exact hroomy
          obtain ⟨entered?, hposting, henters⟩ :=
            Pinned.posting_allocated Modes (r := ⟨device, account⟩) answer hroom
          exact ⟨entered?, hposting, henters.congr haccounts⟩
        · rw [hstrict] at hmode
          exact ⟨none, .warnedFatally bytes (Or.inr rfl) hmode, .of_nothing haccounts⟩
    | shared config =>
      rcases (⟨(), config, device, account⟩ : Member Unit).beginAllocate_spec bytes s with
        ⟨phase, hfirst, heq⟩ | ⟨o, heq, -⟩
      · have hresult : (⟨.shared config, device, account⟩ : Resource).beginAllocate bytes s =
            (.running (.attach ⟨config, device, account, bytes⟩ phase), s) := heq
        rw [hresult]
        exact ⟨none, .running rfl, .of_nothing rfl⟩
      · have hresult : (⟨.shared config, device, account⟩ : Resource).beginAllocate bytes s =
            (.done o, s) := heq
        rw [beginAllocate, if_neg hzero] at hresult
        simp only [Attach.begin] at hresult
        split at hresult
        · cases hresult
        · split at hresult
          · cases hresult
          case isFalse hfollows =>
            split at hresult
            · cases hresult
            case h_2 hnone => exact absurd hnone (hprompt.resolve_left hfollows)

theorem posting_beginRelease (Modes : StrictMode → Prop)
    (hgoes : (r.beginRelease block s).1 ≠ .done .aborted) :
    ∃ entered?, Posting Modes (.owed block) (r.beginRelease block s).1 entered? ∧
      s.process.Enters r.account entered? (r.beginRelease block s).2.process := by
  obtain ⟨strategy, device, account⟩ := r
  cases strategy with
  | shared config => exact ⟨none, .running rfl, .of_nothing rfl⟩
  | pinned =>
    cases hfree : device.free s.process block.address block.bytes with
    | mk answer p =>
      have haccounts := Device.accounts_of_free hfree
      simp only [beginRelease, Pinned.release, hfree] at hgoes ⊢
      cases answer with
      | error e => exact absurd rfl hgoes
      | ok _ =>
        have henters : p.Enters account (some (.release block.bytes))
          (p.recordRelease account block.bytes) := ⟨rfl, by simp⟩
        exact ⟨_, .released block, henters.congr haccounts⟩

end Resource

/-! ### One attempt -/

structure Site.SparesAccount (id : Nat) (s t : Site) : Prop where
  account_eq : t.process.account id = s.process.account id
  length_le : s.process.accounts.length ≤ t.process.accounts.length
  mode_eq : t.process.readStrictMode.1 = s.process.readStrictMode.1

theorem Site.SparesAccount.trans {id : Nat} {s t u : Site} (h : s.SparesAccount id t)
    (k : t.SparesAccount id u) : s.SparesAccount id u :=
  ⟨k.account_eq.trans h.account_eq, Nat.le_trans h.length_le k.length_le,
    k.mode_eq.trans h.mode_eq⟩

/-- How an allocation of so many bytes ends under a strict mode, and what it makes of the account.
-/
inductive Attempted (mode : StrictMode) (bytes : UInt64) (before : Statistics) :
    Outcome Reply → Statistics → Prop
  | handedOut (address : Nat) :
      Attempted mode bytes before (.returned (.allocated (some ⟨address, bytes⟩))) { before with
        allocations := ⟨before.allocations.count + 1⟩
        bytes := ⟨before.bytes.current + bytes,
          max before.bytes.peak (before.bytes.current + bytes)⟩ }
  | refused (error : AllocationError) :
      Attempted mode bytes before (.returned (.refused error))
        { before with failures := ⟨before.failures.count + 1⟩ }
  | failedFatally {error : AllocationError} {d : Diagnostic} {context : String}
      (h : error.diagnostic? = some d) (hmode : mode ≠ .warn) :
      Attempted mode bytes before (.faulted (Process.strictFault d context))
        { before with failures := ⟨before.failures.count + 1⟩ }
  /-- The attempt is not counted. -/
  | warnedFatally {d : Diagnostic} {context : String} (h : d = .staleRemoved ∨ d = .lockFailed)
      (hmode : mode = .fatalWarnings) :
      Attempted mode bytes before (.faulted (Process.strictFault d context)) before

theorem Posting.attempted {mode : StrictMode} {bytes : UInt64} {before : Statistics}
    {o : Outcome Reply} {entered? : Option Entry} (hbytes : bytes ≠ 0) (hfits : before.Fits bytes)
    (h : Posting (· = mode) (.asked bytes) (.done o) entered?) :
    Attempted mode bytes before o (entered?.elim before before.enter) := by
  cases h with
  | nothing => exact absurd rfl hbytes
  | handedOut block =>
    simp only [Option.elim_some, Statistics.enter, Statistics.recordAllocation_of_fits hfits]
    exact .handedOut block.address
  | refused => exact .refused _
  | failedFatally _ h hmode hstrict => exact .failedFatally h (hmode ▸ hstrict)
  | warnedFatally _ h hmode => exact .warnedFatally h hmode.symm

namespace Resource

structure Attempting (r : Resource) (bytes : UInt64) (s₀ : Site) (c : Call) (s : Site) : Prop where
  account_eq : c.account = r.account
  stake_eq : c.stake = .asked bytes
  orderly : c.Orderly (· = s₀.process.readStrictMode.1)
  spares : s₀.SparesAccount r.account s

variable {r : Resource} {bytes : UInt64} {s₀ s t : Site} {c : Call}

theorem Attempting.step (h : r.Attempting bytes s₀ c s) (hbytes : bytes ≠ 0)
    (hopen : r.account < s₀.process.accounts.length) (hfits : r.Fits bytes s₀.process) :
    Reached (r.Attempting bytes s₀)
      (fun o t => Attempted s₀.process.readStrictMode.1 bytes (s₀.process.account r.account) o
        (t.process.account r.account)) (c.step s) := by
  cases c with
  | detach d phase => cases h.stake_eq
  | attach a phase =>
    obtain ⟨haccount, hasked, horderly, hspares⟩ := h
    obtain rfl : a.bytes = bytes := Stake.asked.inj hasked
    have hsame : a.account = r.account := haccount
    have hroom : (s.process.account a.account).Fits a.bytes := by
      rw [hsame, hspares.account_eq]
      exact hfits
    have ht := a.step_transition phase s
    obtain ⟨entered?, hposting, henters⟩ :=
      ht.posting (· = s₀.process.readStrictMode.1) hspares.mode_eq (fun _ => hroom) horderly
    have hafter := henters.account_eq
      (hsame ▸ Nat.lt_of_lt_of_le hopen hspares.length_le : a.account < s.process.accounts.length)
    rw [hsame, hspares.account_eq] at hafter
    cases hprogress : (a.step phase s).1 with
    | running next =>
      rw [hprogress] at hposting
      simp only [Call.step, Call.ofAttach, hprogress]
      obtain ⟨rfl, -⟩ := hposting.of_running
      refine ⟨haccount, hasked, Call.orderly_step _ (c := .attach a phase) (s := s) ?_ hspares.mode_eq,
        hafter, ?_, ?_⟩
      · simp only [Call.step, Call.ofAttach, hprogress, Progress.map_running]
      · rw [henters.length_eq]
        exact hspares.length_le
      · exact ht.spoke.mode_eq.trans hspares.mode_eq
    | done o =>
      rw [hprogress] at hposting
      simp only [Call.step, Call.ofAttach, hprogress]
      show Attempted _ _ _ _ _
      rw [hafter]
      exact hposting.attempted hbytes hfits

/-- The beginning of an allocation comes to an end, or to an allocation under way. -/
theorem attempting_beginAllocate (hbytes : bytes ≠ 0)
    (hopen : r.account < s.process.accounts.length) (hfits : r.Fits bytes s.process)
    (hprompt : r.Prompt s.kernel.clock) :
    Reached (r.Attempting bytes s)
      (fun o t => Attempted s.process.readStrictMode.1 bytes (s.process.account r.account) o
        (t.process.account r.account)) (r.beginAllocate bytes s) := by
  obtain ⟨entered?, hposting, henters⟩ :=
    posting_beginAllocate (· = s.process.readStrictMode.1) rfl hfits.roomy hprompt
  have hafter := henters.account_eq hopen
  cases hbegun : r.beginAllocate bytes s with
  | mk progress t =>
    rw [hbegun] at hposting hafter
    cases progress with
    | done o =>
      show Attempted _ _ _ _ _
      rw [hafter]
      exact hposting.attempted hbytes hfits
    | running c =>
      obtain ⟨strategy, device, account⟩ := r
      cases strategy with
      | pinned =>
        rw [beginAllocate, if_neg hbytes] at hbegun
        cases hbegun
      | shared config =>
        rcases (⟨(), config, device, account⟩ : Member Unit).beginAllocate_spec bytes s with
          ⟨phase, hfirst, heq⟩ | ⟨o, heq, -⟩
        · cases hbegun.symm.trans heq
          refine ⟨rfl, rfl, ?_, rfl, Nat.le_refl _, rfl⟩
          exact ⟨by cases hfirst <;> trivial, by cases hfirst <;> simp⟩
        · cases hbegun.symm.trans heq

/-- An allocation ends. -/
theorem allocate_ends (r : Resource) (bytes : UInt64) (s : Site) :
    ∃ o t, r.allocate bytes s = (.done o, t) := by
  unfold allocate
  cases hbegun : r.beginAllocate bytes s with
  | mk progress t =>
    cases progress with
    | done o => exact ⟨o, t, runAlone_done _ _ _⟩
    | running c =>
      obtain ⟨strategy, device, account⟩ := r
      cases strategy with
      | pinned =>
        unfold beginAllocate at hbegun
        split at hbegun <;> cases hbegun
      | shared config =>
        have hreached : ∀ result : Progress Call Reply × Site,
            Reached (fun _ _ => True) (fun _ _ => True) result := fun result => by
          obtain ⟨_ | _, _⟩ := result <;> trivial
        obtain ⟨o, u, hrun, -⟩ := runAlone_rule (fun _ _ => True) (fun _ _ => True)
          (fun c s _ => hreached _) c t _ (budget_beginAllocate hbegun) trivial
        exact ⟨o, u, hrun⟩

end Resource

/-- Every attempt to allocate ends and is counted, as a success exactly if it hands out a block, and
else as a failure, whether it returns the error or faults over its report; unless a warning on the
way is fatal, over which it faults uncounted. -/
theorem attempts_counted (r : Resource) {bytes : UInt64} {s : Site} (hbytes : bytes ≠ 0)
    (hopen : r.account < s.process.accounts.length) (hfits : r.Fits bytes s.process)
    (hprompt : r.Prompt s.kernel.clock) :
    (∃ o t, r.allocate bytes s = (.done o, t) ∧ Attempted s.process.readStrictMode.1 bytes
      (s.process.account r.account) o (t.process.account r.account)) ∧
    ∀ steps o t,
      Course (Site.SparesAccount r.account) (r.beginAllocate bytes s) steps (.done o, t) →
        Attempted s.process.readStrictMode.1 bytes (s.process.account r.account) o
          (t.process.account r.account) := by
  have hcourse : ∀ steps o t,
      Course (Site.SparesAccount r.account) (r.beginAllocate bytes s) steps (.done o, t) →
        Attempted s.process.readStrictMode.1 bytes (s.process.account r.account) o
          (t.process.account r.account) := fun steps o t h =>
    h.rule (fun _ c u => r.Attempting bytes s c u) (fun _ o u =>
        Attempted s.process.readStrictMode.1 bytes (s.process.account r.account) o
          (u.process.account r.account))
      (Resource.attempting_beginAllocate hbytes hopen hfits hprompt)
      (fun _ _ _ _ hattempting hbetween =>
        { hattempting with spares := hattempting.spares.trans hbetween })
      (fun _ _ _ hattempting => hattempting.step hbytes hopen hfits)
  have hwake : ∀ (c : Call) (u : Site), u.SparesAccount r.account (c.wakeUp u) := fun c u => by
    obtain ⟨clock, heq, -⟩ := c.wakeUp_spec u
    rw [heq]
    exact ⟨rfl, Nat.le_refl _, rfl⟩
  obtain ⟨o, t, hallocate⟩ := r.allocate_ends bytes s
  have hrun := r.course_allocate hwake bytes s
  rw [hallocate] at hrun
  exact ⟨⟨o, t, hallocate, hcourse _ o t hrun⟩, hcourse⟩

/-- Errors are fatal, and the error is counted before the call faults over it. -/
theorem attempts_counted_beset : ∃ fault t,
    greedy.Fits 131072 beset.process ∧ greedy.Prompt beset.kernel.clock ∧
      greedy.allocate 131072 beset = (.done (.faulted fault), t) ∧
      t.process.account 0 = { Statistics.zero with failures := ⟨1⟩ } ∧
      Attempted .fatalErrors 131072 .zero (.faulted fault) (t.process.account 0) := by
  have hfits : greedy.Fits 131072 beset.process := by decide
  have hprompt : greedy.Prompt beset.kernel.clock := by decide
  obtain ⟨⟨o, t, hallocate, hattempted⟩, -⟩ :=
    attempts_counted greedy (by decide) (by decide) hfits hprompt
  have hend : (greedy.allocate 131072 beset).1 = .done (.faulted (Report.fault ⟨.registerFailed,
        some ("rank 0: " ++ (AllocationError.device "host_register"
          (.system "mlock" .outOfMemory)).message)⟩)) ∧
      (greedy.allocate 131072 beset).2.process.account 0 =
        { Statistics.zero with failures := ⟨1⟩ } := by
    decide +kernel
  rw [hallocate] at hend
  obtain ⟨hfaulted, haccount⟩ := hend
  cases hfaulted
  exact ⟨_, t, hfits, hprompt, hallocate, haccount, hattempted⟩

def lockless : Site where
  kernel := .initial [1] 0
  process :=
    { (Process.fresh 1).openAccount.2 with
      strict := StrictCell.fresh.set .fatalWarnings
      space := { Memory.AddressSpace.fresh with lockLimit := 0 } }

def orphaned : Site :=
  { beset with process := { beset.process with strict := StrictCell.fresh.set .fatalWarnings } }

def Progress.fault? : Progress Call Reply → Option Fault
  | .done (.faulted fault) => some fault
  | _ => none

/-- The attempt has room on its account and time enough, and ends in a fault that is not counted. -/
def Resource.FaultsUncounted (r : Resource) (bytes : UInt64) (s : Site) : Prop :=
  r.account < s.process.accounts.length ∧ r.Fits bytes s.process ∧ r.Prompt s.kernel.clock ∧
    (r.allocate bytes s).1.fault?.isSome ∧
      (r.allocate bytes s).2.process.account r.account = s.process.account r.account

/-- Attempts that fault uncounted: on pinned memory and on shared memory whose pages cannot be
locked, and of a leader that has removed a leftover. -/
theorem attempts_uncounted :
    (⟨.pinned, .host .bestEffort, 0⟩ : Resource).FaultsUncounted 4096 lockless ∧
      (⟨.shared (Machine.sample () id).config, .host .bestEffort, 0⟩ : Resource).FaultsUncounted 4096
        lockless ∧
      greedy.FaultsUncounted 4096 orphaned := by
  unfold Resource.FaultsUncounted
  decide +kernel

end StagingMemory
