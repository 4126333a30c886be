import StagingMemory.Proofs.Namespace
import StagingMemory.Proofs.Teardown
/-!
Calls in a process to which no diagnostic is fatal. What remains to stop a call without an answer is
a deadline that the clock cannot hold: a follower's allocation then ends before it has done
anything, but a leader's release when the device has already given the block up, and the name stays
bound to a segment that is still published. Everything else ends by an answer, but for a device that
does not take its memory back, which aborts the process. Main statement: `Machine.lenient_exact`.
-/
namespace StagingMemory

namespace Process

/-- No diagnostic is fatal. -/
def Lenient (p : Process) : Prop := p.readStrictMode.1 = .warn

instance : DecidablePred Lenient := fun p =>
  inferInstanceAs (Decidable (p.readStrictMode.1 = .warn))

variable {p q : Process}

/-- Leniency is a matter of the mode's cell, and of the variable behind it. -/
theorem Lenient.congr (h : p.Lenient) (hstrict : q.strict = p.strict)
    (hvariable : q.strictVariable = p.strictVariable) : q.Lenient := by
  simp only [Lenient, readStrictMode, hstrict, hvariable]
  exact h

theorem Lenient.readStrictMode (h : p.Lenient) : p.readStrictMode.2.Lenient := by
  have hread := p.strict.read_read p.strictVariable
  exact hread.trans h

theorem Lenient.forward (h : p.Lenient) (r : Report) : (p.forward r).Lenient := by
  unfold Process.forward
  cases p.sink <;> exact h.congr rfl rfl

theorem Lenient.fatalNow (h : p.Lenient) (severity : Severity) :
    (p.fatalNow severity).1 = false ∧ (p.fatalNow severity).2.Lenient := by
  have hmode : p.readStrictMode.1 = .warn := h
  cases severity with
  | error =>
    refine ⟨?_, h.readStrictMode⟩
    show p.readStrictMode.1.errorsFatal = false
    rw [hmode]
    rfl
  | warning =>
    refine ⟨?_, h.readStrictMode⟩
    show p.readStrictMode.1.warningsFatal = false
    rw [hmode]
    rfl
  | note | help => exact ⟨rfl, h⟩

/-- A lenient process reports and goes on. -/
theorem Lenient.emit (h : p.Lenient) (d : Diagnostic) (context : String) :
    ∃ q, p.emit d context = (.returned (), q) ∧ q.Lenient := by
  have hprinted : (if p.quiet then p else p.write (.printed ⟨d, some context⟩)).Lenient := by
    split
    · exact h
    · exact h.congr rfl rfl
  obtain ⟨hfatal, hafter⟩ := (hprinted.forward ⟨d, some context⟩).fatalNow d.severity
  refine ⟨(p.emit d context).2, ?_, ?_⟩
  · unfold Process.emit
    dsimp only
    rw [hfatal]
    rfl
  · rw [emit_snd]
    exact hafter

theorem Lenient.emitAny (h : p.Lenient) (d : Diagnostic) (context : Option String) :
    ∃ q, p.emitAny d context = (.returned (), q) ∧ q.Lenient := by
  cases context with
  | none => exact ⟨p, rfl, h⟩
  | some context => exact h.emit d context

theorem Lenient.lockPages (h : p.Lenient) {policy : LockPolicy} {address : Nat} {bytes : UInt64}
    {result : Outcome (Except DeviceError Unit)}
    (hlock : p.lockPages policy address bytes = (result, q)) :
    (∃ r, result = .returned r) ∧ q.Lenient := by
  unfold Process.lockPages at hlock
  cases policy with
  | disabled =>
    cases hlock
    exact ⟨⟨_, rfl⟩, h⟩
  | required =>
    dsimp only at hlock
    split at hlock <;> cases hlock
    · exact ⟨⟨_, rfl⟩, h.congr rfl rfl⟩
    · exact ⟨⟨_, rfl⟩, h⟩
  | bestEffort =>
    dsimp only at hlock
    split at hlock
    · cases hlock
      exact ⟨⟨_, rfl⟩, h.congr rfl rfl⟩
    case h_2 e _ =>
      rw [if_pos rfl] at hlock
      obtain ⟨r, hr, hlenient⟩ := h.emit .lockFailed (Size.render bytes ++ " at " ++
        renderAddress address ++ ": " ++ (DeviceError.system "mlock" e).message)
      rw [hr] at hlock
      cases hlock
      exact ⟨⟨_, rfl⟩, hlenient⟩

theorem Lenient.unlockPages (h : p.Lenient) {policy : LockPolicy} {address : Nat} {bytes : UInt64}
    {result : Except DeviceError Unit}
    (hunlock : p.unlockPages policy address bytes = (result, q)) : q.Lenient := by
  unfold Process.unlockPages at hunlock
  cases policy with
  | disabled =>
    cases hunlock
    exact h
  | required | bestEffort =>
    dsimp only at hunlock
    split at hunlock <;> cases hunlock
    · exact h.congr rfl rfl
    · exact h

/-- Registering answers. -/
theorem Lenient.register (h : p.Lenient) {device : Device} {address : Nat} {bytes : UInt64}
    {flags : RegisterFlags} {result : Outcome (Except DeviceError Unit)}
    (hregister : device.register p address bytes flags = (result, q)) :
    (∃ r, result = .returned r) ∧ q.Lenient := by
  cases device with
  | host policy => exact h.lockPages hregister
  | dummy index =>
    cases hregister
    exact ⟨⟨_, rfl⟩, h.congr rfl rfl⟩

theorem Lenient.unregister (h : p.Lenient) {device : Device} {address : Nat} {bytes : UInt64}
    {result : Except DeviceError Unit}
    (hunregister : device.unregister p address bytes = (result, q)) : q.Lenient := by
  cases device with
  | host policy => exact h.unlockPages hunregister
  | dummy index =>
    cases hunregister
    exact h.congr rfl rfl

end Process

/-! ### Allocations -/

namespace Attach

def Civil : Phase → Prop
  | .undo _ ending => ∃ error, ending = .returned error
  | _ => True

theorem failed_of_lenient {a : Attach} {error : AllocationError} {s t : Site} {o : Outcome Result}
    (hlenient : s.process.Lenient) (h : a.failed error s = (.done o, t)) :
    o = .returned (.error error) := by
  have hcounted : (s.process.recordFailure a.account).Lenient := hlenient.congr rfl rfl
  unfold failed at h
  cases hd : error.diagnostic? with
  | none =>
    simp only [hd] at h
    cases h
    rfl
  | some d =>
    obtain ⟨q, hq, -⟩ := hcounted.emit d
      ("rank " ++ toString a.config.rank ++ ": " ++ error.message)
    simp only [hd, hq] at h
    cases h
    rfl

namespace Transition

variable {a : Attach} {phase next : Phase} {s t : Site} {o : Outcome Result}

theorem civil (h : Transition a phase s (.running next) t) (hlenient : s.process.Lenient) :
    Civil next := by
  cases h with
  | registerFatal hregister =>
    obtain ⟨⟨r, hr⟩, -⟩ := hlenient.register hregister
    cases hr
  | registered => split <;> trivial
  | unregistered => exact ⟨_, rfl⟩
  | _ => trivial

theorem lenient (h : Transition a phase s (.running next) t) (hlenient : s.process.Lenient) :
    t.process.Lenient := by
  cases h with
  | leftoverMapped h | mapped h | foundMapped h =>
    rw [(Site.mapped_of_mapSegment h).2.2.1]
    exact hlenient.congr rfl rfl
  | leftoverReported h =>
    obtain ⟨q, hq, hafter⟩ := hlenient.emit .staleRemoved ("segment " ++ a.config.segment.text)
    rw [hq] at h
    cases h
    exact hafter
  | created h =>
    rw [(Site.created_of_createSegment h).2]
    exact hlenient
  | resized h =>
    rw [Site.of_resizeSegment h]
    exact hlenient
  | registered h | unregistered h | registerFatal h => exact (hlenient.register h).2
  | undoneError =>
    unfold undone
    split <;> exact hlenient.congr rfl rfl
  | leftoverOwned | leftoverRetired | unready | orphaned | mismatched | withdrawn =>
    exact hlenient.congr rfl rfl
  | _ => exact hlenient

/-- In a lenient process an allocation for which the account has room ends by an answer. -/
theorem answers (h : Transition a phase s (.done o) t) (hlenient : s.process.Lenient)
    (hcivil : Civil phase) (hfits : ∀ m, phase = .finish m → a.Fits s.process) :
    ∃ result, o = .returned result := by
  cases h with
  | leftoverFatal h =>
    obtain ⟨q, hq, -⟩ := hlenient.emit .staleRemoved ("segment " ++ a.config.segment.text)
    cases hq.symm.trans h
  | undoneFault | undoneAbort =>
    obtain ⟨error, herror⟩ := hcivil
    cases herror
  | @finished _ m _ _ h =>
    have ho := (succeeded_spec h).2
    have hroom : (s.process.account a.account).bytes.current.toNat + a.bytes.toNat <
        UInt64.size := hfits m rfl
    rw [if_pos hroom] at ho
    exact ⟨_, ho⟩
  | failed h => exact ⟨_, failed_of_lenient hlenient h⟩

end Transition

end Attach

/-! ### Releases -/

namespace Detach

theorem reports_of_lenient (d : Detach) (late : Option String) (refused : Option SystemError)
    {p : Process} (hlenient : p.Lenient) : (d.reports late refused p).1 = .returned () := by
  obtain ⟨q, hq, hlate⟩ := hlenient.emitAny .teardownTimedOut late
  obtain ⟨r, hr, -⟩ := hlate.emitAny .unlinkFailed
    (refused.map fun e => "segment " ++ d.config.segment.text ++ ": " ++ e.message)
  simp only [reports, hq, hr]

theorem closed_of_lenient {d : Detach} {late : Option String} {refused : Option SystemError}
    {s t : Site} {o : Outcome Unit} (hlenient : s.process.Lenient)
    (h : d.closed late refused s = (.done o, t)) : o = .returned () := by
  rw [closed_eq] at h
  cases h
  exact d.reports_of_lenient late refused (hlenient.congr rfl rfl)

namespace Transition

variable {d : Detach} {phase : Phase} {s t : Site} {o : Outcome Unit}

/-- In a lenient process a release returns, unless the device does not take the memory back, or the
clock cannot hold the deadline. -/
theorem ends (h : Transition d phase s (.done o) t) (hlenient : s.process.Lenient)
    (hsuits : d.Suits phase)
    (hblock : phase = .unregister → ∃ m, s.mappingOf? d.block = some m) :
    o = .returned () ∨
      (o = .aborted ∧ phase = .unregister ∧
        (d.device.unregister s.process d.block.address d.block.bytes).1 ≠ .ok ()) ∨
      (o = .faulted .deadlineOverflow ∧ ¬ d.config.Timely s.kernel.clock ∧
        ∃ m, phase = .gather m ∧ t = s.unmap m) := by
  cases h with
  | refused h =>
    refine Or.inr (Or.inl ⟨rfl, rfl, ?_⟩)
    rw [h]
    simp
  | @lost _ p h hm =>
    obtain ⟨m, hbefore⟩ := hblock rfl
    have hkept := (Device.kept_of_unregister h).relocked
    have hafter := Site.mappingOf?_relocked (s := s) (t := ⟨s.kernel, p⟩) hkept d.block
    cases hm.symm.trans (hafter.trans hbefore)
  | @overflowed _ m hwaits hnone =>
    refine Or.inr (Or.inr ⟨rfl, ?_, m, rfl, rfl⟩)
    intro htimely
    rcases htimely hsuits with hzero | hsome
    · cases hwaits.symm.trans hzero
    · exact hsome hnone
  | closed h => exact Or.inl (closed_of_lenient (s := s.unmap _) (hlenient.congr rfl rfl) h)

end Transition

end Detach

/-! ### Calls -/

namespace Call

def Civil : Call → Prop
  | attach _ phase => Attach.Civil phase
  | detach _ _ => True

def Fits (s : Site) : Call → Prop
  | attach a (.finish _) => a.Fits s.process
  | _ => True

inductive Concludes (s : Site) : Call → Outcome Reply → Prop
  | answered {c : Call} (reply : Reply) : Concludes s c (.returned reply)
  | refused {d : Detach}
      (h : (d.device.unregister s.process d.block.address d.block.bytes).1 ≠ .ok ()) :
      Concludes s (.detach d .unregister) .aborted
  | overdue {d : Detach} {m : Mapping} (h : ¬ d.config.Timely s.kernel.clock) :
      Concludes s (.detach d (.gather m)) (.faulted .deadlineOverflow)

variable {c next : Call} {config : SharingConfig} {s : Site}

theorem civil_step (h : (c.step s).1 = .running next) (hlenient : s.process.Lenient) :
    next.Civil := by
  cases next with
  | attach a phase =>
    obtain ⟨_, rfl, ht⟩ := attach_of_step h
    exact ht.civil hlenient
  | detach => trivial

theorem concludes {o : Outcome Reply} (h : (c.step s).1 = .done o) (hlenient : s.process.Lenient)
    (hcivil : c.Civil) (hfits : c.Fits s) (hsuits : (Stage.calling c).Suits config s) :
    Concludes s c o := by
  cases c with
  | attach a phase =>
    have ht := a.step_transition phase s
    simp only [step, ofAttach] at h
    cases hprogress : (a.step phase s).1 with
    | running =>
      rw [hprogress] at h
      cases h
    | done ending =>
      rw [hprogress] at h ht
      cases h
      obtain ⟨result, rfl⟩ := ht.answers hlenient hcivil (by rintro m rfl; exact hfits)
      exact .answered _
  | detach d phase =>
    obtain ⟨-, hsuits, hblock⟩ := hsuits
    have ht := d.step_transition phase s
    simp only [step, ofDetach] at h
    cases hprogress : (d.step phase s).1 with
    | running =>
      rw [hprogress] at h
      cases h
    | done ending =>
      rw [hprogress] at h ht
      cases h
      rcases ht.ends hlenient hsuits hblock with rfl | ⟨rfl, rfl, hrefused⟩ |
        ⟨rfl, hlate, m, rfl, -⟩
      · exact .answered _
      · exact .refused hrefused
      · exact .overdue hlate

end Call

/-! ### Allocations alone -/

namespace Attach

/-- A follower whose deadline the clock cannot hold. -/
def Overdue (a : Attach) (now : Nat) : Prop :=
  a.config.isLeader = false ∧ a.bytes ≠ 0 ∧ a.total < Size.wordValues ∧
    Wait.start? now a.config.bootstrapTimeout a.config.pollInterval = none

def resource (a : Attach) : Resource := ⟨.shared a.config, a.device, a.account⟩

theorem allocate_of_ne_zero {a : Attach} (hbytes : a.bytes ≠ 0) (s : Site) :
    a.resource.allocate a.bytes s = runAlone (Resource.stepBound (Call.ofAttach a (a.begin s)).1)
      (Call.ofAttach a (a.begin s)) := by
  simp only [resource, Resource.allocate, Resource.beginAllocate, if_neg hbytes]

/-- Such a follower stops before it looks for anything. -/
theorem Overdue.allocate_eq {a : Attach} {s : Site} (h : a.Overdue s.kernel.clock) :
    a.resource.allocate a.bytes s = (.done (.faulted .deadlineOverflow), s) := by
  obtain ⟨hrole, hbytes, hsize, hnone⟩ := h
  have hbegin : a.begin s = (.done (.faulted .deadlineOverflow), s) := by
    unfold begin
    rw [if_neg (Nat.not_le.mpr hsize), if_neg (by simp [hrole]), hnone]
  rw [allocate_of_ne_zero hbytes, hbegin]
  exact runAlone_done _ _ _

def Amenable (a : Attach) (c : Call) (s : Site) : Prop :=
  ∃ phase, c = .attach a phase ∧ Civil phase ∧ s.process.Lenient ∧ a.Fits s.process

theorem Amenable.advance {a : Attach} {c : Call} {s : Site} (h : a.Amenable c s) :
    Reached a.Amenable (fun o _ => ∃ reply, o = .returned reply) (c.advance s) := by
  obtain ⟨phase, rfl, hcivil, hlenient, hfits⟩ := h
  obtain ⟨clock, hwoken, -⟩ := (Call.attach a phase).wakeUp_spec s
  rw [Call.advance_eq, hwoken]
  have ht := a.step_transition phase { s with kernel := { s.kernel with clock } }
  cases hstep : a.step phase { s with kernel := { s.kernel with clock } } with
  | mk progress t =>
    rw [hstep] at ht
    simp only [Call.step, Call.ofAttach, hstep]
    cases progress with
    | running next =>
      have haccounts : t.process.accounts = s.process.accounts := ht.accounts_eq
      refine ⟨next, rfl, ht.civil hlenient, ht.lenient hlenient, ?_⟩
      simp only [Fits, Process.account, haccounts]
      exact hfits
    | done o =>
      obtain ⟨result, rfl⟩ := ht.answers hlenient hcivil fun _ _ => hfits
      exact ⟨_, rfl⟩

/-- An allocation that is not overdue begins. -/
theorem begin_of_not_overdue {a : Attach} {s : Site} (hbytes : a.bytes ≠ 0)
    (h : ¬ a.Overdue s.kernel.clock) : ∃ phase, a.begin s = (.running phase, s) ∧ Civil phase := by
  unfold begin
  split
  · exact ⟨_, rfl, trivial⟩
  · split
    · refine ⟨_, rfl, ?_⟩
      split <;> trivial
    · split
      · exact ⟨_, rfl, trivial⟩
      case h_2 hsize hrole _ hnone =>
        exact absurd ⟨Bool.not_eq_true _ ▸ hrole, hbytes, Nat.not_le.mp hsize, hnone⟩ h

/-- In a lenient process any other allocation for which the account has room ends by an answer. -/
theorem allocate_answers {a : Attach} {s : Site} (hlenient : s.process.Lenient)
    (hfits : a.Fits s.process) (h : ¬ a.Overdue s.kernel.clock) :
    ∃ reply t, a.resource.allocate a.bytes s = (.done (.returned reply), t) := by
  by_cases hbytes : a.bytes = 0
  · exact ⟨_, s, by rw [hbytes]; exact Resource.allocate_zero _ s⟩
  · obtain ⟨phase, hbegin, hcivil⟩ := begin_of_not_overdue hbytes h
    obtain ⟨o, t, hrun, reply, rfl⟩ := runAlone_rule a.Amenable _ (fun _ _ => Amenable.advance)
      (.attach a phase) s _ (budget_begin hbegin) ⟨phase, rfl, hcivil, hlenient, hfits⟩
    refine ⟨reply, t, ?_⟩
    rw [allocate_of_ne_zero hbytes, hbegin]
    exact hrun

inductive Arrives (a : Attach) (s : Site) : Outcome Reply → Site → Prop
  | overdue (h : a.Overdue s.kernel.clock) : Arrives a s (.faulted .deadlineOverflow) s
  | answered (h : ¬ a.Overdue s.kernel.clock) (reply : Reply) (t : Site) :
      Arrives a s (.returned reply) t

theorem arrives {a : Attach} {s : Site} (hlenient : s.process.Lenient)
    (hfits : a.Fits s.process) :
    ∃ o t, a.resource.allocate a.bytes s = (.done o, t) ∧ a.Arrives s o t := by
  by_cases h : a.Overdue s.kernel.clock
  · exact ⟨_, _, h.allocate_eq, .overdue h⟩
  · obtain ⟨reply, t, hallocate⟩ := allocate_answers hlenient hfits h
    exact ⟨_, t, hallocate, .answered h reply t⟩

/-! ### Followers that are expected -/

/-- The segment that the follower looks for is published at the length asked for, and the follower
can join it: the clock can hold its deadline, and it can map the segment, as `m` in the site `t`, and
register it, after which its process is `p`. -/
structure Welcomed (a : Attach) (s t : Site) (m : Mapping) (p : Process) : Prop where
  follows : a.config.isLeader = false
  asks : a.bytes ≠ 0
  total_lt : a.total < Size.wordValues
  timely : ¬ a.Overdue s.kernel.clock
  opens : s.openSegment a.config.segment = .ok m.segment
  length_eq : s.kernel.segmentLength m.segment = a.total
  ready : (s.header m).isReady = true
  owned : s.kernel.ownerAlive m.segment = true
  bytes_eq : (s.header m).bytes = a.bytes
  maps : s.mapSegment m.segment a.total = .ok (m, t)
  registers : a.device.register t.process m.payload a.bytes .portable = (.returned (.ok ()), p)
  known : m.segment < s.kernel.segments.length

def Advances (a : Attach) (s t : Site) (m : Mapping) (p : Process) (u : Site) : Phase → Prop
  | .find _ => u = s
  | .measure _ id => u = s ∧ id = m.segment
  | .mapFound _ id length => u = s ∧ id = m.segment ∧ length = a.total
  | .checkReady _ mine | .checkOwner _ mine | .checkLength _ mine | .raiseLive _ mine =>
    u = t ∧ mine = m
  | .recheck _ mine | .raiseJoined mine => u = t.modifyHeader m .raiseLive ∧ mine = m
  | .register mine => u = (t.modifyHeader m .raiseLive).modifyHeader m .raiseJoined ∧ mine = m
  | .finish mine =>
    u = { (t.modifyHeader m .raiseLive).modifyHeader m .raiseJoined with process := p } ∧ mine = m
  | _ => False

section

variable {a : Attach} {s t u v : Site} {m : Mapping} {p : Process} {phase : Phase}

theorem Welcomed.kernel_eq (h : a.Welcomed s t m p) : t.kernel = s.kernel := by
  rw [(Site.mapped_of_mapSegment h.maps).2.2.1]

/-- Joining does not change what makes the follower join. -/
theorem Welcomed.ready_raised (h : a.Welcomed s t m p) :
    ((t.modifyHeader m .raiseLive).header m).isReady = true := by
  have hknown : m.segment < t.kernel.segments.length := h.kernel_eq ▸ h.known
  have hheader : (t.modifyHeader m .raiseLive).header m = (t.header m).raiseLive := by
    simp only [Site.header, Site.modifyHeader, Kernel.header_modifyHeader hknown, if_true]
  rw [hheader, Site.header, h.kernel_eq]
  exact h.ready

/-- The account has the room that it had. -/
theorem Welcomed.fits (h : a.Welcomed s t m p) (hfits : a.Fits s.process) : a.Fits p := by
  have hmapped : t.process.accounts = s.process.accounts := by
    rw [(Site.mapped_of_mapSegment h.maps).2.2.1]
  have haccounts : p.accounts = s.process.accounts :=
    (Device.kept_of_register h.registers).accounts_eq.trans hmapped
  simp only [Fits, Process.account, haccounts]
  exact hfits

def Proceeds (a : Attach) (s t : Site) (m : Mapping) (p : Process) :
    Progress Phase Result → Site → Prop
  | .running next, v => a.Advances s t m p v next
  | .done o, v => o = .returned (.ok ⟨m.payload, a.bytes⟩) ∧
      v.kernel = ((t.modifyHeader m .raiseLive).modifyHeader m .raiseJoined).kernel

theorem Advances.transition {progress : Progress Phase Result}
    (ht : Transition a phase u progress v) (hwelcomed : a.Welcomed s t m p)
    (hfits : a.Fits p) (h : a.Advances s t m p u phase) : a.Proceeds s t m p progress v := by
  cases ht with
  | found hopen =>
    cases h
    cases hwelcomed.opens.symm.trans hopen
    exact ⟨rfl, rfl⟩
  | absent hopen | unopened hopen =>
    cases h
    cases hwelcomed.opens.symm.trans hopen
  | short hshort =>
    obtain ⟨rfl, rfl⟩ := h
    have hlong : Page.headerLength ≤ a.total := Nat.le_add_right _ _
    rw [hwelcomed.length_eq] at hshort
    omega
  | sized =>
    obtain ⟨rfl, rfl⟩ := h
    exact ⟨rfl, rfl, hwelcomed.length_eq⟩
  | foundMapped hmap =>
    obtain ⟨rfl, rfl, rfl⟩ := h
    cases hwelcomed.maps.symm.trans hmap
    exact ⟨rfl, rfl⟩
  | foundUnmapped hmap =>
    obtain ⟨rfl, rfl, rfl⟩ := h
    cases hwelcomed.maps.symm.trans hmap
  | ready | owned | matched => exact h
  | unready hunready =>
    obtain ⟨rfl, rfl⟩ := h
    rw [Site.header, hwelcomed.kernel_eq] at hunready
    cases hwelcomed.ready.symm.trans hunready
  | orphaned horphaned =>
    obtain ⟨rfl, rfl⟩ := h
    rw [hwelcomed.kernel_eq] at horphaned
    cases hwelcomed.owned.symm.trans horphaned
  | mismatched hmismatched =>
    obtain ⟨rfl, rfl⟩ := h
    rw [Site.header, hwelcomed.kernel_eq] at hmismatched
    rcases hmismatched with hbytes | hlength
    · exact absurd hwelcomed.bytes_eq hbytes
    · exact absurd (Site.mapped_of_mapSegment hwelcomed.maps).2.1 hlength
  | raised | joined =>
    obtain ⟨rfl, rfl⟩ := h
    exact ⟨rfl, rfl⟩
  | confirmed => exact h
  | refused hrefused =>
    obtain ⟨rfl, rfl⟩ := h
    cases hwelcomed.ready_raised.symm.trans hrefused
  | registered hregister =>
    obtain ⟨rfl, rfl⟩ := h
    cases hwelcomed.registers.symm.trans hregister
    rw [if_neg (by simp [hwelcomed.follows])]
    exact ⟨rfl, rfl⟩
  | unregistered hregister | registerFatal hregister =>
    obtain ⟨rfl, rfl⟩ := h
    cases hwelcomed.registers.symm.trans hregister
  | finished hsucceeded =>
    obtain ⟨rfl, rfl⟩ := h
    have ho := (succeeded_spec hsucceeded).2
    have hroom : (p.account a.account).bytes.current.toNat + a.bytes.toNat < UInt64.size := hfits
    rw [if_pos hroom] at ho
    exact ⟨ho, rfl⟩
  | _ => cases h

def Boards (a : Attach) (s t : Site) (m : Mapping) (p : Process) (c : Call) (u : Site) : Prop :=
  ∃ phase, c = .attach a phase ∧ a.Advances s t m p u phase

theorem Boards.advance {c : Call} (hwelcomed : a.Welcomed s t m p) (hfits : a.Fits p)
    (h : a.Boards s t m p c u) :
    Reached (a.Boards s t m p) (fun o v =>
      o = .returned (.allocated (some ⟨m.payload, a.bytes⟩)) ∧
        v.kernel = ((t.modifyHeader m .raiseLive).modifyHeader m .raiseJoined).kernel)
      (c.advance u) := by
  obtain ⟨phase, rfl, hadvances⟩ := h
  have hawake : (Call.attach a phase).wakeUp u = u := by
    cases phase with
    | pause => cases hadvances
    | _ => rfl
  have hproceeds := hadvances.transition (a.step_transition phase u) hwelcomed hfits
  rw [Call.advance_eq, hawake]
  cases hstep : a.step phase u with
  | mk progress v =>
    rw [hstep] at hproceeds
    simp only [Call.step, Call.ofAttach, hstep]
    cases progress with
    | running next => exact ⟨next, rfl, hproceeds⟩
    | done o =>
      obtain ⟨rfl, hkernel⟩ := hproceeds
      exact ⟨rfl, hkernel⟩

/-- A follower that is expected attaches. -/
theorem Welcomed.attaches (h : a.Welcomed s t m p) (hfits : a.Fits s.process) : ∃ v,
      a.resource.allocate a.bytes s =
        (.done (.returned (.allocated (some ⟨m.payload, a.bytes⟩))), v) ∧
      v.kernel = ((t.modifyHeader m .raiseLive).modifyHeader m .raiseJoined).kernel := by
  obtain ⟨w, hbegin⟩ : ∃ w, a.begin s = (.running (.find w), s) := by
    unfold begin
    rw [if_neg (Nat.not_le.mpr h.total_lt), if_neg (by simp [h.follows])]
    cases hstart : Wait.start? s.kernel.clock a.config.bootstrapTimeout a.config.pollInterval with
    | none => exact absurd ⟨h.follows, h.asks, h.total_lt, hstart⟩ h.timely
    | some w => exact ⟨w, rfl⟩
  obtain ⟨o, v, hrun, rfl, hkernel⟩ := runAlone_rule (a.Boards s t m p) _
    (fun _ _ => Boards.advance h (h.fits hfits)) (.attach a (.find w)) s _ (budget_begin hbegin)
    ⟨.find w, rfl, rfl⟩
  refine ⟨v, ?_, hkernel⟩
  rw [allocate_of_ne_zero h.asks, hbegin]
  exact hrun

end

end Attach

/-! ### Releases alone -/

namespace Detach

/-- Nothing of the machine changed, and the release is not counted; but the mapping is gone, and the
device has given the block up. -/
structure Stranded (d : Detach) (m : Mapping) (s t : Site) : Prop where
  kernel_eq : t.kernel = s.kernel
  accounts_eq : t.process.accounts = s.process.accounts
  page?_eq : ∀ page, t.process.space.page? page =
    if page ∈ Memory.AddressSpace.mappingSpan m.base m.length then none
    else s.process.space.page? page
  registration?_eq : ∀ index address, (t.process.dummy index).registration? address =
    if d.device = .dummy index ∧ address = d.block.address then none
    else (s.process.dummy index).registration? address

variable {d : Detach} {s : Site} {m : Mapping}

/-- Where the device does not take the memory back, the process aborts. -/
theorem release_of_refused
    (h : (d.device.unregister s.process d.block.address d.block.bytes).1 ≠ .ok ()) :
    ∃ t, d.resource.release d.block s = (.done .aborted, t) := by
  have hadvance : ∀ (c : Call) (u : Site), c = .detach d .unregister ∧ u = s →
      Reached (fun c u => c = .detach d .unregister ∧ u = s) (fun o _ => o = .aborted)
        (c.advance u) := by
    intro c u hc
    obtain ⟨rfl, rfl⟩ := hc
    have ht := d.step_transition .unregister u
    show Reached _ _ ((Call.detach d .unregister).step u)
    cases hstep : d.step .unregister u with
    | mk progress t =>
      rw [hstep] at ht
      simp only [Call.step, Call.ofDetach, hstep]
      cases ht with
      | refused => rfl
      | lost hunregister | unregistered hunregister =>
        rw [hunregister] at h
        exact absurd rfl h
  obtain ⟨o, t, hrun, rfl⟩ := runAlone_rule _ _ hadvance (.detach d .unregister) s _
    (budget_begin (d := d) (s := s) rfl) ⟨rfl, rfl⟩
  exact ⟨t, hrun⟩

/-- A leader whose deadline the clock cannot hold, on its way to finding out. -/
def Strands (d : Detach) (s : Site) (m : Mapping) (p : Process) (c : Call) (u : Site) : Prop :=
  (c = .detach d .unregister ∧ u = s) ∨ (c = .detach d (.gather m) ∧ u = { s with process := p })

theorem Strands.advance {p : Process} {c : Call} {u : Site} (hheld : d.block.Held m s)
    (hp : d.device.unregister s.process d.block.address d.block.bytes = (.ok (), p))
    (hlate : ¬ d.config.Timely s.kernel.clock) (h : d.Strands s m p c u) :
    Reached (d.Strands s m p)
      (fun o v => o = .faulted .deadlineOverflow ∧ v = ({ s with process := p } : Site).unmap m)
      (c.advance u) := by
  simp only [SharingConfig.Timely, Classical.not_imp, not_or, not_not] at hlate
  obtain ⟨hrole, hwaits, hnone⟩ := hlate
  rcases h with ⟨rfl, rfl⟩ | ⟨rfl, rfl⟩
  · have hmapping : ({ u with process := p } : Site).mappingOf? d.block = some m :=
      (Site.mappingOf?_relocked (Device.kept_of_unregister hp).relocked d.block).trans
        hheld.mappingOf?_eq
    have hstep : d.step .unregister u = (.running (.gather m), { u with process := p }) := by
      simp only [step, hp, hmapping, hrole, if_true]
    show Reached _ _ ((Call.detach d .unregister).step u)
    simp only [Call.step, Call.ofDetach, hstep]
    exact Or.inr ⟨rfl, rfl⟩
  · have hstep : d.step (.gather m) { s with process := p } =
        (.done (.faulted .deadlineOverflow), ({ s with process := p } : Site).unmap m) := by
      simp only [step, hwaits, hnone]
      rfl
    show Reached _ _ ((Call.detach d (.gather m)).step { s with process := p })
    simp only [Call.step, Call.ofDetach, hstep]
    exact ⟨rfl, rfl⟩

/-- Where the clock cannot hold the leader's deadline, the release stops half-way. -/
theorem release_of_overdue (hheld : d.block.Held m s)
    (htaken : (d.device.unregister s.process d.block.address d.block.bytes).1 = .ok ())
    (hlate : ¬ d.config.Timely s.kernel.clock) :
    ∃ t, d.resource.release d.block s = (.done (.faulted .deadlineOverflow), t) ∧
      d.Stranded m s t := by
  obtain ⟨p, hp⟩ : ∃ p, d.device.unregister s.process d.block.address d.block.bytes = (.ok (), p) :=
    ⟨_, Prod.ext htaken rfl⟩
  obtain ⟨o, t, hrun, rfl, rfl⟩ := runAlone_rule (d.Strands s m p) _
    (fun _ _ => Strands.advance hheld hp hlate) (.detach d .unregister) s _
    (budget_begin (d := d) (s := s) rfl) (Or.inl ⟨rfl, rfl⟩)
  have hdevice := Device.unregistered_of_unregister hp
  refine ⟨_, hrun, rfl, ?_, ?_, ?_⟩
  · show p.accounts = s.process.accounts
    rw [hdevice.rest_eq]
  · intro page
    show (p.space.release m.base m.length).page? page = _
    rw [Memory.AddressSpace.page?_release, hdevice.relocked.page?_eq]
  · intro index address
    exact hdevice.registration?_eq index address

/-- In a lenient process every other release returns, with everything undone. -/
theorem Ready.returns (h : d.Ready m s) (hlenient : s.process.Lenient) :
    ∃ t, d.resource.release d.block s = (.done (.returned .released), t) ∧ d.Undone m s t := by
  obtain ⟨p, hp⟩ := h.unregister_eq
  obtain ⟨o, t, hrelease, -, late, refused, ho, -⟩ := h.ended hp
  obtain ⟨_, _, hsame, hcompleted⟩ := h.completed
  cases hrelease.symm.trans hsame
  refine ⟨t, ?_, hcompleted.undone⟩
  have hcounted : (d.counted m p).Lenient := (hlenient.unregister hp).congr rfl rfl
  rw [hrelease, ho, d.reports_of_lenient late refused hcounted]
  rfl

inductive Departs (d : Detach) (m : Mapping) (s : Site) : Outcome Reply → Site → Prop
  | refused {t : Site}
      (h : (d.device.unregister s.process d.block.address d.block.bytes).1 ≠ .ok ()) :
      Departs d m s .aborted t
  | stranded {t : Site}
      (htaken : (d.device.unregister s.process d.block.address d.block.bytes).1 = .ok ())
      (hlate : ¬ d.config.Timely s.kernel.clock) (h : d.Stranded m s t) :
      Departs d m s (.faulted .deadlineOverflow) t
  | returned {t : Site}
      (htaken : (d.device.unregister s.process d.block.address d.block.bytes).1 = .ok ())
      (htimely : d.config.Timely s.kernel.clock) (h : d.Undone m s t) :
      Departs d m s (.returned .released) t

theorem departs (hheld : d.block.Held m s) (hlenient : s.process.Lenient) :
    ∃ o t, d.resource.release d.block s = (.done o, t) ∧ d.Departs m s o t := by
  by_cases htaken : (d.device.unregister s.process d.block.address d.block.bytes).1 = .ok ()
  · by_cases htimely : d.config.Timely s.kernel.clock
    · obtain ⟨t, hrelease, hundone⟩ := Ready.returns ⟨hheld, htimely, htaken⟩ hlenient
      exact ⟨_, t, hrelease, .returned htaken htimely hundone⟩
    · obtain ⟨t, hrelease, hstranded⟩ := release_of_overdue hheld htaken htimely
      exact ⟨_, t, hrelease, .stranded htaken htimely hstranded⟩
  · obtain ⟨t, hrelease⟩ := release_of_refused htaken
    exact ⟨_, t, hrelease, .refused htaken⟩

end Detach

def Member.attach {κ : Type u} (r : Member κ) (bytes : UInt64) : Attach :=
  ⟨r.config, r.device, r.account, bytes⟩

/-! ### Lenient machines -/

namespace Machine

variable {κ : Type u} {ι : Type v} [DecidableEq κ] [DecidableEq ι] {roster : ι → Member κ}
  {m₀ m last : Machine κ ι} {history later : List (Access ι)} {Allowed : Machine κ ι → Prop}

/-- What a call undoes, begun in a process that is lenient all the while, it undoes for an error. -/
theorem civil_of_run {i : ι}
    (hrun : Run roster (fun m => (m.process (roster i).home).Lenient) m later last)
    (hrests : ¬ m.Busy i) {c : Call} (hcalling : last.stage i = .calling c) : c.Civil := by
  induction hrun generalizing c with
  | start => exact absurd ⟨c, hcalling⟩ hrests
  | step hbefore hstep _ ih =>
    cases origin_of_step hstep hcalling with
    | stayed h => exact ih h
    | allocates _ hfirst => cases hfirst <;> trivial
    | releases => trivial
    | steps _ _ hnext => exact Call.civil_step hnext hbefore.allowed

/-- From every state that the machine can reach, in a process to which no diagnostic is fatal. With
nobody else about, an allocation for which the account has room answers, unless it is a follower's
whose deadline the clock cannot hold, which stops having done nothing; a follower that can hold its
deadline attaches to the segment that it is expected at. A release aborts if the device refuses it,
leaves the leader stranded if the clock cannot hold the deadline, and otherwise returns with
everything undone. And whatever the others do meanwhile, a call ends in one of these ways only. -/
theorem lenient_exact (hrun : Run roster Allowed m₀ history m) (hidle : ∀ i, m₀.stage i = .idle)
    {i : ι} (hlenient : (m.process (roster i).home).Lenient) :
    (∀ bytes, ((roster i).attach bytes).Fits (m.process (roster i).home) →
      ∃ o t, (roster i).resource.allocate bytes (m.site (roster i).home) = (.done o, t) ∧
        ((roster i).attach bytes).Arrives (m.site (roster i).home) o t ∧
        ∀ u mapping p, ((roster i).attach bytes).Welcomed (m.site (roster i).home) u mapping p →
          o = .returned (.allocated (some ⟨mapping.payload, bytes⟩))) ∧
    (∀ block, m.stage i = .holding block →
      ∃ mapping o t, m.mapping? roster i = some mapping ∧
        (roster i).resource.release block (m.site (roster i).home) = (.done o, t) ∧
        ((roster i).detach block).Departs mapping (m.site (roster i).home) o t) ∧
    (¬ m.Busy i → ∀ later last,
      Run roster (fun m => (m.process (roster i).home).Lenient) m later last →
      ∀ c next o, Step roster last (some ⟨i, c⟩) next →
        (c.step (last.site (roster i).home)).1 = .done o → c.Fits (last.site (roster i).home) →
        c.Concludes (last.site (roster i).home) o) := by
  have hsound := sound_of_run hrun hidle
  refine ⟨?_, ?_, ?_⟩
  · intro bytes hfits
    obtain ⟨o, t, hallocate, harrives⟩ :=
      Attach.arrives (a := (roster i).attach bytes) (s := m.site (roster i).home) hlenient hfits
    refine ⟨o, t, hallocate, harrives, ?_⟩
    intro u mapping p hwelcomed
    obtain ⟨v, hattaches, -⟩ := hwelcomed.attaches hfits
    cases hallocate.symm.trans hattaches
    rfl
  · intro block hholding
    obtain ⟨mapping, hmapping, hheld⟩ := held_of_run hrun hidle hholding
    obtain ⟨o, t, hrelease, hdeparts⟩ :=
      Detach.departs (d := (roster i).detach block) hheld hlenient
    exact ⟨mapping, o, t, hmapping, hrelease, hdeparts⟩
  · intro hrests later last hlater c next o hstep hdone hfits
    have hcalling := stage_of_step hstep
    have hsuits := (hsound.run hlater).suits i
    rw [hcalling] at hsuits
    exact Call.concludes hdone hlater.allowed (civil_of_run hlater hrests hcalling) hfits hsuits

def waitingPair (timeout : Duration) (follows : Bool) : Member Bool :=
  sample follows fun config =>
    { config with
      rank := if follows then 1 else 0
      bootstrapTimeout := timeout
      teardownTimeout := timeout }

/-- A leader that waits for at most ten minutes returns from its release. -/
theorem lenient_exact_minutes : ∃ (history : List (Access Bool)) (m : Machine Bool Bool)
    (block : Block) (mapping : Mapping) (t : Site),
    Run (waitingPair (.ofSeconds 600)) (fun _ => True)
        (fresh (fun follows => if follows then 2 else 1) [1, 2]) history m ∧
      (m.process false).Lenient ∧ m.stage false = .holding block ∧
      (waitingPair (.ofSeconds 600) false).resource.release block (m.site false) =
        (.done (.returned .released), t) ∧
      ((waitingPair (.ofSeconds 600) false).detach block).Undone mapping (m.site false) t := by
  obtain ⟨⟨history, m⟩, hplay, hreached⟩ := Option.map_eq_some_iff.mp
    (by decide +kernel :
      (play (waitingPair (.ofSeconds 600)) (fun _ => True)
        (.allocate false 4096 :: List.replicate 10 (.access false))
        ([], fresh (fun follows => if follows then 2 else 1) [1, 2])).map (fun (_, m) =>
          (decide (m.process false).Lenient, (m.stage false).block?.map fun block =>
            ((waitingPair (.ofSeconds 600) false).resource.release block (m.site false)).1)) =
      some (true, some (.done (.returned .released))))
  obtain ⟨hlenient, hreached⟩ := Prod.mk.inj hreached
  obtain ⟨block, hblock, hreturned⟩ := Option.map_eq_some_iff.mp hreached
  have hholding := Stage.eq_holding_of_block?_eq_some hblock
  have hrun := run_of_play (.start trivial) _ hplay
  obtain ⟨mapping, o, t, -, hrelease, hdeparts⟩ :=
    (lenient_exact hrun (fun _ => rfl) (i := false) (of_decide_eq_true hlenient)).2.1 block hholding
  obtain rfl : o = .returned .released :=
    Progress.done.inj ((congrArg Prod.fst hrelease).symm.trans hreturned)
  cases hdeparts with
  | returned _ _ hundone =>
    exact ⟨history, m, block, mapping, t, hrun, of_decide_eq_true hlenient, hholding, hrelease,
      hundone⟩

/-- The longest span of time: as many seconds as a word can count, and the nanoseconds below one
more. -/
def longest : Duration := ⟨(UInt64.size - 1) * Duration.perSecond + 999999999⟩

/-- Both are willing to wait for the longest time, and nothing is fatal: the follower stops although
the segment is published, and the leader stops half-way, its segment still published under the
name. -/
theorem longest_deadline_faults : ∃ (history : List (Access Bool)) (m : Machine Bool Bool)
    (block : Block),
    Run (waitingPair longest) (fun _ => True)
        (fresh (fun follows => if follows then 2 else 1) [1, 2]) history m ∧
      (∀ home, (m.process home).Lenient) ∧
      m.stage false = .holding block ∧ block.bytes = 4096 ∧
      ((waitingPair longest true).attach 4096).Fits (m.process true) ∧
      (waitingPair longest true).resource.allocate 4096 (m.site true) =
        (.done (.faulted .deadlineOverflow), m.site true) ∧
      ∃ t, (waitingPair longest false).resource.release block (m.site false) =
          (.done (.faulted .deadlineOverflow), t) ∧
        t.kernel.names.get? (waitingPair longest false).config.segment = some 0 ∧
        (t.kernel.header 0).state = Header.readyMark ∧ (t.kernel.header 0).live = 1 := by
  obtain ⟨⟨history, m⟩, hplay, hreached⟩ := Option.map_eq_some_iff.mp
    (by decide +kernel :
      (play (waitingPair longest) (fun _ => True)
        (.allocate false 4096 :: List.replicate 10 (.access false))
        ([], fresh (fun follows => if follows then 2 else 1) [1, 2])).map (fun (_, m) =>
          (m.stage false).block?.map fun block =>
            (decide (∀ home, (m.process home).Lenient),
              decide (((m.process true).account 0).bytes.current.toNat + 4096 < UInt64.size ∧
                (waitingPair longest true).resource.allocate 4096 (m.site true) =
                  (.done (.faulted .deadlineOverflow), m.site true)),
              ((waitingPair longest false).resource.release block (m.site false)).map
                (fun ending => decide (block.bytes = 4096 ∧
                  ending = .done (.faulted .deadlineOverflow)))
                fun t => decide (
                  t.kernel.names.get? (waitingPair longest false).config.segment = some 0 ∧
                    (t.kernel.header 0).state = Header.readyMark ∧ (t.kernel.header 0).live = 1))) =
      some (some (true, true, true, true)))
  simp only [Option.map_eq_some_iff, Prod.mk.injEq, decide_eq_true_eq, Prod.map] at hreached
  obtain ⟨block, hblock, hlenient, ⟨hfits, hallocate⟩, ⟨hbytes, hfaulted⟩, hreleased⟩ := hreached
  exact ⟨history, m, block, run_of_play (.start trivial) _ hplay, hlenient,
    Stage.eq_holding_of_block?_eq_some hblock, hbytes, hfits, hallocate, _,
    Prod.ext hfaulted rfl, hreleased⟩

end Machine
end StagingMemory
