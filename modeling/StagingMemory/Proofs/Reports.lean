import StagingMemory.Proofs.Course
import StagingMemory.Proofs.Recovery
/-!
What an allocation of shared memory reports. In this order: that a leftover was removed, that a
best-effort lock was refused, and the error with which the call fails. Each goes once to standard
error, unless the process is quiet, to the log and to the sink; none comes after one that is fatal
under the strict mode, and the call then faults over that one. Main statement: `allocate_reports`.
-/
namespace StagingMemory

def Report.fault (r : Report) : Fault := Process.strictFault r.diagnostic (r.context.getD "")

namespace Process

def fatal (p : Process) (r : Report) : Bool := (p.fatalNow r.diagnostic.severity).1

/-- `q` reports as `p` does: with the same strict mode, as quiet, and to the same sink. -/
structure ReportsAs (p q : Process) : Prop where
  mode_eq : q.readStrictMode.1 = p.readStrictMode.1
  quiet_eq : q.quiet = p.quiet
  sink_eq : q.sink = p.sink

namespace ReportsAs

variable {p q r : Process}

theorem refl (p : Process) : ReportsAs p p := ⟨rfl, rfl, rfl⟩

theorem trans (h : ReportsAs p q) (k : ReportsAs q r) : ReportsAs p r :=
  ⟨k.mode_eq.trans h.mode_eq, k.quiet_eq.trans h.quiet_eq, k.sink_eq.trans h.sink_eq⟩

theorem notice_eq (h : ReportsAs p q) (report : Report) : q.notice report = p.notice report := by
  simp only [notice, h.quiet_eq, h.sink_eq]

theorem fatal_eq (h : ReportsAs p q) (report : Report) : q.fatal report = p.fatal report := by
  unfold fatal
  cases report.diagnostic.severity with
  | error => exact congrArg StrictMode.errorsFatal h.mode_eq
  | warning => exact congrArg StrictMode.warningsFatal h.mode_eq
  | note | help => rfl

end ReportsAs

structure Spoke (p : Process) (more : List Output) (q : Process) : Prop
    extends ReportsAs p q where
  output_eq : q.output = p.output ++ more

theorem Said.spoke {p q : Process} {more : List Output} (h : p.Said more q) : p.Spoke more q :=
  ⟨⟨h.mode_eq, h.quiet_eq, h.sink_eq⟩, h.output_eq⟩

theorem spoke_nothing {p q : Process} (h : ReportsAs p q) (hsame : q.output = p.output) :
    p.Spoke [] q := ⟨h, hsame.trans (List.append_nil _).symm⟩

/-- A report is written, and then faults if it is fatal. -/
theorem emit_spec (p : Process) (d : Diagnostic) (context : String) :
    (p.emit d context).1 =
      (if p.fatal ⟨d, some context⟩ then .faulted (Report.fault ⟨d, some context⟩)
        else .returned ()) ∧
    p.Spoke (p.notice ⟨d, some context⟩) (p.emit d context).2 := by
  refine ⟨?_, (p.said_emit d context).spoke⟩
  have hprinted := (p.said_printed ⟨d, some context⟩).trans (said_forward _ ⟨d, some context⟩)
  have hfatal := hprinted.spoke.fatal_eq ⟨d, some context⟩
  rw [← hfatal]
  rfl

theorem calm_of_emit {p q : Process} {d : Diagnostic} {context : String}
    (h : p.emit d context = (.returned (), q)) : p.fatal ⟨d, some context⟩ = false := by
  have houtcome := (p.emit_spec d context).1
  rw [h] at houtcome
  cases hfatal : p.fatal ⟨d, some context⟩ with
  | false => rfl
  | true =>
    rw [hfatal] at houtcome
    cases houtcome

theorem fatal_of_emit {p q : Process} {d : Diagnostic} {context : String} {fault : Fault}
    (h : p.emit d context = (.faulted fault, q)) :
    p.fatal ⟨d, some context⟩ = true ∧ fault = Report.fault ⟨d, some context⟩ := by
  have houtcome := (p.emit_spec d context).1
  rw [h] at houtcome
  cases hfatal : p.fatal ⟨d, some context⟩ with
  | false =>
    rw [hfatal] at houtcome
    cases houtcome
  | true =>
    rw [hfatal] at houtcome
    cases houtcome
    exact ⟨rfl, rfl⟩

end Process

namespace Device

/-- The warning that registering reports: that pages could not be locked, under best effort. -/
def warning? (device : Device) (p : Process) (address : Nat) (bytes : UInt64) : Option Report :=
  match device with
  | .host .bestEffort =>
    match p.space.lock address bytes.toNat with
    | .ok _ => none
    | .error e => some ⟨.lockFailed, some (Size.render bytes ++ " at " ++ renderAddress address ++
        ": " ++ (DeviceError.system "mlock" e).message)⟩
  | _ => none

/-- Registering writes its warning, if it has one, and faults over it if that is fatal. -/
theorem register_spec {device : Device} {p q : Process} {address : Nat} {bytes : UInt64}
    {flags : RegisterFlags} {result : Outcome (Except DeviceError Unit)}
    (h : device.register p address bytes flags = (result, q)) :
    p.Spoke ((device.warning? p address bytes).toList.flatMap p.notice) q ∧
      (∀ r, device.warning? p address bytes = some r →
        result = if p.fatal r then .faulted r.fault else .returned (.ok ())) ∧
      (device.warning? p address bytes = none → ∃ answer, result = .returned answer) := by
  cases device with
  | dummy index =>
    cases h
    exact ⟨Process.spoke_nothing ⟨rfl, rfl, rfl⟩ rfl, nofun, fun _ => ⟨_, rfl⟩⟩
  | host policy =>
    unfold register Process.lockPages at h
    cases policy with
    | disabled =>
      cases h
      exact ⟨Process.spoke_nothing (.refl _) rfl, nofun, fun _ => ⟨_, rfl⟩⟩
    | required =>
      dsimp only at h
      split at h <;> cases h
      · exact ⟨Process.spoke_nothing ⟨rfl, rfl, rfl⟩ rfl, nofun, fun _ => ⟨_, rfl⟩⟩
      · exact ⟨Process.spoke_nothing (.refl _) rfl, nofun, fun _ => ⟨_, rfl⟩⟩
    | bestEffort =>
      dsimp only at h
      cases hlock : p.space.lock address bytes.toNat with
      | ok space =>
        rw [hlock] at h
        cases h
        simp only [warning?, hlock]
        exact ⟨Process.spoke_nothing ⟨rfl, rfl, rfl⟩ rfl, nofun, fun _ => ⟨_, rfl⟩⟩
      | error e =>
        simp only [hlock, if_pos] at h
        simp only [warning?, hlock]
        generalize Size.render bytes ++ " at " ++ renderAddress address ++ ": " ++
          (DeviceError.system "mlock" e).message = context at h ⊢
        obtain ⟨houtcome, hspoke⟩ := p.emit_spec .lockFailed context
        obtain ⟨rfl, rfl⟩ := Prod.mk.inj h
        refine ⟨by simpa using hspoke, ?_, nofun⟩
        rintro _ ⟨⟩
        rw [houtcome]
        split <;> rfl

end Device

/-- Elsewhere the process's strict mode, its sink and whether it is quiet stay; anything else may
change. -/
def Site.ReportsAs (s t : Site) : Prop := s.process.ReportsAs t.process

/-! ### What there is to report -/

/-- The code that stands for the error in reports; a request that is too large has none. -/
def AllocationError.code? : AllocationError → Option String
  | .createFailed .. => some "SA101"
  | .resizeFailed .. => some "SA102"
  | .mapFailed .. => some "SA103"
  | .device .. => some "SA104"
  | .bootstrapTimedOut .. => some "SA105"
  | .lengthMismatch .. => some "SA106"
  | .nameTaken .. => some "SA108"
  | .openFailed .. => some "SA109"
  | .sizeOverflow .. => none

theorem AllocationError.diagnostic?_eq (e : AllocationError) :
    e.diagnostic? = e.code?.bind Diagnostic.ofCode? := by
  cases e <;> rfl

/-- What the steps wrote, oldest first. -/
def written : List (Call × Site) → List Output
  | [] => []
  | (c, s) :: earlier => written earlier ++ (c.step s).2.process.output.drop s.process.output.length

namespace Attach

def staleReport (a : Attach) : Report := ⟨.staleRemoved, some ("segment " ++ a.config.segment.text)⟩

def errorReport? (a : Attach) (e : AllocationError) : Option Report :=
  (e.code?.bind Diagnostic.ofCode?).map fun d =>
    ⟨d, some ("rank " ++ toString a.config.rank ++ ": " ++ e.message)⟩

def removal? (a : Attach) : Call × Site → Option Report
  | (.attach _ .removeLeftover, s) =>
    (s.kernel.names.get? a.config.segment).map fun _ => a.staleReport
  | _ => none

def refusal? (a : Attach) : Call × Site → Option Report
  | (.attach _ (.register m), s) => a.device.warning? s.process m.payload a.bytes
  | _ => none

def failure? (a : Attach) : Call × Site → Option Report
  | (.attach _ (.fail e), _) => a.errorReport? e
  | _ => none

/-- The line that the log has of a call that attached by the step; it is no report. -/
def attached? (a : Attach) : Call × Site → Option Output
  | (.attach _ (.finish m), _) => some (a.success m)
  | _ => none

def events (a : Attach) (steps : List (Call × Site)) : List Report :=
  (steps.findSome? a.removal?).toList ++ (steps.findSome? a.refusal?).toList ++
    (steps.findSome? a.failure?).toList

def writes (a : Attach) (s : Site) : Phase → List Output
  | .reportLeftover => s.process.notice a.staleReport
  | .register m => (a.device.warning? s.process m.payload a.bytes).toList.flatMap s.process.notice
  | .fail e => (a.errorReport? e).toList.flatMap s.process.notice
  | .finish m => [a.success m]
  | _ => []

variable {a : Attach} {phase : Phase} {s t : Site} {progress : Progress Phase Result}

/-- The error is written, if it is to be reported, and the call faults over it if that is fatal. -/
theorem failed_reports {error : AllocationError} {o : Outcome Result} {p : Process}
    (h : a.failed error s = (.done o, { s with process := p })) :
    s.process.Spoke ((a.errorReport? error).toList.flatMap s.process.notice) p ∧
      o = match a.errorReport? error with
        | some r => if s.process.fatal r then .faulted r.fault else .returned (.error error)
        | none => .returned (.error error) := by
  unfold failed at h
  unfold errorReport?
  rw [error.diagnostic?_eq] at h
  generalize error.code?.bind Diagnostic.ofCode? = diagnostic? at h ⊢
  cases diagnostic? with
  | none =>
    cases h
    exact ⟨Process.spoke_nothing ⟨rfl, rfl, rfl⟩ rfl, rfl⟩
  | some d =>
    dsimp only at h
    generalize "rank " ++ toString a.config.rank ++ ": " ++ error.message = context at h ⊢
    obtain ⟨houtcome, hspoke⟩ := (s.process.recordFailure a.account).emit_spec d context
    have hcounted : s.process.ReportsAs (s.process.recordFailure a.account) := ⟨rfl, rfl, rfl⟩
    rw [hcounted.fatal_eq] at houtcome
    rw [hcounted.notice_eq] at hspoke
    cases h
    have houtput : _ = s.process.output ++ _ := hspoke.output_eq
    refine ⟨⟨hcounted.trans hspoke.toReportsAs, ?_⟩, ?_⟩
    · simpa using houtput
    · simp only [Option.map_some, houtcome]
      split <;> rfl

namespace Transition

theorem spoke (h : Transition a phase s progress t) :
    s.process.Spoke (a.writes s phase) t.process := by
  cases h with
  | leftoverMapped h | mapped h | foundMapped h =>
    rw [(Site.mapped_of_mapSegment h).2.2.1]
    exact Process.spoke_nothing ⟨rfl, rfl, rfl⟩ rfl
  | created h =>
    rw [(Site.created_of_createSegment h).2]
    exact Process.spoke_nothing (.refl _) rfl
  | resized h =>
    rw [Site.of_resizeSegment h]
    exact Process.spoke_nothing (.refl _) rfl
  | @leftoverReported _ p h | @leftoverFatal _ p _ h =>
    have hspoke := (s.process.emit_spec .staleRemoved ("segment " ++ a.config.segment.text)).2
    rw [h] at hspoke
    exact hspoke
  | registered h | unregistered h | registerFatal h => exact (Device.register_spec h).1
  | undoneError | undoneFault | undoneAbort =>
    unfold undone
    split <;> exact Process.spoke_nothing ⟨rfl, rfl, rfl⟩ rfl
  | finished h =>
    refine ⟨?_, output_of_succeeded h⟩
    have hp := congrArg (fun result => result.2.process) h
    dsimp only at hp
    rw [← hp]
    exact ⟨rfl, rfl, rfl⟩
  | failed h => exact (failed_reports h).1
  | _ => exact Process.spoke_nothing ⟨rfl, rfl, rfl⟩ rfl

end Transition

/-! ### What was reported so far -/

/-- No report is fatal, and all of them were written. -/
def Clean (p : Process) (reports : List Report) (output : List Output) : Prop :=
  (∀ r ∈ reports, p.fatal r = false) ∧ output = reports.flatMap p.notice

/-- What a process that reports as `p` has written, phase by phase, of what there was to report of a
removed leftover and of a refused lock. -/
def Due (a : Attach) (p : Process) (removal? refusal? : Option Report) (output : List Output) :
    Phase → Prop
  | .findLeftover | .measureLeftover _ | .mapLeftover _ | .checkLeftover _ | .retireLeftover _
  | .removeLeftover => removal? = none ∧ refusal? = none ∧ output = []
  | .reportLeftover => removal? = some a.staleReport ∧ refusal? = none ∧ output = []
  | .create | .resize _ | .map _ | .claim _ | .find _ | .measure _ _ | .mapFound _ _ _
  | .checkReady _ _ | .checkOwner _ _ | .checkLength _ _ | .raiseLive _ _ | .recheck _ _
  | .withdraw _ _ | .raiseJoined _ | .missed _ | .pause _ _ | .register _ =>
    refusal? = none ∧ Clean p removal?.toList output
  | .undo _ (.faulted fault) =>
    (∀ r, removal? = some r → p.fatal r = false) ∧
      (∃ r, refusal? = some r ∧ p.fatal r = true ∧ fault = r.fault) ∧
      output = (removal?.toList ++ refusal?.toList).flatMap p.notice
  | .undo _ .aborted => False
  | _ => Clean p (removal?.toList ++ refusal?.toList) output

def concludes : Call → Bool
  | .attach _ (.fail _) | .attach _ (.finish _) => true
  | _ => false

structure Reporting (a : Attach) (p : Process) (steps : List (Call × Site)) (s : Site)
    (phase : Phase) : Prop where
  same : p.ReportsAs s.process
  ongoing : ∀ own ∈ steps, concludes own.1 = false
  due : a.Due p (steps.findSome? a.removal?) (steps.findSome? a.refusal?) (written steps) phase

/-- What the call reported, and how it ended. -/
structure Reported (a : Attach) (p : Process) (steps : List (Call × Site)) (o : Outcome Reply) :
    Prop where
  written_eq : written steps =
    (a.events steps).flatMap p.notice ++ (steps.findSome? a.attached?).toList
  calm_before : ∀ r ∈ (a.events steps).dropLast, p.fatal r = false
  fatal_last : ∀ r, (a.events steps).getLast? = some r → p.fatal r = true → o = .faulted r.fault
  calm : (∀ r ∈ a.events steps, p.fatal r = false) →
    ∀ code message context, o ≠ .faulted (.strict code message context)
  failed : ∀ e, o = .returned (.refused e) → steps.findSome? a.failure? = a.errorReport? e
  fails : ∀ own ∈ steps, ∀ e, own.1 = .attach a (.fail e) → 
    o = .returned (.refused e) ∨
      ∃ r, a.errorReport? e = some r ∧ p.fatal r = true ∧ o = .faulted r.fault

def Reports (a : Attach) (p : Process) (steps : List (Call × Site)) :
    Progress Phase Result → Site → Prop
  | .running next, t => a.Reporting p steps t next
  | .done o, _ => a.Reported p steps (o.map .ofResult)

theorem fail_not_mem {steps : List (Call × Site)} (h : ∀ own ∈ steps, concludes own.1 = false)
    {own : Call × Site} (hmem : own ∈ steps) : a.failure? own = none ∧ a.attached? own = none := by
  have hgoes := h own hmem
  obtain ⟨c, u⟩ := own
  cases c with
  | detach => exact ⟨rfl, rfl⟩
  | attach b phase =>
    cases phase with
    | fail | finish => cases hgoes
    | _ => exact ⟨rfl, rfl⟩

section

variable {p : Process} {steps : List (Call × Site)} {next : Phase}

theorem written_cons (a : Attach) (phase : Phase) (s : Site) (steps : List (Call × Site)) :
    written ((.attach a phase, s) :: steps) = written steps ++ a.writes s phase := by
  have hspoke := (a.step_transition phase s).spoke
  have hafter : ((Call.attach a phase).step s).2 = (a.step phase s).2 := rfl
  rw [written, hafter, hspoke.output_eq, List.drop_left]

/-- The step is not the last. -/
theorem Reporting.running (h : a.Reporting p steps s phase)
    (hstep : a.step phase s = (.running next, t)) (hphase : concludes (.attach a phase) = false)
    (hdue : a.Due p (((.attach a phase, s) :: steps).findSome? a.removal?)
      (((.attach a phase, s) :: steps).findSome? a.refusal?) (written steps ++ a.writes s phase)
      next) : a.Reporting p ((.attach a phase, s) :: steps) t next := by
  have hspoke := (a.step_transition phase s).spoke
  rw [hstep] at hspoke
  refine ⟨h.same.trans hspoke.toReportsAs, ?_, ?_⟩
  · rintro own (_ | ⟨_, hmem⟩)
    · exact hphase
    · exact h.ongoing own hmem
  · rw [written_cons]
    exact hdue

/-- The step has nothing to report. -/
theorem Reporting.quiet (h : a.Reporting p steps s phase)
    (hstep : a.step phase s = (.running next, t)) (hphase : concludes (.attach a phase) = false)
    (hremoval : a.removal? (.attach a phase, s) = none)
    (hrefusal : a.refusal? (.attach a phase, s) = none) (hwrites : a.writes s phase = [])
    (hdue : ∀ removal? refusal? output, a.Due p removal? refusal? output phase →
      a.Due p removal? refusal? output next) :
    a.Reporting p ((.attach a phase, s) :: steps) t next := by
  refine h.running hstep hphase ?_
  rw [List.findSome?_cons, hremoval, List.findSome?_cons, hrefusal, hwrites, List.append_nil]
  exact hdue _ _ _ h.due

theorem Clean.unrefused {removal? : Option Report} {output : List Output}
    (h : Clean p removal?.toList output) :
    Clean p (removal?.toList ++ (none : Option Report).toList) output := by
  rwa [Option.toList_none, List.append_nil]

theorem Clean.add {reports : List Report} {output : List Output} (h : Clean p reports output)
    {r : Report} (hcalm : p.fatal r = false) : Clean p (reports ++ [r]) (output ++ p.notice r) := by
  refine ⟨?_, ?_⟩
  · intro r' hr'
    rcases List.mem_append.mp hr' with hold | hnew
    · exact h.1 r' hold
    · rw [List.mem_singleton.mp hnew]
      exact hcalm
  · rw [List.flatMap_append, ← h.2, List.flatMap_singleton]

/-- A call that has reported something fatal ends over it. -/
theorem reported_of_fatal {o : Outcome Reply} (reports : List Report) {r : Report}
    (hevents : a.events steps = reports ++ [r]) (hcalm : ∀ r ∈ reports, p.fatal r = false)
    (hfatal : p.fatal r = true) (ho : o = .faulted r.fault)
    (hwritten : written steps = (reports ++ [r]).flatMap p.notice)
    (hattached : steps.findSome? a.attached? = none)
    (hfails : ∀ own ∈ steps, ∀ e, own.1 = .attach a (.fail e) → a.errorReport? e = some r) :
    a.Reported p steps o where
  written_eq := by rw [hevents, hattached, hwritten, Option.toList_none, List.append_nil]
  calm_before := by
    rw [hevents, List.dropLast_concat]
    exact hcalm
  fatal_last := by
    intro last hlast _
    rw [hevents, List.getLast?_concat] at hlast
    cases hlast
    exact ho
  calm h := by
    have hmem : r ∈ a.events steps := by simp [hevents]
    rw [h r hmem] at hfatal
    cases hfatal
  failed e he := by
    rw [ho] at he
    cases he
  fails own hmem e he := Or.inr ⟨r, hfails own hmem e he, hfatal, ho⟩

/-- A call whose reports are not fatal ends in another way than over a report. -/
theorem reported_of_clean {o : Outcome Reply} {reports : List Report} {output : List Output}
    (hevents : a.events steps = reports) (hclean : Clean p reports output)
    (hwritten : written steps = output ++ (steps.findSome? a.attached?).toList)
    (ho : ∀ code message context, o ≠ .faulted (.strict code message context))
    (hfailed : ∀ e, o = .returned (.refused e) → steps.findSome? a.failure? = a.errorReport? e)
    (hfails : ∀ own ∈ steps, ∀ e, own.1 = .attach a (.fail e) → o = .returned (.refused e)) :
    a.Reported p steps o where
  written_eq := by rw [hevents, hwritten, hclean.2]
  calm_before := by
    rw [hevents]
    exact fun r hr => hclean.1 r (List.dropLast_subset _ hr)
  fatal_last := by
    intro last hlast hfatal
    rw [hevents] at hlast
    rw [hclean.1 last (List.mem_of_getLast? hlast)] at hfatal
    cases hfatal
  calm _ := ho
  failed := hfailed
  fails own hmem e he := Or.inl (hfails own hmem e he)

/-- What there is to report of the steps before the call's last one. -/
theorem Reporting.events_cons (h : a.Reporting p steps s phase) :
    a.events ((.attach a phase, s) :: steps) =
      (((.attach a phase, s) :: steps).findSome? a.removal?).toList ++
        (((.attach a phase, s) :: steps).findSome? a.refusal?).toList ++
          (a.failure? (.attach a phase, s)).toList := by
  have hnone : steps.findSome? a.failure? = none :=
    List.findSome?_eq_none_iff.mpr fun _ hmem => (fail_not_mem h.ongoing hmem).1
  unfold events
  rw [List.findSome?_cons (f := a.failure?), hnone]
  cases a.failure? (.attach a phase, s) <;> rfl

theorem Reporting.attached_cons (h : a.Reporting p steps s phase) :
    ((.attach a phase, s) :: steps).findSome? a.attached? = a.attached? (.attach a phase, s) := by
  have hnone : steps.findSome? a.attached? = none :=
    List.findSome?_eq_none_iff.mpr fun _ hmem => (fail_not_mem h.ongoing hmem).2
  rw [List.findSome?_cons, hnone]
  cases a.attached? (.attach a phase, s) <;> rfl

/-- The only step by which the call can have failed is its last. -/
theorem Reporting.fail_mem (h : a.Reporting p steps s phase) {own : Call × Site}
    (hmem : own ∈ (.attach a phase, s) :: steps) {e : AllocationError}
    (he : own.1 = .attach a (.fail e)) : phase = .fail e := by
  rcases List.mem_cons.mp hmem with rfl | hold
  · cases he
    rfl
  · have hgoes := h.ongoing own hold
    rw [he] at hgoes
    cases hgoes

/-- A registration that succeeds may have warned, but not fatally. -/
theorem Reporting.registered {m : Mapping} {q : Process}
    (h : a.Reporting p steps s (.register m))
    (hregister : a.device.register s.process m.payload a.bytes .portable = (.returned (.ok ()), q))
    (hstep : a.step (.register m) s = (.running next, t))
    (hnext : next = .publishBytes m ∨ next = .finish m) :
    a.Reporting p ((.attach a (.register m), s) :: steps) t next := by
  obtain ⟨hrefusal, hclean⟩ := h.due
  have hwarns := (Device.register_spec hregister).2.1
  have hdone : Clean p ((steps.findSome? a.removal?).toList ++
      (((.attach a (.register m), s) :: steps).findSome? a.refusal?).toList)
      (written steps ++ a.writes s (.register m)) := by
    rw [List.findSome?_cons, hrefusal]
    simp only [refusal?, writes]
    cases hwarning : a.device.warning? s.process m.payload a.bytes with
    | none => simpa using hclean
    | some r =>
      have hcalm : p.fatal r = false := by
        rw [← h.same.fatal_eq]
        by_contra hfatal
        simpa [hfatal] using hwarns r hwarning
      simpa [h.same.notice_eq] using hclean.add hcalm
  rcases hnext with rfl | rfl
  · exact h.running hstep rfl hdone
  · exact h.running hstep rfl hdone

/-- A registration that fails has not warned. -/
theorem Reporting.unregistered {m : Mapping} {q : Process} {e : DeviceError}
    {error : AllocationError} (h : a.Reporting p steps s (.register m))
    (hregister :
      a.device.register s.process m.payload a.bytes .portable = (.returned (.error e), q))
    (hstep : a.step (.register m) s = (.running (.undo m (.returned error)), t)) :
    a.Reporting p ((.attach a (.register m), s) :: steps) t (.undo m (.returned error)) := by
  have hwarns := (Device.register_spec hregister).2.1
  have hsilent : a.device.warning? s.process m.payload a.bytes = none := by
    rw [Option.eq_none_iff_forall_ne_some]
    intro r hwarning
    have hresult := hwarns r hwarning
    split at hresult <;> cases hresult
  refine h.quiet hstep rfl rfl hsilent (by simp [writes, hsilent]) ?_
  rintro _ _ _ ⟨rfl, hclean⟩
  exact hclean.unrefused

/-- A registration that faults has warned, fatally. -/
theorem Reporting.registerFatal {m : Mapping} {q : Process} {fault : Fault}
    (h : a.Reporting p steps s (.register m))
    (hregister : a.device.register s.process m.payload a.bytes .portable = (.faulted fault, q))
    (hstep : a.step (.register m) s = (.running (.undo m (.faulted fault)), t)) :
    a.Reporting p ((.attach a (.register m), s) :: steps) t (.undo m (.faulted fault)) := by
  obtain ⟨hrefusal, hclean⟩ := h.due
  obtain ⟨-, hwarns, hsilent⟩ := Device.register_spec hregister
  cases hwarning : a.device.warning? s.process m.payload a.bytes with
  | none =>
    obtain ⟨answer, hanswer⟩ := hsilent hwarning
    cases hanswer
  | some r =>
    have hresult := hwarns r hwarning
    have hfatal : s.process.fatal r = true := by
      by_contra hcalm
      rw [if_neg hcalm] at hresult
      cases hresult
    rw [if_pos hfatal] at hresult
    cases hresult
    rw [h.same.fatal_eq] at hfatal
    refine h.running hstep rfl ⟨?_, ⟨r, ?_, hfatal, rfl⟩, ?_⟩
    · exact fun stale hstale => hclean.1 stale (Option.mem_toList.mpr hstale)
    · simp [refusal?, hwarning]
    · rw [hclean.2]
      simp [List.findSome?_cons, refusal?, removal?, hwarning, writes, h.same.notice_eq]

theorem Reporting.finished {m : Mapping} {o : Outcome Result} {q : Process}
    (h : a.Reporting p steps s (.finish m))
    (hsucceeded : a.succeeded m s = (.done o, { s with process := q })) :
    a.Reported p ((.attach a (.finish m), s) :: steps) (o.map .ofResult) := by
  have hends : (∃ block, o = .returned (.ok block)) ∨ o = .faulted .addOverflow := by
    have ho := (succeeded_spec hsucceeded).2
    split at ho
    · exact Or.inl ⟨_, ho⟩
    · exact Or.inr ho
  refine reported_of_clean (h.events_cons.trans (List.append_nil _)) h.due ?_ ?_ ?_ ?_
  · rw [written_cons, h.attached_cons]
    rfl
  · intro code message context
    rcases hends with ⟨block, rfl⟩ | rfl <;> simp
  · intro e he
    rcases hends with ⟨block, rfl⟩ | rfl <;> simp [Reply.ofResult] at he
  · intro own hmem e he
    cases h.fail_mem hmem he

/-- The call fails: its error is the last to be reported. -/
theorem Reporting.failed {error : AllocationError} {o : Outcome Result} {q : Process}
    (h : a.Reporting p steps s (.fail error))
    (hfailed : a.failed error s = (.done o, { s with process := q })) :
    a.Reported p ((.attach a (.fail error), s) :: steps) (o.map .ofResult) := by
  have ho := (failed_reports hfailed).2
  have hdue : Clean p ((steps.findSome? a.removal?).toList ++ (steps.findSome? a.refusal?).toList)
      (written steps) := h.due
  have hevents : a.events ((.attach a (.fail error), s) :: steps) =
      (steps.findSome? a.removal?).toList ++ (steps.findSome? a.refusal?).toList ++
        (a.errorReport? error).toList := h.events_cons
  have hwritten : written ((.attach a (.fail error), s) :: steps) =
      written steps ++ (a.errorReport? error).toList.flatMap s.process.notice := written_cons ..
  have hfails : ∀ own ∈ (.attach a (.fail error), s) :: steps, ∀ e,
      own.1 = .attach a (.fail e) → e = error := by
    intro own hmem e he
    cases h.fail_mem hmem he
    rfl
  have hcalm : o = .returned (.error error) →
      Clean p (a.events ((.attach a (.fail error), s) :: steps))
        (written ((.attach a (.fail error), s) :: steps)) →
      a.Reported p ((.attach a (.fail error), s) :: steps) (o.map .ofResult) := by
    rintro rfl hclean
    refine reported_of_clean rfl hclean ?_ (by simp) ?_ ?_
    · rw [h.attached_cons]
      exact (List.append_nil _).symm
    · rintro e ⟨⟩
      have hnone : steps.findSome? a.failure? = none :=
        List.findSome?_eq_none_iff.mpr fun _ hmem => (fail_not_mem h.ongoing hmem).1
      rw [List.findSome?_cons, hnone]
      simp only [failure?]
      cases a.errorReport? error <;> rfl
    · intro own hmem e he
      rw [hfails own hmem e he]
      rfl
  cases hreport : a.errorReport? error with
  | none =>
    rw [hreport] at ho
    refine hcalm ho ?_
    rw [hevents, hwritten, hreport]
    simpa using hdue
  | some r =>
    rw [hreport] at ho
    cases hfatal : s.process.fatal r with
    | false =>
      refine hcalm (by simpa [hfatal] using ho) ?_
      rw [h.same.fatal_eq] at hfatal
      rw [hevents, hwritten, hreport]
      simpa [h.same.notice_eq] using hdue.add hfatal
    | true =>
      have hfault : o = .faulted r.fault := by simpa [hfatal] using ho
      rw [h.same.fatal_eq] at hfatal
      subst hfault
      refine reported_of_fatal _ (by rw [hevents, hreport]; rfl) hdue.1 hfatal rfl ?_
        h.attached_cons ?_
      · rw [hwritten, hreport, hdue.2]
        simp [h.same.notice_eq]
      · intro own hmem e he
        rw [hfails own hmem e he, hreport]

theorem Transition.reports {progress : Progress Phase Result} (ht : Transition a phase s progress t)
    (hstep : a.step phase s = (progress, t)) (h : a.Reporting p steps s phase) :
    a.Reports p ((.attach a phase, s) :: steps) progress t := by
  have hdue := h.due
  cases ht with
  | leftoverFound | leftoverShort | leftoverLong | leftoverMapped | leftoverOrphaned |
    leftoverRetired | created | resized | mapped | claimed | found | absent | short | sized |
    foundMapped | ready | unready | owned | orphaned | matched | waiting | woken | asleep | raised |
    confirmed | refused | withdrawn | joined | undoneError | bytesPublished | joinedPublished |
    livePublished | statePublished | discarded =>
    exact h.quiet hstep rfl rfl rfl rfl fun _ _ _ hdue => hdue
  | leftoverAbsent =>
    refine h.quiet hstep rfl rfl rfl rfl ?_
    rintro _ _ _ ⟨rfl, rfl, rfl⟩
    exact ⟨rfl, nofun, rfl⟩
  | leftoverUnopened | leftoverUnmapped | leftoverOwned =>
    refine h.quiet hstep rfl rfl rfl rfl ?_
    rintro _ _ _ ⟨rfl, rfl, rfl⟩
    exact ⟨nofun, rfl⟩
  | nameTaken | uncreated | unresized | unmapped | unopened | foundUnmapped | mismatched |
    expired =>
    refine h.quiet hstep rfl rfl rfl rfl ?_
    rintro _ _ _ ⟨rfl, hclean⟩
    exact hclean.unrefused
  | leftoverRemoved hbound =>
    obtain ⟨-, hrefusal, hwritten⟩ := hdue
    refine h.running hstep rfl ⟨?_, ?_, ?_⟩
    · simp [removal?, hbound]
    · simpa [List.findSome?_cons, refusal?] using hrefusal
    · simpa [writes] using hwritten
  | leftoverGone hfree =>
    refine h.quiet hstep rfl ?_ rfl rfl ?_
    · simp [removal?, hfree]
    · rintro _ _ _ ⟨rfl, rfl, rfl⟩
      exact ⟨rfl, nofun, rfl⟩
  | leftoverReported hemit =>
    obtain ⟨hremoval, hrefusal, hwritten⟩ := hdue
    have hcalm : p.fatal a.staleReport = false := by
      rw [← h.same.fatal_eq]
      exact Process.calm_of_emit hemit
    refine h.running hstep rfl ⟨hrefusal, ?_⟩
    have hclean : Clean p [] [] := ⟨nofun, rfl⟩
    simpa [List.findSome?_cons, hremoval, hwritten, writes, h.same.notice_eq, removal?] using
      hclean.add hcalm
  | leftoverFatal hemit =>
    obtain ⟨hremoval, hrefusal, hwritten⟩ := hdue
    obtain ⟨hfatal, rfl⟩ := Process.fatal_of_emit hemit
    rw [h.same.fatal_eq] at hfatal
    refine reported_of_fatal [] ?_ nofun hfatal rfl ?_ h.attached_cons ?_
    · rw [h.events_cons]
      simp [List.findSome?_cons, hremoval, hrefusal, removal?, refusal?, failure?, staleReport]
    · rw [written_cons, hwritten]
      simp [writes, h.same.notice_eq, staleReport]
    · intro own hmem e he
      cases h.fail_mem hmem he
  | registered hregister =>
    refine h.registered hregister hstep ?_
    cases a.config.isLeader
    · exact Or.inr rfl
    · exact Or.inl rfl
  | unregistered hregister => exact h.unregistered hregister hstep
  | registerFatal hregister => exact h.registerFatal hregister hstep
  | undoneFault =>
    obtain ⟨hcalm, ⟨r, hrefusal, hfatal, rfl⟩, hwritten⟩ := hdue
    refine reported_of_fatal (steps.findSome? a.removal?).toList ?_ ?_ hfatal rfl ?_
      h.attached_cons ?_
    · rw [h.events_cons]
      simp [List.findSome?_cons, hrefusal, removal?, refusal?, failure?]
    · intro stale hstale
      exact hcalm stale (Option.mem_toList.mp hstale)
    · rw [written_cons, hwritten, hrefusal]
      simp [writes]
    · intro own hmem e he
      cases h.fail_mem hmem he
  | undoneAbort => exact hdue.elim
  | finished hsucceeded => exact h.finished hsucceeded
  | failed hfailed => exact h.failed hfailed

end

theorem Reports.reached {p : Process} {steps : List (Call × Site)}
    {result : Progress Phase Result × Site} (h : a.Reports p steps result.1 result.2) :
    Reached (fun c s => ∃ phase, c = .attach a phase ∧ a.Reporting p steps s phase)
      (fun o _ => a.Reported p steps o) (Call.ofAttach a result) := by
  obtain ⟨progress, s⟩ := result
  cases progress with
  | running phase => exact ⟨phase, rfl, h⟩
  | done o => exact h

end Attach

/-! ### Where reports go -/

namespace Output

variable {output more : List Output}

end Output

namespace Process

variable (p : Process)

end Process

def beset : Site where
  kernel := (publishedSite.kernel.start 2).kill 1
  process :=
    { (Process.fresh 2).openAccount.2 with
      strict := StrictCell.fresh.set .fatalErrors
      quiet := true
      sink := some "operations" }

def greedy : Resource :=
  ⟨.shared { (Machine.sample () id).config with reclaimStale := true }, .host .required, 0⟩

end StagingMemory
