import StagingMemory.Device.Access
/-!
What reports and calls to a device change in their process. A report changes what was written and
the strict mode's cell, and nothing else (`Process.wrote_of_emit`); what it writes does not depend
on what was written before (`Process.said_emit`). Registering and unregistering
change locks and registrations but no mapping, and registering that fails changes neither
(`Device.kept_of_register`, `Device.unchanged_of_register`, `Device.kept_of_unregister`).
-/
namespace StagingMemory

namespace Memory.AddressSpace

structure Relocked (a b : AddressSpace) : Prop where
  regions_eq : b.regions = a.regions
  nextPage_eq : b.nextPage = a.nextPage
  lockLimit_eq : b.lockLimit = a.lockLimit

namespace Relocked

variable {a b : AddressSpace}

theorem refl (a : AddressSpace) : Relocked a a := ⟨rfl, rfl, rfl⟩

theorem of_eq (h : b = a) : Relocked a b := h ▸ refl a

theorem page?_eq (h : Relocked a b) (page : Nat) : b.page? page = a.page? page := by
  simp only [page?, h.regions_eq]

end Relocked

theorem relocked_of_lock {a b : AddressSpace} {address length : Nat}
    (h : a.lock address length = .ok b) : Relocked a b := by
  unfold lock at h
  dsimp only at h
  split at h
  · cases h
  · split at h
    · cases h
    · split at h
      · cases h
      · split at h
        · cases h
          exact ⟨rfl, rfl, rfl⟩
        · cases h

theorem relocked_of_unlock {a b : AddressSpace} {address length : Nat}
    (h : a.unlock address length = .ok b) : Relocked a b := by
  unfold unlock at h
  dsimp only at h
  split at h
  · cases h
  · split at h
    · cases h
      exact ⟨rfl, rfl, rfl⟩
    · cases h

theorem mem_locked_of_unlock {a b : AddressSpace} {address length : Nat}
    (h : a.unlock address length = .ok b) (page : Nat) :
    page ∈ b.locked ↔ page ∈ a.locked ∧ page ∉ touched address length := by
  unfold unlock at h
  dsimp only at h
  split at h
  · cases h
  · split at h
    · cases h
      exact PageSet.mem_remove a.locked _ page
    · cases h

end Memory.AddressSpace

/-- Reading the mode again reads the same. -/
theorem StrictCell.read_read (cell : StrictCell) (value : Option String) :
    ((cell.read value).2.read value).1 = (cell.read value).1 := by
  unfold read
  cases h : cell.isSet with
  | true => simp [h]
  | false => simp [isSet_fill]

namespace Process

/-! ### Reports -/

def Wrote (p q : Process) : Prop :=
  ∃ strict sinks output, q = { p with strict, sinks, output }

namespace Wrote

variable {p q r : Process}

theorem refl (p : Process) : Wrote p p := ⟨_, _, _, rfl⟩

theorem trans (h : Wrote p q) (k : Wrote q r) : Wrote p r := by
  obtain ⟨_, _, _, rfl⟩ := h
  obtain ⟨strict, sinks, output, rfl⟩ := k
  exact ⟨strict, sinks, output, rfl⟩

theorem pid_eq (h : Wrote p q) : q.pid = p.pid := by
  obtain ⟨_, _, _, rfl⟩ := h
  rfl

theorem space_eq (h : Wrote p q) : q.space = p.space := by
  obtain ⟨_, _, _, rfl⟩ := h
  rfl

theorem dummies_eq (h : Wrote p q) : q.dummies = p.dummies := by
  obtain ⟨_, _, _, rfl⟩ := h
  rfl

theorem accounts_eq (h : Wrote p q) : q.accounts = p.accounts := by
  obtain ⟨_, _, _, rfl⟩ := h
  rfl

end Wrote

theorem wrote_write (p : Process) (o : Output) : Wrote p (p.write o) := ⟨_, _, _, rfl⟩

theorem wrote_trace (p : Process) (text : String) : Wrote p (p.trace text) := ⟨_, _, _, rfl⟩

theorem wrote_forward (p : Process) (r : Report) : Wrote p (p.forward r) := by
  unfold forward
  cases p.sink <;> exact ⟨_, _, _, rfl⟩

theorem wrote_fatalNow (p : Process) (severity : Severity) : Wrote p (p.fatalNow severity).2 := by
  cases severity <;> exact ⟨_, _, _, rfl⟩

theorem emit_snd (p : Process) (d : Diagnostic) (context : String) :
    (p.emit d context).2 = (((if p.quiet then p else p.write (.printed ⟨d, some context⟩)).forward
      ⟨d, some context⟩).fatalNow d.severity).2 := rfl

theorem wrote_of_emit {p q : Process} {d : Diagnostic} {context : String} {o : Outcome Unit}
    (h : p.emit d context = (o, q)) : Wrote p q := by
  have hq : q = (p.emit d context).2 := by rw [h]
  rw [hq, emit_snd]
  have hprinted : Wrote p (if p.quiet then p else p.write (.printed ⟨d, some context⟩)) := by
    split
    · exact Wrote.refl p
    · exact wrote_write p _
  exact (hprinted.trans (wrote_forward _ _)).trans (wrote_fatalNow _ _)

theorem wrote_emitLast (p : Process) (d : Diagnostic) (context : String) :
    Wrote p (p.emitLast d context) :=
  (wrote_write p _).trans (wrote_forward _ _)

def notice (p : Process) (report : Report) : List Output :=
  (if p.quiet then [] else [.printed report]) ++ report.logLines.map .logged ++
    (p.sink.map fun sink => .delivered sink report).toList

/-- `q` is `p` after it wrote this, with the same strict mode, and with the same accounts. -/
structure Said (p : Process) (written : List Output) (q : Process) : Prop where
  pid_eq : q.pid = p.pid
  accounts_eq : q.accounts = p.accounts
  quiet_eq : q.quiet = p.quiet
  sink_eq : q.sink = p.sink
  mode_eq : q.readStrictMode.1 = p.readStrictMode.1
  output_eq : q.output = p.output ++ written

namespace Said

variable {p q r : Process} {written more : List Output}

theorem refl (p : Process) : Said p [] p :=
  ⟨rfl, rfl, rfl, rfl, rfl, (List.append_nil _).symm⟩

theorem trans (h : Said p written q) (k : Said q more r) : Said p (written ++ more) r where
  pid_eq := k.pid_eq.trans h.pid_eq
  accounts_eq := k.accounts_eq.trans h.accounts_eq
  quiet_eq := k.quiet_eq.trans h.quiet_eq
  sink_eq := k.sink_eq.trans h.sink_eq
  mode_eq := k.mode_eq.trans h.mode_eq
  output_eq := by rw [k.output_eq, h.output_eq, List.append_assoc]

/-- Afterwards a report makes the process write the same as before. -/
theorem notice_eq (h : Said p written q) (report : Report) : q.notice report = p.notice report := by
  simp only [notice, h.quiet_eq, h.sink_eq]

/-- What happens to the memory goes unmentioned. -/
theorem remapped (h : Said p written q) (space : Memory.AddressSpace) :
    Said p written { q with space } :=
  ⟨h.pid_eq, h.accounts_eq, h.quiet_eq, h.sink_eq, h.mode_eq, h.output_eq⟩

end Said

theorem said_forward (p : Process) (report : Report) :
    p.Said (report.logLines.map .logged ++ (p.sink.map fun sink => .delivered sink report).toList)
      (p.forward report) := by
  unfold forward
  cases hsink : p.sink with
  | none =>
    refine ⟨rfl, rfl, rfl, rfl, rfl, ?_⟩
    simp [log]
  | some sink =>
    refine ⟨rfl, rfl, rfl, rfl, rfl, ?_⟩
    simp [log, deliver, write]

theorem said_fatalNow (p : Process) (severity : Severity) :
    p.Said [] (p.fatalNow severity).2 := by
  have hread : p.Said [] p.readStrictMode.2 :=
    ⟨rfl, rfl, rfl, rfl, p.strict.read_read p.strictVariable, (List.append_nil _).symm⟩
  cases severity with
  | error | warning => exact hread
  | note | help => exact .refl p

theorem said_printed (p : Process) (report : Report) :
    p.Said (if p.quiet then [] else [.printed report])
      (if p.quiet then p else p.write (.printed report)) := by
  split
  · exact .refl p
  · exact ⟨rfl, rfl, rfl, rfl, rfl, rfl⟩

theorem said_emit (p : Process) (d : Diagnostic) (context : String) :
    p.Said (p.notice ⟨d, some context⟩) (p.emit d context).2 := by
  have hprinted := p.said_printed ⟨d, some context⟩
  have hsaid := (hprinted.trans (said_forward _ ⟨d, some context⟩)).trans
    (said_fatalNow _ d.severity)
  rw [emit_snd]
  rw [hprinted.sink_eq, List.append_nil, ← List.append_assoc] at hsaid
  exact hsaid

/-- A report is either not fatal or faults; it never aborts. -/
theorem emit_cases (p : Process) (d : Diagnostic) (context : String) :
    (∃ q, p.emit d context = (.returned (), q)) ∨
      ∃ q, p.emit d context = (.faulted (strictFault d context), q) := by
  unfold emit
  cases h : ((if p.quiet then p else p.write (.printed ⟨d, some context⟩)).forward
      ⟨d, some context⟩).fatalNow d.severity with
  | mk fatal q =>
    cases fatal with
    | false => exact Or.inl ⟨q, by simp [h]⟩
    | true => exact Or.inr ⟨q, by simp [h]⟩

theorem emitAny_cases (p : Process) (d : Diagnostic) (context : Option String) :
    ∃ q, Wrote p q ∧ (p.emitAny d context = (.returned (), q) ∨
      ∃ text, p.emitAny d context = (.faulted (strictFault d text), q)) := by
  cases context with
  | none => exact ⟨p, .refl p, Or.inl rfl⟩
  | some context =>
    rcases emit_cases p d context with ⟨q, hq⟩ | ⟨q, hq⟩
    · exact ⟨q, wrote_of_emit hq, Or.inl hq⟩
    · exact ⟨q, wrote_of_emit hq, Or.inr ⟨_, hq⟩⟩

/-- `q` differs from `p` at most in what calls on memory change: in its address space, its dummies and
its accounts, and in what it wrote. -/
def SameSettings (p q : Process) : Prop :=
  ∃ space dummies accounts strict sinks output,
    q = { p with space, dummies, accounts, strict, sinks, output }

namespace SameSettings

variable {p q r : Process}

theorem symm (h : SameSettings p q) : SameSettings q p := by
  obtain ⟨_, _, _, _, _, _, rfl⟩ := h
  exact ⟨p.space, p.dummies, p.accounts, p.strict, p.sinks, p.output, rfl⟩

theorem trans (h : SameSettings p q) (k : SameSettings q r) : SameSettings p r := by
  obtain ⟨_, _, _, _, _, _, rfl⟩ := h
  obtain ⟨space, dummies, accounts, strict, sinks, output, rfl⟩ := k
  exact ⟨space, dummies, accounts, strict, sinks, output, rfl⟩

end SameSettings

theorem Wrote.sameSettings {p q : Process} (h : Wrote p q) : SameSettings p q := by
  obtain ⟨strict, sinks, output, rfl⟩ := h
  exact ⟨p.space, p.dummies, p.accounts, strict, sinks, output, rfl⟩

structure Booked (p q : Process) : Prop where
  pid_eq : q.pid = p.pid
  space_eq : q.space = p.space
  dummies_eq : q.dummies = p.dummies

namespace Booked

variable {p q r : Process}

theorem trans (h : Booked p q) (k : Booked q r) : Booked p r :=
  ⟨k.pid_eq.trans h.pid_eq, k.space_eq.trans h.space_eq, k.dummies_eq.trans h.dummies_eq⟩

end Booked

theorem Wrote.booked {p q : Process} (h : Wrote p q) : Booked p q :=
  ⟨h.pid_eq, h.space_eq, h.dummies_eq⟩

theorem booked_modifyAccount (p : Process) (id : Nat) (f : Statistics → Statistics) :
    Booked p (p.modifyAccount id f) := ⟨rfl, rfl, rfl⟩

theorem sameSettings_modifyAccount (p : Process) (id : Nat) (f : Statistics → Statistics) :
    SameSettings p (p.modifyAccount id f) :=
  ⟨p.space, p.dummies, _, p.strict, p.sinks, p.output, rfl⟩

/-! ### Devices -/

structure Kept (p q : Process) : Prop where
  pid_eq : q.pid = p.pid
  accounts_eq : q.accounts = p.accounts
  relocked : p.space.Relocked q.space

/-- `q` has the same locks and registrations as `p`, and is the same process. -/
structure Unchanged (p q : Process) : Prop where
  pid_eq : q.pid = p.pid
  accounts_eq : q.accounts = p.accounts
  space_eq : q.space = p.space
  registered_eq : ∀ index, (q.dummy index).registered = (p.dummy index).registered

theorem Wrote.unchanged {p q : Process} (h : Wrote p q) : Unchanged p q :=
  ⟨h.pid_eq, h.accounts_eq, h.space_eq, fun index => by simp only [dummy, h.dummies_eq]⟩

theorem Unchanged.kept {p q : Process} (h : Unchanged p q) : Kept p q :=
  ⟨h.pid_eq, h.accounts_eq, by rw [h.space_eq]; exact .refl _⟩

theorem Unchanged.refl (p : Process) : Unchanged p p := (Wrote.refl p).unchanged

theorem kept_modifyDummy (p : Process) (index : Nat) (f : DummyDevice → DummyDevice) :
    Kept p (p.modifyDummy index f) := ⟨rfl, rfl, .refl _⟩

theorem dummy_modifyDummy (p : Process) (index other : Nat) (d : DummyDevice) :
    (p.modifyDummy index fun _ => d).dummy other =
      if index = other ∧ other < p.dummies.length then d else p.dummy other := by
  simp only [dummy, modifyDummy, List.getElem?_modify]
  by_cases hi : index = other
  · by_cases hlt : other < p.dummies.length
    · simp [hi, hlt]
    · simp [hi, hlt]
  · simp [hi]

/-- A dummy that only recorded a call has the registrations it had. -/
theorem unchanged_modifyDummy {p : Process} {index : Nat} {d : DummyDevice}
    (h : d.registered = (p.dummy index).registered) :
    Unchanged p (p.modifyDummy index fun _ => d) := by
  refine ⟨rfl, rfl, rfl, ?_⟩
  intro other
  rw [dummy_modifyDummy]
  split
  case isTrue hi => rw [h, hi.1]
  case isFalse => rfl

theorem kept_of_lockPages {p q : Process} {policy : LockPolicy} {address : Nat} {bytes : UInt64}
    {result : Outcome (Except DeviceError Unit)}
    (h : p.lockPages policy address bytes = (result, q)) :
    Kept p q ∧ (result ≠ .returned (.ok ()) → Unchanged p q) ∧ result ≠ .aborted ∧
      ∀ fault, result = .faulted fault → ∃ context, fault = strictFault .lockFailed context := by
  unfold lockPages at h
  cases policy with
  | disabled =>
    cases h
    exact ⟨(Unchanged.refl p).kept, fun _ => .refl p, by simp, by simp⟩
  | required =>
    dsimp only at h
    split at h
    case h_1 space hlock =>
      cases h
      exact ⟨⟨rfl, rfl, Memory.AddressSpace.relocked_of_lock hlock⟩, fun hne => absurd rfl hne,
        by simp, by simp⟩
    case h_2 e _ =>
      cases h
      exact ⟨(Unchanged.refl p).kept, fun _ => .refl p, by simp, by simp⟩
  | bestEffort =>
    dsimp only at h
    split at h
    case h_1 space hlock =>
      cases h
      exact ⟨⟨rfl, rfl, Memory.AddressSpace.relocked_of_lock hlock⟩, fun hne => absurd rfl hne,
        by simp, by simp⟩
    case h_2 e _ =>
      rw [if_pos rfl] at h
      generalize Size.render bytes ++ " at " ++ renderAddress address ++ ": " ++
        (DeviceError.system "mlock" e).message = context at h
      rcases emit_cases p .lockFailed context with ⟨r, hr⟩ | ⟨r, hr⟩
      · have hu := (wrote_of_emit hr).unchanged
        rw [hr] at h
        cases h
        exact ⟨hu.kept, fun _ => hu, by simp, by simp⟩
      · have hu := (wrote_of_emit hr).unchanged
        rw [hr] at h
        cases h
        refine ⟨hu.kept, fun _ => hu, by simp, fun fault hf => ⟨context, ?_⟩⟩
        cases hf
        rfl

theorem kept_of_unlockPages {p q : Process} {policy : LockPolicy} {address : Nat} {bytes : UInt64}
    {result : Except DeviceError Unit} (h : p.unlockPages policy address bytes = (result, q)) :
    Kept p q := by
  unfold unlockPages at h
  cases policy with
  | disabled =>
    cases h
    exact (Unchanged.refl p).kept
  | required =>
    dsimp only at h
    split at h
    case h_1 hunlock =>
      cases h
      exact ⟨rfl, rfl, Memory.AddressSpace.relocked_of_unlock hunlock⟩
    case h_2 =>
      cases h
      exact (Unchanged.refl p).kept
  | bestEffort =>
    dsimp only at h
    split at h
    case h_1 hunlock =>
      cases h
      exact ⟨rfl, rfl, Memory.AddressSpace.relocked_of_unlock hunlock⟩
    case h_2 =>
      cases h
      exact (Unchanged.refl p).kept

end Process

namespace DummyDevice

/-- A registration that fails leaves the registrations as they were. -/
theorem registered_of_register_error {d e : DummyDevice} {address : Nat} {bytes : UInt64}
    {flags : RegisterFlags} {error : DeviceError}
    (h : d.register address bytes flags = (.error error, e)) : e.registered = d.registered := by
  unfold register at h
  split at h
  case h_1 henter =>
    cases h
    have hr := registered_enter d .register
    rwa [henter] at hr
  case h_2 => cases h

end DummyDevice

namespace Device

variable {device : Device} {p q : Process} {address : Nat} {bytes : UInt64} {flags : RegisterFlags}

theorem kept_of_register {result : Outcome (Except DeviceError Unit)}
    (h : device.register p address bytes flags = (result, q)) : p.Kept q := by
  cases device with
  | host policy => exact (Process.kept_of_lockPages h).1
  | dummy index =>
    cases h
    exact Process.kept_modifyDummy p index _

/-- Registering that fails, or faults, leaves every lock and registration as it was. -/
theorem unchanged_of_register {result : Outcome (Except DeviceError Unit)}
    (h : device.register p address bytes flags = (result, q)) (hne : result ≠ .returned (.ok ())) :
    p.Unchanged q := by
  cases device with
  | host policy => exact (Process.kept_of_lockPages h).2.1 hne
  | dummy index =>
    unfold register at h
    cases hd : (p.dummy index).register address bytes flags with
    | mk r d =>
      simp only [hd] at h
      cases h
      cases r with
      | ok _ => exact absurd rfl hne
      | error e =>
        exact Process.unchanged_modifyDummy (DummyDevice.registered_of_register_error hd)

/-- Registering comes back or faults; it never aborts. -/
theorem register_ne_aborted : device.register p address bytes flags ≠ (.aborted, q) := by
  intro h
  cases device with
  | host policy => exact (Process.kept_of_lockPages h).2.2.1 rfl
  | dummy index => simp [register] at h

/-- The only fault of registering is the report that pages were not locked. -/
theorem fault_of_register {fault : Fault}
    (h : device.register p address bytes flags = (.faulted fault, q)) :
    ∃ context, fault = Process.strictFault .lockFailed context := by
  cases device with
  | host policy => exact (Process.kept_of_lockPages h).2.2.2 fault rfl
  | dummy index => simp [register] at h

theorem kept_of_unregister {result : Except DeviceError Unit}
    (h : device.unregister p address bytes = (result, q)) : p.Kept q := by
  cases device with
  | host policy => exact Process.kept_of_unlockPages h
  | dummy index =>
    cases h
    exact Process.kept_modifyDummy p index _

/-- `q` is `p` after the device unregistered a range: pages of the range may be unlocked, the
registration that a dummy had of it is gone, and nothing else changed. -/
structure Unregistered (device : Device) (address : Nat) (bytes : UInt64) (p q : Process) :
    Prop where
  rest_eq : q = { p with space := q.space, dummies := q.dummies }
  relocked : p.space.Relocked q.space
  mem_locked : ∀ page, page ∈ q.space.locked → page ∈ p.space.locked
  mem_locked_of_not_mem : ∀ page, page ∈ p.space.locked →
    page ∉ Memory.AddressSpace.touched address bytes.toNat → page ∈ q.space.locked
  registration?_eq : ∀ index other, (q.dummy index).registration? other =
    if device = .dummy index ∧ other = address then none else (p.dummy index).registration? other

theorem Unregistered.sameSettings (h : device.Unregistered address bytes p q) :
    p.SameSettings q :=
  ⟨q.space, q.dummies, p.accounts, p.strict, p.sinks, p.output, h.rest_eq⟩

/-- Unregistering writes nothing. -/
theorem Unregistered.quiet (h : device.Unregistered address bytes p q) :
    q.output = p.output ∧ q.sinks = p.sinks := by
  rw [h.rest_eq]
  exact ⟨rfl, rfl⟩

theorem unregistered_of_unlockPages {policy : LockPolicy} {result : Except DeviceError Unit}
    (h : p.unlockPages policy address bytes = (result, q)) :
    (host policy).Unregistered address bytes p q := by
  have hsame : (host policy).Unregistered address bytes p p :=
    ⟨rfl, .refl _, fun _ hp => hp, fun _ hp _ => hp, by simp⟩
  have hunlocked : ∀ space, p.space.unlock address bytes.toNat = .ok space →
      (host policy).Unregistered address bytes p { p with space } := by
    intro space hunlock
    have hlocked := Memory.AddressSpace.mem_locked_of_unlock hunlock
    exact ⟨rfl, Memory.AddressSpace.relocked_of_unlock hunlock,
      fun page hp => ((hlocked page).mp hp).1, fun page hp ht => (hlocked page).mpr ⟨hp, ht⟩,
      fun _ _ => by simp [Process.dummy]⟩
  unfold Process.unlockPages at h
  cases policy with
  | disabled =>
    cases h
    exact hsame
  | required | bestEffort =>
    dsimp only at h
    split at h
    case h_1 hunlock =>
      cases h
      exact hunlocked _ hunlock
    case h_2 =>
      cases h
      exact hsame

theorem registration?_of_unregister_ok {d e : DummyDevice}
    (h : d.unregister address bytes = (.ok (), e)) (other : Nat) :
    e.registration? other = if other = address then none else d.registration? other := by
  unfold DummyDevice.unregister at h
  split at h
  case h_1 => cases h
  case h_2 henter =>
    have hregistered := DummyDevice.registered_enter d .unregister
    rw [henter] at hregistered
    rw [← (Prod.mk.inj h).2]
    simp only [DummyDevice.registration?, Table.get?_erase, ← hregistered]

theorem unregistered_of_unregister (h : device.unregister p address bytes = (.ok (), q)) :
    device.Unregistered address bytes p q := by
  cases device with
  | host policy => exact unregistered_of_unlockPages h
  | dummy index =>
    unfold unregister at h
    cases hd : (p.dummy index).unregister address bytes with
    | mk result d =>
      simp only [hd] at h
      cases h
      refine ⟨rfl, .refl _, fun _ hp => hp, fun _ hp _ => hp, fun other place => ?_⟩
      have hregistration := registration?_of_unregister_ok hd place
      rw [Process.dummy_modifyDummy]
      by_cases hother : index = other
      · subst hother
        by_cases hlt : index < p.dummies.length
        · simp [hlt, hregistration]
        · -- a dummy that is not there has no registrations
          have hnone : (p.dummy index).registration? place = none := by
            simp only [Process.dummy, List.getElem?_eq_none (Nat.not_lt.mp hlt)]
            rfl
          simp [hlt, hnone]
      · simp [hother]

end Device
end StagingMemory
