import StagingMemory.Proofs.Effects
/-!
The calls of a dummy, made directly. Whatever calls were made to it and whatever it was told to fail
before, a call that fails leaves nothing but its record, with one exception: unregistering an
address with another length than the one it is registered with fails and forgets the registration as
well. So the latest registration of an address stands until the next call that unregisters the
address and is not made to fail, whether or not that call succeeds. Main statement:
`DummyDevice.calls_exact`.
-/
namespace StagingMemory

namespace Process

variable {p : Process} {index : Nat}

/-- A dummy is changed by what it is. -/
theorem modifyDummy_dummy (p : Process) (index : Nat) (f : DummyDevice → DummyDevice) :
    (p.modifyDummy index fun _ => f (p.dummy index)) = p.modifyDummy index f := by
  have hmodify :
      p.dummies.modify index (fun _ => f (p.dummy index)) = p.dummies.modify index f := by
    refine List.ext_getElem? fun i => ?_
    rw [List.getElem?_modify, List.getElem?_modify]
    by_cases hi : index = i
    · subst hi
      cases hd : p.dummies[index]? <;> simp [dummy, hd]
    · simp [hi]
  simp only [modifyDummy, hmodify]

theorem dummy_modifyDummy_self (h : index < p.dummies.length) (f : DummyDevice → DummyDevice) :
    (p.modifyDummy index f).dummy index = f (p.dummy index) := by
  rw [← modifyDummy_dummy, dummy_modifyDummy, if_pos ⟨rfl, h⟩]

end Process

namespace DummyDevice

inductive Request where
  | allocate (bytes : UInt64)
  | free (address : Nat) (bytes : UInt64)
  | register (address : Nat) (bytes : UInt64) (flags : RegisterFlags)
  | unregister (address : Nat) (bytes : UInt64)
  | memoryInfo
  deriving DecidableEq

inductive Answer where
  | address (place : Nat)
  | done
  | memory (info : MemoryInfo)
  deriving DecidableEq

namespace Request

def call : Request → DeviceCall
  | allocate _ => .allocate
  | free _ _ => .free
  | register _ _ _ => .register
  | unregister _ _ => .unregister
  | memoryInfo => .memoryInfo

def serve (index : Nat) (p : Process) : Request → Outcome (Except DeviceError Answer) × Process
  | allocate bytes =>
    let (outcome, q) := (Device.dummy index).allocate p bytes
    (outcome.map (Except.map .address), q)
  | free address bytes =>
    let (result, q) := (Device.dummy index).free p address bytes
    (.returned (result.map fun _ => .done), q)
  | register address bytes flags =>
    let (outcome, q) := (Device.dummy index).register p address bytes flags
    (outcome.map (Except.map fun _ => .done), q)
  | unregister address bytes =>
    let (result, q) := (Device.dummy index).unregister p address bytes
    (.returned (result.map fun _ => .done), q)
  | memoryInfo =>
    let (result, q) := (Device.dummy index).memoryInfo p
    (.returned (result.map .memory), q)

end Request

/-- Everything that a call does. -/
inductive Served (index : Nat) (p : Process) : Request → Except DeviceError Answer → Process → Prop
  | injected {r : Request} (h : r.call ∈ (p.dummy index).failing) :
      Served index p r (.error (.injected r.call)) (p.modifyDummy index (·.record r.call))
  | allocated {bytes : UInt64} {address : Nat} {space : Memory.AddressSpace}
      (h : .allocate ∉ (p.dummy index).failing)
      (hgrow : p.space.grow? bytes.toNat = some (address, space)) :
      Served index p (.allocate bytes) (.ok (.address address))
        { p.modifyDummy index (·.record .allocate) with space }
  | noRoom {bytes : UInt64} (h : .allocate ∉ (p.dummy index).failing) :
      Served index p (.allocate bytes) (.error (.outOfMemory bytes))
        (p.modifyDummy index (·.record .allocate))
  | freed {address : Nat} {bytes : UInt64} (h : .free ∉ (p.dummy index).failing) :
      Served index p (.free address bytes) (.ok .done)
        { p.modifyDummy index (·.record .free) with
          space := p.space.release address bytes.toNat }
  | tooLong {address : Nat} {bytes : UInt64} (h : .free ∉ (p.dummy index).failing) :
      Served index p (.free address bytes) (.error (.outOfMemory bytes))
        (p.modifyDummy index (·.record .free))
  | registered {address : Nat} {bytes : UInt64} {flags : RegisterFlags}
      (h : .register ∉ (p.dummy index).failing) :
      Served index p (.register address bytes flags) (.ok .done)
        (p.modifyDummy index fun d =>
          { d.record .register with registered := d.registered.insert address (bytes, flags) })
  | unregistered {address : Nat} {bytes : UInt64} {flags : RegisterFlags}
      (h : .unregister ∉ (p.dummy index).failing)
      (hknown : (p.dummy index).registration? address = some (bytes, flags)) :
      Served index p (.unregister address bytes) (.ok .done)
        (p.modifyDummy index fun d =>
          { d.record .unregister with registered := d.registered.erase address })
  | unknown {address : Nat} {bytes : UInt64} (h : .unregister ∉ (p.dummy index).failing)
      (hknown : (p.dummy index).registration? address = none) :
      Served index p (.unregister address bytes) (.error .notRegistered)
        (p.modifyDummy index (·.record .unregister))
  | differs {address : Nat} {bytes length : UInt64} {flags : RegisterFlags}
      (h : .unregister ∉ (p.dummy index).failing)
      (hknown : (p.dummy index).registration? address = some (length, flags))
      (hne : length ≠ bytes) :
      Served index p (.unregister address bytes) (.error .notRegistered)
        (p.modifyDummy index fun d =>
          { d.record .unregister with registered := d.registered.erase address })
  | told (h : .memoryInfo ∉ (p.dummy index).failing) :
      Served index p .memoryInfo (.ok (.memory (p.dummy index).memory))
        (p.modifyDummy index (·.record .memoryInfo))

variable {index : Nat} {p q : Process}

theorem enter_of_failing {d : DummyDevice} {call : DeviceCall} (h : call ∈ d.failing) :
    d.enter call = (.error (.injected call), d.record call) := by
  rw [enter, if_pos h]

theorem enter_of_not_failing {d : DummyDevice} {call : DeviceCall} (h : call ∉ d.failing) :
    d.enter call = (.ok (), d.record call) := by
  rw [enter, if_neg h]

theorem serve_injected (r : Request) (h : r.call ∈ (p.dummy index).failing) :
    r.serve index p =
      (.returned (.error (.injected r.call)), p.modifyDummy index (·.record r.call)) := by
  have henter := enter_of_failing h
  rw [← Process.modifyDummy_dummy p index (·.record r.call)]
  cases r <;> simp only [Request.call] at henter <;>
    simp only [Request.serve, Request.call, Device.allocate, Device.free, Device.register,
      Device.unregister, Device.memoryInfo, Process.dummyAllocate, Process.dummyFree, register,
      unregister, memoryInfo, henter] <;> rfl

theorem served (r : Request) (p : Process) (index : Nat) :
    ∃ result q, r.serve index p = (.returned result, q) ∧ Served index p r result q := by
  by_cases h : r.call ∈ (p.dummy index).failing
  · exact ⟨_, _, serve_injected r h, .injected h⟩
  have henter := enter_of_not_failing h
  cases r with
  | allocate bytes =>
    have hspace : (p.modifyDummy index fun _ => (p.dummy index).record .allocate).space = p.space :=
      rfl
    cases hgrow : p.space.grow? bytes.toNat with
    | none =>
      refine ⟨_, _, ?_, .noRoom h⟩
      rw [← Process.modifyDummy_dummy]
      simp only [Request.call] at henter
      simp only [Request.serve, Device.allocate, Process.dummyAllocate, henter, hspace, hgrow]
      rfl
    | some grown =>
      obtain ⟨address, space⟩ := grown
      refine ⟨_, _, ?_, .allocated h hgrow⟩
      rw [← Process.modifyDummy_dummy]
      simp only [Request.call] at henter
      simp only [Request.serve, Device.allocate, Process.dummyAllocate, henter, hspace, hgrow]
      rfl
  | free address bytes =>
    simp only [Request.call] at henter
    by_cases hlimit : blockLimit < bytes.toNat
    · refine ⟨_, _, ?_, .tooLong h⟩
      rw [← Process.modifyDummy_dummy]
      simp only [Request.serve, Device.free, Process.dummyFree, henter, if_pos hlimit]
      rfl
    · refine ⟨_, _, ?_, .freed h⟩
      rw [← Process.modifyDummy_dummy]
      simp only [Request.serve, Device.free, Process.dummyFree, henter, if_neg hlimit]
      rfl
  | register address bytes flags =>
    refine ⟨_, _, ?_, .registered h⟩
    rw [← Process.modifyDummy_dummy]
    simp only [Request.call] at henter
    simp only [Request.serve, Device.register, register, henter]
    rfl
  | unregister address bytes =>
    simp only [Request.call] at henter
    have hregistered : ((p.dummy index).record .unregister).registered =
        (p.dummy index).registered := rfl
    cases hknown : (p.dummy index).registered.get? address with
    | none =>
      refine ⟨_, _, ?_, .unknown h hknown⟩
      rw [← Process.modifyDummy_dummy]
      simp only [Request.serve, Device.unregister, unregister, henter, hregistered, hknown,
        Table.erase_of_get?_eq_none hknown]
      rfl
    | some range =>
      obtain ⟨length, flags⟩ := range
      by_cases heq : length = bytes
      · subst heq
        refine ⟨_, _, ?_, .unregistered h hknown⟩
        rw [← Process.modifyDummy_dummy]
        simp only [Request.serve, Device.unregister, unregister, henter, hregistered, hknown,
          if_true]
        rfl
      · refine ⟨_, _, ?_, .differs h hknown heq⟩
        rw [← Process.modifyDummy_dummy]
        simp only [Request.serve, Device.unregister, unregister, henter, hregistered, hknown,
          if_neg heq]
        rfl
  | memoryInfo =>
    refine ⟨_, _, ?_, .told h⟩
    rw [← Process.modifyDummy_dummy]
    simp only [Request.call] at henter
    simp only [Request.serve, Device.memoryInfo, memoryInfo, henter]
    rfl

/-! ### What was done so far -/

/-- One thing done with a dummy: a call, with its result, or an order to fail a call, or none. -/
inductive Deed where
  | asked (r : Request) (result : Except DeviceError Answer)
  | told (call : DeviceCall)
  | cleared

/-- A process after things were done with one of its dummies, newest first. Whatever else the
process does leaves the dummy alone. -/
inductive Run (index : Nat) (begun : Process) : List Deed → Process → Prop
  | begin : Run index begun [] begun
  | ask {history : List Deed} {p q : Process} {r : Request} {result : Except DeviceError Answer}
      (h : Run index begun history p) (hserved : r.serve index p = (.returned result, q)) :
      Run index begun (.asked r result :: history) q
  | tell {history : List Deed} {p : Process} (h : Run index begun history p) (call : DeviceCall) :
      Run index begun (.told call :: history) (p.modifyDummy index (·.failOn call))
  | clear {history : List Deed} {p : Process} (h : Run index begun history p) :
      Run index begun (.cleared :: history) (p.modifyDummy index .clearFailures)
  | elsewhere {history : List Deed} {p q : Process} (h : Run index begun history p)
      (hsame : q.dummies[index]? = p.dummies[index]?) : Run index begun history q

/-- The dummy was told to fail the call, and not told since then to fail none. -/
def madeToFail (call : DeviceCall) : List Deed → Bool
  | .told other :: earlier => other = call || madeToFail call earlier
  | .cleared :: _ => false
  | .asked _ _ :: earlier => madeToFail call earlier
  | [] => false

/-- The length of the latest registration of an address that no later unregistering has undone, by
the results that count as undoing. -/
def standing? (undone : Except DeviceError Answer → Bool) (place : Nat) :
    List Deed → Option UInt64
  | .asked (.register address bytes _) (.ok _) :: earlier =>
    if address = place then some bytes else standing? undone place earlier
  | .asked (.unregister address _) result :: earlier =>
    if address = place ∧ undone result = true then none else standing? undone place earlier
  | _ :: earlier => standing? undone place earlier
  | [] => none

def carriedOut : Except DeviceError Answer → Bool
  | .error (.injected _) => false
  | _ => true

/-- What the dummy holds is what was done with it. -/
structure Agrees (index : Nat) (history : List Deed) (p : Process) : Prop where
  known : index < p.dummies.length
  failing_iff : ∀ call, call ∈ (p.dummy index).failing ↔ madeToFail call history = true
  standing_eq : ∀ place,
    ((p.dummy index).registration? place).map Prod.fst = standing? carriedOut place history

theorem standing?_injected (r : Request) (place : Nat) (history : List Deed) :
    standing? carriedOut place (.asked r (.error (.injected r.call)) :: history) =
      standing? carriedOut place history := by
  cases r <;> simp [standing?, carriedOut]

namespace Agrees

variable {history : List Deed} {f : DummyDevice → DummyDevice}

/-- The dummy is changed by `f`, which leaves alone what fails. -/
theorem modify (h : Agrees index history p) (hq : q.dummies = (p.modifyDummy index f).dummies)
    {deed : Deed} (hfailing : ∀ call, call ∈ (f (p.dummy index)).failing ↔
      madeToFail call (deed :: history) = true)
    (hstanding : ∀ place, ((f (p.dummy index)).registration? place).map Prod.fst =
      standing? carriedOut place (deed :: history)) : Agrees index (deed :: history) q := by
  have hdummy : q.dummy index = f (p.dummy index) := by
    rw [← Process.dummy_modifyDummy_self h.known f]
    simp only [Process.dummy, hq]
  refine ⟨?_, ?_, ?_⟩
  · rw [hq]
    simpa only [Process.modifyDummy, List.length_modify] using h.known
  · rw [hdummy]
    exact hfailing
  · rw [hdummy]
    exact hstanding

/-- The call is recorded, and nothing else about the dummy changes. -/
theorem recorded (h : Agrees index history p) {r : Request} {result : Except DeviceError Answer}
    (hq : q.dummies = (p.modifyDummy index (·.record r.call)).dummies)
    (hstanding : ∀ place, standing? carriedOut place (.asked r result :: history) =
      standing? carriedOut place history) : Agrees index (.asked r result :: history) q := by
  refine h.modify hq h.failing_iff fun place => ?_
  rw [hstanding]
  exact h.standing_eq place

theorem ask (h : Agrees index history p) {r : Request} {result : Except DeviceError Answer}
    (hserved : Served index p r result q) : Agrees index (.asked r result :: history) q := by
  cases hserved with
  | injected => exact h.recorded rfl fun place => standing?_injected r place history
  | allocated | noRoom | freed | tooLong | told => exact h.recorded rfl fun _ => rfl
  | @registered address bytes flags _ =>
    refine h.modify rfl h.failing_iff fun place => ?_
    simp only [registration?, Table.get?_insert, standing?]
    by_cases hplace : place = address
    · simp [hplace]
    · rw [if_neg hplace, if_neg (Ne.symm hplace)]
      exact h.standing_eq place
  | @unregistered address _ _ _ _ | @differs address _ _ _ _ _ _ =>
    refine h.modify rfl h.failing_iff fun place => ?_
    simp only [registration?, Table.get?_erase, standing?, carriedOut, and_true]
    by_cases hplace : place = address
    · simp [hplace]
    · rw [if_neg hplace, if_neg (Ne.symm hplace)]
      exact h.standing_eq place
  | @unknown address _ _ hknown =>
    refine h.modify rfl h.failing_iff fun place => ?_
    simp only [standing?, carriedOut, and_true]
    split
    case isTrue heq =>
      subst heq
      exact congrArg (Option.map Prod.fst) hknown
    case isFalse => exact h.standing_eq place

theorem tell (h : Agrees index history p) (call : DeviceCall) :
    Agrees index (.told call :: history) (p.modifyDummy index (·.failOn call)) := by
  refine h.modify rfl (fun other => ?_) h.standing_eq
  simp only [failOn, List.mem_cons, h.failing_iff, madeToFail, Bool.or_eq_true, decide_eq_true_eq]
  rw [eq_comm]

theorem clear (h : Agrees index history p) :
    Agrees index (.cleared :: history) (p.modifyDummy index .clearFailures) := by
  refine h.modify rfl (fun other => ?_) h.standing_eq
  simp [clearFailures, madeToFail]

theorem elsewhere (h : Agrees index history p) (hsame : q.dummies[index]? = p.dummies[index]?) :
    Agrees index history q := by
  have hdummy : q.dummy index = p.dummy index := by
    simp only [Process.dummy, hsame]
  refine ⟨?_, by rw [hdummy]; exact h.failing_iff, by rw [hdummy]; exact h.standing_eq⟩
  have hdevice := hsame.trans (List.getElem?_eq_getElem h.known)
  exact (List.getElem?_eq_some_iff.mp hdevice).1

end Agrees

variable {begun : Process} {memory : MemoryInfo} {history : List Deed}

theorem Run.agrees (h : Run index begun history p)
    (hfresh : begun.dummies[index]? = some (.withMemory memory)) : Agrees index history p := by
  induction h with
  | begin =>
    have hdummy : begun.dummy index = .withMemory memory := by
      simp only [Process.dummy, hfresh, Option.getD_some]
    refine ⟨(List.getElem?_eq_some_iff.mp hfresh).1, ?_, ?_⟩
    · rw [hdummy]
      simp [withMemory, madeToFail]
    · rw [hdummy]
      exact fun _ => rfl
  | @ask _ p _ r _ _ hserved ih =>
    obtain ⟨result, q, hserve, hserved'⟩ := served r p index
    rw [hserve] at hserved
    cases hserved
    exact ih.ask hserved'
  | tell _ call ih => exact ih.tell call
  | clear _ ih => exact ih.clear
  | elsewhere _ hsame ih => exact ih.elsewhere hsame

/-! ### What a failing call leaves -/

/-- The address whose registration a call makes the dummy forget although the call fails: the one
that is unregistered with another length than it is registered with. -/
def forgotten? (d : DummyDevice) : Request → Option Nat
  | .unregister address bytes =>
    match d.registration? address with
    | some (length, _) =>
      if .unregister ∉ d.failing ∧ length ≠ bytes then some address else none
    | none => none
  | _ => none

/-- What a failing call leaves: the dummy has recorded it, and has the registrations it had but for
one that it forgot. -/
structure Failed (index : Nat) (p : Process) (r : Request) (forgot? : Option Nat) (q : Process) :
    Prop where
  eq : q = p.modifyDummy index fun d => { d.record r.call with
    registered := (forgot?.map d.registered.erase).getD d.registered }
  space_eq : q.space = p.space
  calls_eq : ∀ call, (q.dummy index).calls call =
    (p.dummy index).calls call + if r.call = call then 1 else 0
  registration?_eq : ∀ place, (q.dummy index).registration? place =
    if forgot? = some place then none else (p.dummy index).registration? place

theorem failed_of_eq (hknown : index < p.dummies.length) {r : Request} {forgot? : Option Nat}
    (hq : q = p.modifyDummy index fun d => { d.record r.call with
      registered := (forgot?.map d.registered.erase).getD d.registered }) :
    Failed index p r forgot? q := by
  have hdummy := Process.dummy_modifyDummy_self hknown fun d => { d.record r.call with
    registered := (forgot?.map d.registered.erase).getD d.registered }
  rw [← hq] at hdummy
  refine ⟨hq, by rw [hq]; rfl, fun call => ?_, fun place => ?_⟩
  · rw [hdummy]
    exact calls_record _ _ _
  · rw [hdummy]
    cases forgot? with
    | none => rfl
    | some address =>
      simp only [registration?, Option.map_some, Option.getD_some, Table.get?_erase,
        Option.some.injEq, eq_comm]

theorem failed_of_served (hknown : index < p.dummies.length) {r : Request} {error : DeviceError}
    (h : Served index p r (.error error) q) :
    Failed index p r (forgotten? (p.dummy index) r) q := by
  refine failed_of_eq hknown ?_
  cases h with
  | injected hfails =>
    have hnone : forgotten? (p.dummy index) r = none := by
      unfold forgotten?
      split
      case h_1 =>
        split
        · rw [if_neg fun hcarried => hcarried.1 hfails]
        · rfl
      case h_2 => rfl
    rw [hnone]
    rfl
  | noRoom | tooLong => rfl
  | unknown _ hunknown => simp only [forgotten?, hunknown]; rfl
  | differs hcarried hother hne =>
    simp only [forgotten?, hother, if_pos (And.intro hcarried hne)]
    rfl

/-- **The calls of a dummy.** Whatever was done with it before, every call is answered, and one that
fails leaves nothing but its record, unless it unregisters an address with another length than the
one it is registered with: that registration is forgotten. So unregistering succeeds exactly if it
is not made to fail and the latest registration of the address, which no unregistering since then
that was carried out has undone, has the length. -/
theorem calls_exact (hfresh : begun.dummies[index]? = some (.withMemory memory))
    (hrun : Run index begun history p) :
    (∀ r, ∃ result q, Request.serve index p r = (.returned result, q) ∧
      ∀ error, result = .error error → Failed index p r (forgotten? (p.dummy index) r) q) ∧
    ∀ address bytes,
      (∃ q, Request.serve index p (.unregister address bytes) = (.returned (.ok .done), q)) ↔
        madeToFail .unregister history = false ∧
          standing? carriedOut address history = some bytes := by
  have hagrees := hrun.agrees hfresh
  refine ⟨fun r => ?_, fun address bytes => ?_⟩
  · obtain ⟨result, q, hserve, hserved⟩ := served r p index
    refine ⟨result, q, hserve, ?_⟩
    rintro error rfl
    exact failed_of_served hagrees.known hserved
  · obtain ⟨result, q, hserve, hserved⟩ := served (.unregister address bytes) p index
    have hfails := hagrees.failing_iff .unregister
    rw [← Bool.not_eq_true, ← hfails, ← hagrees.standing_eq, hserve]
    cases hserved with
    | injected h => simp [show DeviceCall.unregister ∈ (p.dummy index).failing from h]
    | unregistered h hknown => simp [h, hknown]
    | unknown h hknown => simp [hknown]
    | differs h hknown hne => simp [hknown, hne]

def fixture : Process := ((Process.fresh 1).addDummy standardMemory).2

/-- An address is registered, registered again with twice the length, and unregistered by a call
that is made to fail. -/
def stubborn : List Deed :=
  [.cleared, .asked (.unregister 4096 8192) (.error (.injected .unregister)), .told .unregister,
    .asked (.register 4096 8192 .portable) (.ok .done),
    .asked (.register 4096 4096 .standard) (.ok .done)]

/-- Only its latest length is taken then. -/
theorem calls_exact_stubborn : ∃ p, Run 0 fixture stubborn p ∧ ∀ bytes,
    (∃ q, Request.serve 0 p (.unregister 4096 bytes) = (.returned (.ok .done), q)) ↔
      bytes = 8192 := by
  have hrun : ∃ p, Run 0 fixture stubborn p :=
    ⟨_, .clear (.ask (.tell (.ask (.ask .begin rfl) rfl) _) rfl)⟩
  obtain ⟨p, hrun⟩ := hrun
  refine ⟨p, hrun, fun bytes => ?_⟩
  have hfresh : fixture.dummies[0]? = some (.withMemory standardMemory) := rfl
  have hexact := (calls_exact hfresh hrun).2 4096 bytes
  have hfails : madeToFail .unregister stubborn = false := rfl
  have hstands : standing? carriedOut 4096 stubborn = some 8192 := rfl
  rw [hexact, hfails, hstands, Option.some.injEq]
  exact ⟨fun h => h.2.symm, fun h => ⟨rfl, h.symm⟩⟩

/-- A call that fails can undo a registration: after an unregistering with another length, which is
refused, the registration is gone, and one with the right length is refused as well, although none
has succeeded. -/
theorem refused_call_forgets : ∃ p q u : Process,
    Run 0 fixture [.asked (.register 4096 4096 .standard) (.ok .done)] p ∧
    Request.serve 0 p (.unregister 4096 8192) = (.returned (.error .notRegistered), q) ∧
    (p.dummy 0).registration? 4096 = some (4096, .standard) ∧
    (q.dummy 0).registration? 4096 = none ∧
    madeToFail .unregister [.asked (.unregister 4096 8192) (.error .notRegistered),
      .asked (.register 4096 4096 .standard) (.ok .done)] = false ∧
    standing? Except.isOk 4096 [.asked (.unregister 4096 8192) (.error .notRegistered),
      .asked (.register 4096 4096 .standard) (.ok .done)] = some 4096 ∧
    Request.serve 0 q (.unregister 4096 4096) = (.returned (.error .notRegistered), u) :=
  ⟨_, _, _, .ask .begin rfl, rfl, rfl, rfl, rfl, rfl, rfl⟩

end DummyDevice

end StagingMemory
