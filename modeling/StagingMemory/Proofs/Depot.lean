import Mathlib.Algebra.BigOperators.Group.Finset.Basic
import StagingMemory.Proofs.Interchange
/-!
One process with its requests to resources on dummies, pinned and shared, any number at a time. A
dummy finds a registration by its address alone, and an address may be handed out again once its
pages are unmapped. What carries the proofs is that a registered range lies in a mapping that is in
place, and that no page is in use twice; so each address is registered for one request at most. Main
statement: no step breaks this, and the registrations are those of the requests (`Depot.Sound.run`).
-/
namespace StagingMemory

/-! ### What one step does to the dummies -/

/-- What a step does to the dummies, and to the range that its slot has registered with one of them:
nothing, or it makes one call, which may register or unregister the range. -/
inductive Process.Dials (p : Process) (index : Nat) :
    Option DeviceCall → Option Block → Option Block → Process → Prop
  | silent {q : Process} {held : Option Block} (h : q.dummies = p.dummies) :
      Dials p index none held held q
  | told {q : Process} {held : Option Block} (call : DeviceCall)
      (h : q.dummies =
        (p.modifyDummy index fun _ => (p.dummy index).record call).dummies) :
      Dials p index (some call) held held q
  | entered {q : Process} (block : Block)
      (h : q.dummies = (p.modifyDummy index fun _ =>
        { (p.dummy index).record .register with
          registered := (p.dummy index).registered.insert block.address
            (block.bytes, .portable) }).dummies) :
      Dials p index (some .register) none (some block) q
  | erased {q : Process} (block : Block)
      (h : q.dummies = (p.modifyDummy index fun _ =>
        { (p.dummy index).record .unregister with
          registered := (p.dummy index).registered.erase block.address }).dummies) :
      Dials p index (some .unregister) (some block) none q

namespace Process

variable {p q : Process} {index other address : Nat} {d : DummyDevice}

theorem dummy_of_dummies_eq (h : q.dummies = (p.modifyDummy index fun _ => d).dummies)
    (hindex : index < p.dummies.length) (other : Nat) :
    q.dummy other = if other = index then d else p.dummy other := by
  have hsame : q.dummy other = (p.modifyDummy index fun _ => d).dummy other := by
    rw [dummy, h, dummy]
  rw [hsame, p.dummy_modifyDummy index other d]
  by_cases hother : other = index
  · subst hother
    simp [hindex]
  · simp [hother, Ne.symm hother]

/-- One range was registered with one dummy, and nothing else. -/
theorem registration?_of_insert (h : q.dummies = (p.modifyDummy index fun _ => d).dummies)
    (hindex : index < p.dummies.length) {block : Block} (hinsert : d.registered =
      (p.dummy index).registered.insert block.address (block.bytes, .portable)) :
    (q.dummy other).registration? address =
      if other = index ∧ address = block.address then some (block.bytes, .portable)
      else (p.dummy other).registration? address := by
  rw [dummy_of_dummies_eq h hindex]
  by_cases hother : other = index
  · subst hother
    simp only [↓reduceIte, true_and, DummyDevice.registration?, hinsert]
    exact Table.get?_insert ..
  · simp [hother]

theorem registration?_of_erase (h : q.dummies = (p.modifyDummy index fun _ => d).dummies)
    (hindex : index < p.dummies.length) {block : Block}
    (herase : d.registered = (p.dummy index).registered.erase block.address) :
    (q.dummy other).registration? address =
      if other = index ∧ address = block.address then none
      else (p.dummy other).registration? address := by
  rw [dummy_of_dummies_eq h hindex]
  by_cases hother : other = index
  · subst hother
    simp only [↓reduceIte, true_and, DummyDevice.registration?, herase]
    exact Table.get?_erase ..
  · simp [hother]

namespace Dials

variable {call? : Option DeviceCall} {before after : Option Block}

theorem length_eq (h : p.Dials index call? before after q) :
    q.dummies.length = p.dummies.length := by
  cases h with
  | silent h => rw [h]
  | told _ h | entered _ h | erased _ h =>
    rw [h]
    exact List.length_modify ..

theorem failing_eq (h : p.Dials index call? before after q) (hindex : index < p.dummies.length)
    (other : Nat) : (q.dummy other).failing = (p.dummy other).failing := by
  cases h with
  | silent h => rw [dummy, h, dummy]
  | told _ h | entered _ h | erased _ h =>
    rw [dummy_of_dummies_eq h hindex]
    split
    case isTrue hother =>
      subst hother
      rfl
    case isFalse => rfl

/-- The dummy puts the call on record. -/
theorem history_eq (h : p.Dials index call? before after q) (hindex : index < p.dummies.length)
    (other : Nat) :
    (q.dummy other).history =
      (if other = index then call? else none).toList ++ (p.dummy other).history := by
  cases h with
  | silent h => simp [dummy, h]
  | told _ h | entered _ h | erased _ h =>
    rw [dummy_of_dummies_eq h hindex]
    split
    case isTrue hother =>
      subst hother
      rfl
    case isFalse => rfl

end Dials

end Process

namespace DummyDevice

/-- A registered range can be unregistered with its own length. -/
theorem unregister_of_registered {d : DummyDevice} {address : Nat} {bytes : UInt64}
    {flags : RegisterFlags} (hregistered : d.registration? address = some (bytes, flags))
    (hanswers : .unregister ∉ d.failing) :
    d.unregister address bytes = (.ok (),
      { d.record .unregister with registered := d.registered.erase address }) := by
  have hget : d.registered.get? address = some (bytes, flags) := hregistered
  simp [unregister, enter, record, hanswers, hget]

/-- Registering either succeeds or leaves nothing but its record. -/
theorem register_cases (d : DummyDevice) (address : Nat) (bytes : UInt64) (flags : RegisterFlags) :
    d.register address bytes flags = (.ok (), { d.record .register with
        registered := d.registered.insert address (bytes, flags) }) ∨
      ∃ e, d.register address bytes flags = (.error e, d.record .register) := by
  by_cases hfails : .register ∈ d.failing
  · exact Or.inr ⟨.injected .register, by simp [register, enter, hfails]⟩
  · exact Or.inl (by simp [register, enter, record, hfails])

end DummyDevice

/-- Counting what the device handed out does not abort, and hands on the same block. -/
theorem Pinned.allocated_spec {r : Pinned} {bytes : UInt64} {result : Except DeviceError Nat}
    {p q : Process} {o : Outcome (Except AllocationError Block)}
    (h : r.allocated bytes result p = (o, q)) :
    p.Booked q ∧ o ≠ .aborted ∧
      ∀ block, o = .returned (.ok block) → result = .ok block.address ∧ block.bytes = bytes := by
  unfold allocated at h
  cases result with
  | error e =>
    cases h
    exact ⟨p.booked_modifyAccount _ _, by simp, by simp⟩
  | ok address =>
    cases hrecorded : p.recordAllocation r.account bytes with
    | mk recorded counted =>
      have hbooked : p.Booked counted := by
        rw [Process.recordAllocation] at hrecorded
        cases hrecorded
        exact p.booked_modifyAccount _ _
      have hne : recorded ≠ .aborted := by
        have hfirst : (Gauge.add (p.account r.account).bytes bytes).1 = recorded :=
          congrArg Prod.fst hrecorded
        rw [← hfirst, Gauge.add]
        split <;> simp
      cases recorded with
      | aborted => exact absurd rfl hne
      | returned _ =>
        simp only [hrecorded] at h
        cases h
        refine ⟨hbooked.trans (counted.wrote_trace _).booked, by simp, fun block hblock => ?_⟩
        cases hblock
        exact ⟨rfl, rfl⟩
      | faulted fault =>
        simp only [hrecorded] at h
        cases h
        exact ⟨hbooked, by simp, by simp⟩

/-! ### What a call has registered -/

namespace Attach

def registered? (a : Attach) : Phase → Option Block
  | .publishBytes m | .publishJoined m | .publishLive m | .publishState m | .finish m =>
    some ⟨m.payload, a.bytes⟩
  | _ => none

def deviceCall? : Phase → Option DeviceCall
  | .register _ => some .register
  | _ => none

def finishes : Phase → Bool
  | .finish _ => true
  | _ => false

def Roomy (a : Attach) (s : Site) (phase : Phase) : Prop :=
  finishes phase = true → a.Fits s.process

instance (a : Attach) (s : Site) (phase : Phase) : Decidable (a.Roomy s phase) :=
  inferInstanceAs (Decidable (finishes phase = true → a.Fits s.process))

def Returns : Phase → Prop
  | .undo _ ending => ending ≠ .aborted
  | _ => True

end Attach

namespace Detach

def registered? (d : Detach) : Phase → Option Block
  | .unregister => some d.block
  | _ => none

def deviceCall? : Phase → Option DeviceCall
  | .unregister => some .unregister
  | _ => none

end Detach

namespace Call

def device : Call → Device
  | attach a _ => a.device
  | detach d _ => d.device

def registered? : Call → Option Block
  | attach a phase => a.registered? phase
  | detach d phase => d.registered? phase

def deviceCall? : Call → Option DeviceCall
  | attach _ phase => Attach.deviceCall? phase
  | detach _ phase => Detach.deviceCall? phase

def Roomy (s : Site) : Call → Prop
  | attach a phase => a.Roomy s phase
  | detach _ _ => True

instance (s : Site) : (c : Call) → Decidable (c.Roomy s)
  | attach a phase => inferInstanceAs (Decidable (a.Roomy s phase))
  | detach _ _ => inferInstanceAs (Decidable True)

def Returns : Call → Prop
  | attach _ phase => Attach.Returns phase
  | detach _ _ => True

end Call

def Stage.registered? : Stage → Option Block
  | calling c => c.registered?
  | holding block => some block
  | _ => none

namespace Attach.Transition

variable {a : Attach} {phase : Phase} {s t : Site} {progress : Progress Phase Result} {index : Nat}

/-- A step of an allocation makes no call to its dummy but the one that registers the block. -/
theorem dials (h : Transition a phase s progress t) (hdevice : a.device = .dummy index)
    (hroomy : a.Roomy s phase) :
    s.process.Dials index (deviceCall? phase) (a.registered? phase)
      (Stage.after (progress.map (.attach a) .ofResult)).registered? t.process := by
  have hregister : ∀ m : Mapping, a.device.register s.process m.payload a.bytes .portable =
      (.returned ((s.process.dummy index).register m.payload a.bytes .portable).1,
        s.process.modifyDummy index fun _ =>
          ((s.process.dummy index).register m.payload a.bytes .portable).2) := by
    intro m
    rw [hdevice]
    rfl
  cases h with
  | leftoverMapped h | mapped h | foundMapped h =>
    exact .silent (by rw [(Site.mapped_of_mapSegment h).2.2.1])
  | leftoverReported h | leftoverFatal h => exact .silent (Process.wrote_of_emit h).dummies_eq
  | created h => exact .silent (by rw [(Site.created_of_createSegment h).2])
  | resized h => exact .silent (by rw [Site.of_resizeSegment h])
  | undoneError | undoneFault | undoneAbort =>
    refine .silent ?_
    unfold undone
    split <;> rfl
  | @registered _ m p h =>
    rcases (s.process.dummy index).register_cases m.payload a.bytes .portable with hd | ⟨e, hd⟩
    · rw [hregister m, hd] at h
      cases h
      cases a.config.isLeader <;> exact .entered ⟨m.payload, a.bytes⟩ rfl
    · rw [hregister m, hd] at h
      cases h
  | @unregistered _ m p e h =>
    rcases (s.process.dummy index).register_cases m.payload a.bytes .portable with hd | ⟨e, hd⟩
    · rw [hregister m, hd] at h
      cases h
    · rw [hregister m, hd] at h
      cases h
      exact .told .register rfl
  | @registerFatal _ m p fault h =>
    rw [hregister m] at h
    cases h
  | finished h =>
    obtain ⟨hbooked, ho⟩ := succeeded_spec h
    have hroom : (s.process.account a.account).bytes.current.toNat + a.bytes.toNat < UInt64.size :=
      hroomy rfl
    rw [if_pos hroom] at ho
    subst ho
    exact .silent hbooked.dummies_eq
  | failed h =>
    obtain ⟨hbooked, ho⟩ := failed_spec h
    rcases ho with rfl | ⟨_, _, _, rfl⟩ <;> exact .silent hbooked.dummies_eq
  | _ => exact .silent rfl

/-- The step goes on or ends; it does not abort the process. -/
theorem returns (h : Transition a phase s progress t) (hreturns : Returns phase) :
    Stage.after (progress.map (.attach a) .ofResult) ≠ .halted ∧
      ∀ next, progress = .running next → Returns next := by
  cases h with
  | undoneAbort => exact absurd rfl hreturns
  | unregistered | registerFatal =>
    refine ⟨by simp [Stage.after], fun next hnext => ?_⟩
    cases hnext
    simp [Returns]
  | finished h =>
    have ho := (succeeded_spec h).2
    split at ho <;> subst ho <;> exact ⟨by simp [Stage.after, Reply.ofResult], by simp⟩
  | failed h =>
    rcases (failed_spec h).2 with rfl | ⟨_, _, _, rfl⟩ <;>
      exact ⟨by simp [Stage.after, Reply.ofResult], by simp⟩
  | leftoverFatal | undoneFault => exact ⟨by simp [Stage.after], by simp⟩
  | registered =>
    refine ⟨by simp [Stage.after], fun next hnext => ?_⟩
    split at hnext <;> cases hnext <;> trivial
  | _ =>
    refine ⟨by simp [Stage.after], fun next hnext => ?_⟩
    cases hnext
    trivial

end Attach.Transition

namespace Detach.Transition

variable {d : Detach} {phase : Phase} {s t : Site} {progress : Progress Phase Unit} {index : Nat}

/-- A step of a release makes no call to its dummy but the one that unregisters the block, and does
not abort the process if the block is registered there and its mapping is in place. -/
theorem dials (h : Transition d phase s progress t) (hdevice : d.device = .dummy index)
    (hanswers : .unregister ∉ (s.process.dummy index).failing)
    (hregistered : phase = .unregister →
      (s.process.dummy index).registration? d.block.address = some (d.block.bytes, .portable))
    (hmapped : phase = .unregister → ∃ m, s.mappingOf? d.block = some m) :
    s.process.Dials index (deviceCall? phase) (d.registered? phase)
        (Stage.after (progress.map (.detach d) fun _ => .released)).registered? t.process ∧
      Stage.after (progress.map (.detach d) fun _ => .released) ≠ .halted := by
  have hunregister : phase = .unregister →
      d.device.unregister s.process d.block.address d.block.bytes =
        (.ok (), s.process.modifyDummy index fun _ =>
          { (s.process.dummy index).record .unregister with
            registered := (s.process.dummy index).registered.erase d.block.address }) := by
    intro hphase
    rw [hdevice, Device.unregister,
      DummyDevice.unregister_of_registered (hregistered hphase) hanswers]
  cases h with
  | refused h =>
    rw [hunregister rfl] at h
    cases h
  | @lost _ p h hm =>
    obtain ⟨m, hm'⟩ := hmapped rfl
    have hsame := Site.mappingOf?_relocked (s := s) (t := ⟨s.kernel, p⟩)
      (Device.kept_of_unregister h).relocked d.block
    rw [hm, hm'] at hsame
    cases hsame
  | unregistered h =>
    rw [hunregister rfl] at h
    cases h
    cases d.config.isLeader <;> exact ⟨.erased d.block rfl, by simp [Stage.after]⟩
  | @closed _ _ _ _ o p h =>
    obtain ⟨-, hbooked, hne⟩ := closed_spec h
    cases o with
    | aborted => exact absurd rfl hne
    | returned | faulted => exact ⟨.silent hbooked.dummies_eq, by simp [Stage.after]⟩
  | overflowed => exact ⟨.silent rfl, by simp [Stage.after]⟩
  | _ => exact ⟨.silent rfl, by simp [Stage.after]⟩

end Detach.Transition

/-! ### Pages in use -/

namespace Memory.AddressSpace

def Occupied (a : AddressSpace) (page : Nat) : Prop := (a.page? page).isSome

theorem Occupied.lt_nextPage {a : AddressSpace} {page : Nat} (h : a.Occupied page) :
    page < a.nextPage := by
  by_contra hle
  rw [Occupied, page?_eq_none_of_le (Nat.not_lt.mp hle)] at h
  cases h

/-- What a step does to the pages its slot uses: it leaves those of all others alone, and new ones
were not mapped before. -/
structure Claims (a : AddressSpace) (before after : Option Span) (b : AddressSpace) : Prop where
  page?_eq : ∀ page, a.Occupied page → (∀ span, before = some span → page ∉ span) →
    b.page? page = a.page? page
  fresh : ∀ span, after = some span → ∀ page ∈ span, a.Occupied page →
    ∃ old, before = some old ∧ page ∈ old

namespace Claims

variable {a b : AddressSpace} {span? : Option Span}

theorem refl (a : AddressSpace) (span? : Option Span) : a.Claims span? span? a :=
  ⟨fun _ _ _ => rfl, fun span hspan _ hp _ => ⟨span, hspan, hp⟩⟩

end Claims

/-- Fresh memory of the process's own, which nobody need hold afterwards. -/
theorem mapped_of_grow? {a b : AddressSpace} {length address : Nat} (hpos : 0 < length)
    (h : a.grow? length = some (address, b)) :
    a.Mapped length (.own a.memories.length) address b := by
  have hmap : a.withMemory.2.map length (.own a.memories.length) = .ok (address, b) := by
    have hplace : a.withMemory.2.place? length (.own a.memories.length) = some (address, b) := h
    rw [map, if_neg (Nat.pos_iff_ne_zero.mp hpos), hplace]
  obtain ⟨h₁, h₂, h₃, h₄, h₅, h₆⟩ := mapped_of_map_eq_ok hmap
  exact ⟨h₁, h₂, h₃, h₄, h₅, h₆⟩

theorem Mapped.claims {a b : AddressSpace} {length base : Nat} {backing : Backing}
    (h : a.Mapped length backing base b) : a.Claims none (some (mappingSpan base length)) b where
  page?_eq page hp _ := by
    rw [h.page?_eq, if_neg fun hmem => Nat.not_le.mpr hp.lt_nextPage (h.le_of_mem hmem)]
  fresh span hspan page hmem hp := by
    cases hspan
    exact absurd (h.le_of_mem hmem) (Nat.not_le.mpr hp.lt_nextPage)

theorem Claims.forget {a b : AddressSpace} {before after : Option Span}
    (h : a.Claims before after b) : a.Claims before none b := ⟨h.page?_eq, by simp⟩

theorem claims_release (a : AddressSpace) (address length : Nat) :
    a.Claims (some (mappingSpan address length)) none (a.release address length) where
  page?_eq page _ hother := by
    rw [page?_release, if_neg (hother _ rfl)]
  fresh := by simp

end Memory.AddressSpace

def Mapping.span (m : Mapping) : Memory.Span := Memory.AddressSpace.mappingSpan m.base m.length

theorem Handles.claims {before after : Option Mapping} {a b : Memory.AddressSpace}
    (h : Handles before a after b) :
    a.Claims (before.map Mapping.span) (after.map Mapping.span) b := by
  cases h with
  | keeps h => exact ⟨fun page _ _ => h.page?_eq page, fun span hspan _ hp _ => ⟨span, hspan, hp⟩⟩
  | drops h => exact ⟨fun page _ _ => h.page?_eq page, by simp⟩
  | maps h => exact h.claims
  | unmaps => exact a.claims_release _ _

theorem Mapping.Placed.occupied {m : Mapping} {a : Memory.AddressSpace} (h : m.Placed a)
    {page : Nat} (hp : page ∈ m.span) : a.Occupied page := by
  rw [Memory.AddressSpace.Occupied, h.page?_eq page hp]
  rfl

/-- A mapping stays in place as long as its pages do. -/
theorem Mapping.Placed.stays {m : Mapping} {a b : Memory.AddressSpace} (h : m.Placed a)
    (hpages : ∀ page ∈ m.span, b.page? page = a.page? page) : m.Placed b where
  aligned := h.aligned
  length_pos := h.length_pos
  page?_eq page hp := (hpages page hp).trans (h.page?_eq page hp)
  lt_nextPage page hp := by
    have hoccupied := h.occupied hp
    rw [Memory.AddressSpace.Occupied, ← hpages page hp] at hoccupied
    exact Memory.AddressSpace.Occupied.lt_nextPage hoccupied

/-! ### The process and its requests -/

/-- Where one request stands: a call in flight or a block outstanding, of the resource that was
asked. -/
structure Slot where
  stage : Stage
  source : Resource

namespace Slot

def mapping? (x : Slot) (s : Site) : Option Mapping :=
  match x.source.kind with
  | .shared => x.stage.mapping? s
  | .pinned => none

def span? (x : Slot) (s : Site) : Option Memory.Span :=
  match x.source.kind with
  | .shared => (x.stage.mapping? s).map Mapping.span
  | .pinned => x.stage.block?.map fun block =>
      Memory.AddressSpace.mappingSpan block.address block.bytes.toNat

def registered? (x : Slot) : Option Block :=
  match x.source.kind with
  | .shared => x.stage.registered?
  | .pinned => none

end Slot

/-- A process on its kernel, and its requests. A resource with several requests at a time has
several slots. -/
structure Depot (ι : Type v) where
  site : Site
  slot : ι → Slot

namespace Depot

/-- What is put on record of a run: requests, and the steps of calls. -/
inductive Event (ι : Type v) where
  | asked (i : ι) (r : Resource) (bytes : UInt64)
  | given (i : ι) (r : Resource) (block : Block)
  | stepped (i : ι) (c : Call)

namespace Event

variable {ι : Type v}

def call? (index : Nat) : Event ι → Option DeviceCall
  | asked _ r bytes =>
    if r.kind = .pinned ∧ r.device = .dummy index ∧ bytes ≠ 0 then some .allocate else none
  | given _ r _ => if r.kind = .pinned ∧ r.device = .dummy index then some .free else none
  | stepped _ c => if c.device = .dummy index then c.deviceCall? else none

end Event

variable {ι : Type v} [DecidableEq ι]

def settle (e : Depot ι) (i : ι) (source : Resource) (result : Progress Call Reply × Site) :
    Depot ι where
  site := result.2
  slot := Function.update e.slot i ⟨.after result.1, source⟩

/-- One step, and the event it was. A block is given back, once and with its own length, to the
resource it came from or to one of the same kind on the same dummy. Failures of a dummy's other calls
are switched on and off at will; a dummy may be added; and the world outside may become any other in
which the pages in use are as they were and the dummies too: in particular addresses that are not in
use may be handed out again. -/
inductive Step (e : Depot ι) : Option (Event ι) → Depot ι → Prop
  | allocate (i : ι) (r : Resource) (bytes : UInt64) (index : Nat)
      (hidle : (e.slot i).stage = .idle) (hdevice : r.device = .dummy index)
      (hindex : index < e.site.process.dummies.length) :
      Step e (some (.asked i r bytes)) (e.settle i r (r.beginAllocate bytes e.site))
  | release (i : ι) (r : Resource) (block : Block) (hholding : (e.slot i).stage = .holding block)
      (hkind : r.kind = (e.slot i).source.kind) (hdevice : r.device = (e.slot i).source.device) :
      Step e (some (.given i r block)) (e.settle i r (r.beginRelease block e.site))
  | access (i : ι) (c : Call) (hcalling : (e.slot i).stage = .calling c) (hroomy : c.Roomy e.site) :
      Step e (some (.stepped i c)) (e.settle i (e.slot i).source (c.step e.site))
  | switch (index : Nat) (failing : List DeviceCall) (hfree : .free ∉ failing)
      (hunregister : .unregister ∉ failing) :
      Step e none { e with site.process := e.site.process.modifyDummy index fun _ =>
        { e.site.process.dummy index with failing } }
  | add (memory : MemoryInfo) :
      Step e none { e with site.process := (e.site.process.addDummy memory).2 }
  | elsewhere (s : Site) (hdummies : s.process.dummies = e.site.process.dummies)
      (hpages : ∀ i span, (e.slot i).span? e.site = some span → ∀ page ∈ span,
        s.process.space.page? page = e.site.process.space.page? page) :
      Step e none { e with site := s }

/-- Any steps one after the other; what happened is listed newest first. -/
inductive Run (e₀ : Depot ι) : List (Event ι) → Depot ι → Prop
  | start : Run e₀ [] e₀
  | step {history : List (Event ι)} {e next : Depot ι} {event : Option (Event ι)}
      (hrun : Run e₀ history e) (hstep : Step e event next) :
      Run e₀ (event.toList ++ history) next

/-- Nothing has been asked yet, and the dummies are new and will give memory back. -/
structure Vacant (e : Depot ι) : Prop where
  idle : ∀ i, (e.slot i).stage = .idle
  history_eq : ∀ index, (e.site.process.dummy index).history = []
  registration?_eq : ∀ index address,
    (e.site.process.dummy index).registration? address = none
  answers : ∀ index, .free ∉ (e.site.process.dummy index).failing ∧
    .unregister ∉ (e.site.process.dummy index).failing

end Depot

/-! ### What holds of every slot -/

namespace Slot

variable {x : Slot} {s t : Site}

theorem span?_eq_map (hkind : x.source.kind = .shared) :
    x.span? s = (x.mapping? s).map Mapping.span := by
  simp only [span?, mapping?, hkind]

theorem span?_of_mapping? {m : Mapping} (hm : x.mapping? s = some m) :
    x.span? s = some m.span := by
  cases hkind : x.source.kind with
  | shared => rw [span?_eq_map hkind, hm, Option.map_some]
  | pinned => simp only [mapping?, hkind, reduceCtorEq] at hm

theorem span?_eq_none (hmapping : x.stage.mapping? s = none) (hblock : x.stage.block? = none) :
    x.span? s = none := by
  simp only [span?, hmapping, hblock, Option.map_none]
  split <;> rfl

theorem registered?_eq_none (h : x.stage.registered? = none) : x.registered? = none := by
  simp only [registered?, h]
  split <;> rfl

structure Seated (x : Slot) (s : Site) : Prop where
  pinned : x.source.kind = .pinned → x.stage = .idle ∨ ∃ block, x.stage = .holding block
  shared : x.source.kind = .shared → ∃ config, x.stage.Suits config s
  placed : ∀ m, x.mapping? s = some m → m.Placed s.process.space
  occupied : ∀ span, x.span? s = some span → ∀ page ∈ span, s.process.space.Occupied page

theorem Seated.idle (source : Resource) (s : Site) : (⟨.idle, source⟩ : Slot).Seated s where
  pinned _ := Or.inl rfl
  shared _ := ⟨.ofSegment ⟨"/group", by decide⟩, trivial⟩
  placed m hm := by
    simp only [mapping?, Stage.mapping?] at hm
    split at hm <;> cases hm
  occupied span hspan := by
    simp only [span?, Stage.mapping?, Stage.block?] at hspan
    split at hspan <;> cases hspan

/-- In shared memory the pages in use are those of the mapping. -/
theorem Seated.of_shared (hkind : x.source.kind = .shared)
    (hsuits : ∃ config, x.stage.Suits config s)
    (hplaced : ∀ m, x.stage.mapping? s = some m → m.Placed s.process.space) : x.Seated s where
  pinned hpinned := by rw [hkind] at hpinned; cases hpinned
  shared _ := hsuits
  placed m hm := by
    simp only [mapping?, hkind] at hm
    exact hplaced m hm
  occupied span hspan page hp := by
    simp only [span?, hkind, Option.map_eq_some_iff] at hspan
    obtain ⟨m, hm, rfl⟩ := hspan
    exact (hplaced m hm).occupied hp

/-- Pinned memory is held until it is given back. -/
theorem Seated.pinned_holding {source : Resource} {block : Block} (hkind : source.kind = .pinned)
    (hoccupied : ∀ page ∈ Memory.AddressSpace.mappingSpan block.address block.bytes.toNat,
      s.process.space.Occupied page) : (⟨.holding block, source⟩ : Slot).Seated s where
  pinned _ := Or.inr ⟨block, rfl⟩
  shared hshared := by simp [hkind] at hshared
  placed m hm := by simp [mapping?, hkind] at hm
  occupied span hspan page hp := by
    simp only [span?, hkind, Stage.block?, Option.map_some, Option.some.injEq] at hspan
    subst hspan
    exact hoccupied page hp

/-- Only requests for shared memory take more than one step. -/
theorem Seated.shared_of_calling (h : x.Seated s) {c : Call} (hcalling : x.stage = .calling c) :
    x.source.kind = .shared := by
  cases hkind : x.source.kind with
  | shared => rfl
  | pinned =>
    rcases h.pinned hkind with hstage | ⟨_, hstage⟩ <;> rw [hcalling] at hstage <;> cases hstage

/-- A slot that does nothing stays as it is as long as its pages do. -/
theorem Seated.stays (h : x.Seated s)
    (hpages : ∀ span, x.span? s = some span → ∀ page ∈ span,
      t.process.space.page? page = s.process.space.page? page) :
    x.Seated t ∧ x.span? t = x.span? s := by
  have hplaced : ∀ m, x.mapping? s = some m → m.Placed t.process.space := fun m hm =>
    (h.placed m hm).stays fun page hp => hpages _ (span?_of_mapping? hm) page hp
  cases hkind : x.source.kind with
  | pinned =>
    have hspan : x.span? t = x.span? s := by simp only [span?, hkind]
    refine ⟨⟨h.pinned, ?_, ?_, ?_⟩, hspan⟩
    · rw [hkind]
      simp
    · intro m hm
      simp only [mapping?, hkind, reduceCtorEq] at hm
    · intro span hmine page hp
      rw [hspan] at hmine
      rw [Memory.AddressSpace.Occupied, hpages span hmine page hp]
      exact h.occupied span hmine page hp
  | shared =>
    obtain ⟨config, hsuits⟩ := h.shared hkind
    have hstage : x.stage.mapping? t = x.stage.mapping? s := by
      refine Stage.mapping?_stays hsuits fun m hm => hplaced m ?_
      simp only [mapping?, hkind, hm]
    have hmapping : x.mapping? t = x.mapping? s := by simp only [mapping?, hkind, hstage]
    have hspan : x.span? t = x.span? s := by simp only [span?, hkind, hstage]
    refine ⟨⟨?_, fun _ => ⟨config, Stage.suits_stays hsuits hstage⟩, ?_, ?_⟩, hspan⟩
    · rw [hkind]
      simp
    · intro m hm
      exact hplaced m (hmapping ▸ hm)
    · intro span hmine page hp
      rw [hspan] at hmine
      rw [Memory.AddressSpace.Occupied, hpages span hmine page hp]
      exact h.occupied span hmine page hp

structure Sound (x : Slot) (s : Site) : Prop extends Seated x s where
  ne_halted : x.stage ≠ .halted
  device : x.stage ≠ .idle →
    ∃ index < s.process.dummies.length, x.source.device = .dummy index
  fits : x.source.kind = .pinned → ∀ {block : Block}, x.stage = .holding block →
    block.bytes.toNat ≤ DummyDevice.blockLimit
  calls : ∀ c, x.stage = .calling c → c.device = x.source.device ∧ c.Returns

theorem Sound.idle (source : Resource) (s : Site) : (⟨.idle, source⟩ : Slot).Sound s where
  toSeated := .idle source s
  ne_halted := by simp
  device h := absurd rfl h
  fits _ _ := by simp
  calls := by simp

theorem Sound.stays (h : x.Sound s)
    (hlength : s.process.dummies.length ≤ t.process.dummies.length)
    (hpages : ∀ span, x.span? s = some span → ∀ page ∈ span,
      t.process.space.page? page = s.process.space.page? page) :
    x.Sound t ∧ x.span? t = x.span? s := by
  obtain ⟨hseated, hspan⟩ := h.toSeated.stays hpages
  refine ⟨⟨hseated, h.ne_halted, fun hstage => ?_, h.fits, h.calls⟩, hspan⟩
  obtain ⟨index, hindex, hdummy⟩ := h.device hstage
  exact ⟨index, Nat.lt_of_lt_of_le hindex hlength, hdummy⟩

/-- A registered range is the payload of the slot's mapping, so the address tells the mapping. -/
theorem Sound.base_of_registered? (h : x.Sound s) {block : Block}
    (hregistered : x.registered? = some block) :
    ∃ m, x.mapping? s = some m ∧ m.base = block.address - Page.headerLength := by
  cases hkind : x.source.kind with
  | pinned => simp only [registered?, hkind, reduceCtorEq] at hregistered
  | shared =>
    obtain ⟨config, hsuits⟩ := h.shared hkind
    simp only [registered?, mapping?, hkind] at hregistered ⊢
    cases hstage : x.stage with
    | idle | halted =>
      rw [hstage] at hregistered
      cases hregistered
    | holding held =>
      rw [hstage] at hregistered hsuits
      cases hregistered
      obtain ⟨m, hm⟩ := hsuits
      exact ⟨m, hm, (Site.mappingOf?_eq_some_iff.mp hm).1⟩
    | calling c =>
      rw [hstage] at hregistered hsuits
      cases c with
      | attach a phase =>
        have hpayload : ∀ m : Mapping, m.base = m.payload - Page.headerLength := fun m =>
          (Nat.add_sub_cancel m.base Page.headerLength).symm
        cases phase <;> cases hregistered <;> exact ⟨_, rfl, hpayload _⟩
      | detach d phase =>
        cases phase with
        | unregister =>
          cases hregistered
          obtain ⟨m, hm⟩ := hsuits.2.2 rfl
          exact ⟨m, hm, (Site.mappingOf?_eq_some_iff.mp hm).1⟩
        | _ => cases hregistered

end Slot

namespace Depot

variable {ι : Type v} {e next : Depot ι}

structure Seated (e : Depot ι) : Prop where
  slots : ∀ i, (e.slot i).Seated e.site
  apart : ∀ i j, i ≠ j → ∀ mine its, (e.slot i).span? e.site = some mine →
    (e.slot j).span? e.site = some its → ∀ page ∈ mine, page ∉ its

structure Ordered (e : Depot ι) : Prop where
  slots : ∀ i, (e.slot i).Sound e.site
  apart : ∀ i j, i ≠ j → ∀ mine its, (e.slot i).span? e.site = some mine →
    (e.slot j).span? e.site = some its → ∀ page ∈ mine, page ∉ its

theorem Ordered.seated (h : e.Ordered) : e.Seated := ⟨fun i => (h.slots i).toSeated, h.apart⟩

theorem seated_of_idle (hidle : ∀ i, (e.slot i).stage = .idle) : e.Seated := by
  have hslot : ∀ i, e.slot i = ⟨.idle, (e.slot i).source⟩ := fun i => by
    rw [← hidle i]
  refine ⟨fun i => ?_, fun i j _ mine its hi => ?_⟩
  · rw [hslot i]
    exact .idle _ _
  · rw [hslot i, Slot.span?_eq_none rfl rfl] at hi
    cases hi

/-- The world outside may change as long as the pages in use do not. -/
theorem Seated.outside (h : e.Seated) {s : Site}
    (hpages : ∀ i span, (e.slot i).span? e.site = some span → ∀ page ∈ span,
      s.process.space.page? page = e.site.process.space.page? page) :
    Seated { e with site := s } := by
  have hstays := fun i => (h.slots i).stays (hpages i)
  exact ⟨fun i => (hstays i).1, fun i j hne mine its hi hj =>
    h.apart i j hne mine its ((hstays i).2.symm.trans hi) ((hstays j).2.symm.trans hj)⟩

/-- What the others use stays in use as it was. -/
theorem Seated.stays_of_ne (h : e.Seated) {i j : ι} {t : Site} {after? : Option Memory.Span}
    (hclaims : e.site.process.space.Claims ((e.slot i).span? e.site) after? t.process.space)
    (hj : j ≠ i) {span : Memory.Span} (hspan : (e.slot j).span? e.site = some span)
    {page : Nat} (hp : page ∈ span) :
    t.process.space.page? page = e.site.process.space.page? page :=
  hclaims.page?_eq page ((h.slots j).occupied span hspan page hp)
    fun mine hmine => h.apart j i hj span mine hspan hmine page hp

def Registers (e : Depot ι) (index : Nat) (i : ι) (block : Block) : Prop :=
  (e.slot i).registered? = some block ∧ (e.slot i).source.device = .dummy index

structure Sound (e : Depot ι) : Prop extends Ordered e where
  answers : ∀ index, .free ∉ (e.site.process.dummy index).failing ∧
    .unregister ∉ (e.site.process.dummy index).failing
  registration?_eq_some_iff : ∀ index address entry,
    (e.site.process.dummy index).registration? address = some entry ↔
      ∃ i block, e.Registers index i block ∧ address = block.address ∧
        entry = (block.bytes, .portable)

/-- No address is registered for two slots. -/
theorem Ordered.eq_of_address (h : e.Ordered) {i j : ι} {mine its : Block}
    (hi : (e.slot i).registered? = some mine) (hj : (e.slot j).registered? = some its)
    (haddress : mine.address = its.address) : i = j := by
  by_contra hne
  obtain ⟨m, hm, hbase⟩ := (h.slots i).base_of_registered? hi
  obtain ⟨n, hn, hbase'⟩ := (h.slots j).base_of_registered? hj
  have hsame : n.base = m.base := by rw [hbase, hbase', haddress]
  have hmem : m.base / Page.size ∈ m.span := ((h.slots i).placed m hm).base_mem
  have hmem' : n.base / Page.size ∈ n.span := ((h.slots j).placed n hn).base_mem
  exact h.apart i j hne _ _ (Slot.span?_of_mapping? hm) (Slot.span?_of_mapping? hn) _ hmem
    (hsame ▸ hmem')

theorem Vacant.sound (h : e.Vacant) : e.Sound := by
  have hidle : ∀ i, e.slot i = ⟨.idle, (e.slot i).source⟩ := fun i => by
    rw [← h.idle i]
  have hregistered : ∀ i, (e.slot i).registered? = none := fun i => by
    rw [hidle i]
    exact Slot.registered?_eq_none rfl
  refine ⟨⟨fun i => ?_, (seated_of_idle h.idle).apart⟩, h.answers, fun index address entry => ?_⟩
  · rw [hidle i]
    exact .idle _ _
  · rw [h.registration?_eq index address]
    refine ⟨by simp, ?_⟩
    rintro ⟨i, block, ⟨hi, -⟩, -⟩
    rw [hregistered i] at hi
    cases hi

/-- The world outside may change as long as the pages in use and the registrations do not. -/
theorem Sound.outside (h : e.Sound) {s : Site}
    (hpages : ∀ i span, (e.slot i).span? e.site = some span → ∀ page ∈ span,
      s.process.space.page? page = e.site.process.space.page? page)
    (hlength : e.site.process.dummies.length ≤ s.process.dummies.length)
    (hregistration : ∀ index address, (s.process.dummy index).registration? address =
      (e.site.process.dummy index).registration? address)
    (hanswers : ∀ index, .free ∉ (s.process.dummy index).failing ∧
      .unregister ∉ (s.process.dummy index).failing) : Sound { e with site := s } := by
  refine ⟨⟨fun i => ((h.slots i).stays hlength (hpages i)).1, (h.seated.outside hpages).apart⟩,
    hanswers, fun index address entry => ?_⟩
  rw [hregistration]
  exact h.registration?_eq_some_iff index address entry

/-! ### What each request does -/

section

variable {i : ι} {source : Resource} {result : Progress Call Reply × Site} {index : Nat}
  {call? : Option DeviceCall}

/-- A slot acted as it may with memory: it left the pages of the others alone, and what it uses then is
in place. -/
structure Seats (e : Depot ι) (i : ι) (source : Resource) (result : Progress Call Reply × Site) :
    Prop where
  claims : e.site.process.space.Claims ((e.slot i).span? e.site)
    ((⟨.after result.1, source⟩ : Slot).span? result.2) result.2.process.space
  seated : (⟨.after result.1, source⟩ : Slot).Seated result.2

/-- A request that is answered at once, without a block, touches nothing. -/
theorem seats_nothing {o : Outcome Reply} (hidle : (e.slot i).stage = .idle)
    (hafter : Stage.after (.done o) = .idle) : e.Seats i source (.done o, e.site) := by
  have hspan : (e.slot i).span? e.site = none :=
    Slot.span?_eq_none (by rw [hidle]; rfl) (by rw [hidle]; rfl)
  refine ⟨?_, ?_⟩
  · rw [hspan, hafter, Slot.span?_eq_none rfl rfl]
    exact .refl _ none
  · rw [hafter]
    exact .idle _ _

theorem seats_shared_allocate {r : Resource} (bytes : UInt64) (hkind : r.kind = .shared)
    (hidle : (e.slot i).stage = .idle) : e.Seats i r (r.beginAllocate bytes e.site) := by
  have hspan : (e.slot i).span? e.site = none :=
    Slot.span?_eq_none (by rw [hidle]; rfl) (by rw [hidle]; rfl)
  obtain ⟨strategy, device, account⟩ := r
  cases strategy with
  | pinned => cases hkind
  | shared config =>
    rcases (⟨(), config, device, account⟩ : Member Unit).beginAllocate_spec bytes e.site with
      ⟨phase, hfirst, heq⟩ | ⟨o, heq, hafter⟩
    · have hresult : (⟨.shared config, device, account⟩ : Resource).beginAllocate bytes e.site =
          (.running (.attach ⟨config, device, account, bytes⟩ phase), e.site) := heq
      rw [hresult]
      have hspan' : (⟨.calling (.attach ⟨config, device, account, bytes⟩ phase),
          ⟨.shared config, device, account⟩⟩ : Slot).span? e.site = none := by
        cases hfirst <;> rfl
      refine ⟨?_, .of_shared rfl ⟨config, ?_⟩ fun m hm => ?_⟩
      · rw [hspan]
        exact hspan'.symm ▸ .refl _ _
      · cases hfirst <;> exact ⟨rfl, by trivial⟩
      · cases hfirst <;> cases hm
    · have hresult : (⟨.shared config, device, account⟩ : Resource).beginAllocate bytes e.site =
          (.done o, e.site) := heq
      rw [hresult]
      exact seats_nothing hidle hafter

theorem seats_shared_release (h : e.Seated) {r : Resource} {block : Block}
    (hkind : r.kind = .shared) (hsource : (e.slot i).source.kind = .shared)
    (hholding : (e.slot i).stage = .holding block) :
    e.Seats i r (r.beginRelease block e.site) := by
  obtain ⟨strategy, device, account⟩ := r
  cases strategy with
  | pinned => cases hkind
  | shared config =>
    have hslot := h.slots i
    obtain ⟨mine, hsuits⟩ := hslot.shared hsource
    rw [hholding] at hsuits
    have hspan : (e.slot i).span? e.site = (e.site.mappingOf? block).map Mapping.span := by
      simp only [Slot.span?, hsource, hholding, Stage.mapping?]
    have hmapping : (e.slot i).mapping? e.site = e.site.mappingOf? block := by
      simp only [Slot.mapping?, hsource, hholding, Stage.mapping?]
    refine ⟨?_, .of_shared rfl ⟨config, rfl, trivial, fun _ => hsuits⟩
      fun m hm => hslot.placed m (hmapping.trans hm)⟩
    rw [hspan]
    exact .refl _ _

theorem seats_access (h : e.Seated) {c : Call} (hcalling : (e.slot i).stage = .calling c) :
    e.Seats i (e.slot i).source (c.step e.site) := by
  have hslot := h.slots i
  have hshared := hslot.shared_of_calling hcalling
  obtain ⟨config, hsuits⟩ := hslot.shared hshared
  have hmapping : (e.slot i).mapping? e.site = c.mapping? e.site := by
    simp only [Slot.mapping?, hshared, hcalling, Stage.mapping?]
  have hplaced : ∀ m, c.mapping? e.site = some m → m.Placed e.site.process.space := fun m hm =>
    hslot.placed m (hmapping.trans hm)
  have hspan' : ∀ stage s, (⟨stage, (e.slot i).source⟩ : Slot).span? s =
      (stage.mapping? s).map Mapping.span := fun stage s => by
    simp only [Slot.span?, hshared]
  rw [hcalling] at hsuits
  cases c with
  | attach a phase =>
    have ht := a.step_transition phase e.site
    have hhandles := ht.handles hsuits.2 hplaced
    refine ⟨?_, .of_shared hshared ⟨_, ht.suits hsuits.2 hplaced⟩
      fun m hm => hhandles.placed hplaced hm⟩
    rw [Slot.span?_eq_map hshared, hmapping, hspan']
    exact hhandles.claims
  | detach d phase =>
    have ht := d.step_transition phase e.site
    have hhandles := ht.handles
    refine ⟨?_, .of_shared hshared ⟨_, ht.suits hsuits.2.1⟩
      fun m hm => hhandles.placed hplaced hm⟩
    rw [Slot.span?_eq_map hshared, hmapping, hspan']
    exact hhandles.claims

/-- A slot acted as it may: it made at most one call to its dummy, and is sound again. -/
structure Acted (e : Depot ι) (i : ι) (source : Resource) (result : Progress Call Reply × Site)
    (index : Nat) (call? : Option DeviceCall) : Prop extends Seats e i source result where
  dials : e.site.process.Dials index call? (e.slot i).registered?
    (⟨.after result.1, source⟩ : Slot).registered? result.2.process
  index_lt : index < e.site.process.dummies.length
  before : ∀ block, (e.slot i).registered? = some block →
    (e.slot i).source.device = .dummy index
  device : source.device = .dummy index
  ne_halted : Stage.after result.1 ≠ .halted
  fits : source.kind = .pinned → ∀ {block : Block}, Stage.after result.1 = .holding block →
    block.bytes.toNat ≤ DummyDevice.blockLimit
  calls : ∀ c, Stage.after result.1 = .calling c → c.device = source.device ∧ c.Returns

theorem Acted.sound (h : e.Acted i source result index call?) :
    (⟨.after result.1, source⟩ : Slot).Sound result.2 where
  toSeated := h.seated
  ne_halted := h.ne_halted
  device _ := ⟨index, h.dials.length_eq ▸ h.index_lt, h.device⟩
  fits := h.fits
  calls := h.calls

/-- A slot that ends idle has nothing more to be said of it. -/
theorem Acted.of_idle (hseats : e.Seats i source result)
    (hafter : Stage.after result.1 = .idle)
    (hdials : e.site.process.Dials index call? (e.slot i).registered? none result.2.process)
    (hindex : index < e.site.process.dummies.length)
    (hbefore : ∀ block, (e.slot i).registered? = some block →
      (e.slot i).source.device = .dummy index)
    (hdevice : source.device = .dummy index) : e.Acted i source result index call? := by
  refine ⟨hseats, ?_, hindex, hbefore, hdevice, ?_, ?_, ?_⟩
  · rw [hafter, Slot.registered?_eq_none (x := ⟨.idle, source⟩) rfl]
    exact hdials
  all_goals simp [hafter]

theorem registered?_of_idle (hidle : (e.slot i).stage = .idle) : (e.slot i).registered? = none :=
  Slot.registered?_eq_none (by rw [hidle]; rfl)

/-- A request that is answered at once, without a block, makes no call. -/
theorem acted_nothing {o : Outcome Reply} (hidle : (e.slot i).stage = .idle)
    (hafter : Stage.after (.done o) = .idle) (hdevice : source.device = .dummy index)
    (hindex : index < e.site.process.dummies.length) :
    e.Acted i source (.done o, e.site) index none := by
  refine .of_idle (seats_nothing hidle hafter) hafter ?_ hindex ?_ hdevice
  · rw [registered?_of_idle hidle]
    exact .silent rfl
  · simp [registered?_of_idle hidle]

/-! ### Requests for pinned memory -/

/-- Asking for pinned memory: the dummy is called once, and the block, if there is one, lies on pages
that were not in use. -/
theorem acted_pinned_allocate {r : Resource} {bytes : UInt64} (hkind : r.kind = .pinned)
    (hdevice : r.device = .dummy index) (hindex : index < e.site.process.dummies.length)
    (hidle : (e.slot i).stage = .idle) (hbytes : bytes ≠ 0) :
    e.Acted i r (r.beginAllocate bytes e.site) index (some .allocate) := by
  have hspan : (e.slot i).span? e.site = none :=
    Slot.span?_eq_none (by rw [hidle]; rfl) (by rw [hidle]; rfl)
  have hregistered := registered?_of_idle hidle
  obtain ⟨strategy, device, account⟩ := r
  cases strategy with
  | shared config => cases hkind
  | pinned =>
    cases hdevice
    obtain ⟨result, p, hasked⟩ : ∃ result p,
        e.site.process.dummyAllocate index bytes = (result, p) := ⟨_, _, rfl⟩
    obtain ⟨o, q, hallocated⟩ : ∃ o q, (⟨.dummy index, account⟩ : Pinned).allocated bytes result p =
        (o, q) := ⟨_, _, rfl⟩
    obtain ⟨hbooked, hne, hblock⟩ := Pinned.allocated_spec hallocated
    obtain ⟨hp, hrefused, hfresh⟩ := Process.dummyAllocate_spec hasked
    have hpos : 0 < bytes.toNat :=
      Nat.pos_of_ne_zero fun hzero => hbytes (UInt64.toNat_inj.mp hzero)
    have hresult : (⟨.pinned, .dummy index, account⟩ : Resource).beginAllocate bytes e.site =
        (.done (o.map .ofResult), { e.site with process := q }) := by
      simp only [Resource.beginAllocate, if_neg hbytes, Pinned.allocate, Device.allocate, hasked,
        hallocated]
    have hspace : q.space = p.space := hbooked.space_eq
    have hdials : e.site.process.Dials index (some .allocate) none none q :=
      .told .allocate (hbooked.dummies_eq.trans (by rw [hp]))
    rw [hresult]
    by_cases hgiven : ∃ block, o = .returned (.ok block)
    · obtain ⟨block, rfl⟩ := hgiven
      obtain ⟨hok, rfl⟩ := hblock block rfl
      obtain ⟨hfits, hgrow⟩ := hfresh _ hok
      have hmapped := Memory.AddressSpace.mapped_of_grow? hpos hgrow
      rw [← hspace] at hmapped
      refine ⟨⟨?_, .pinned_holding rfl fun page hpage => ?_⟩, hregistered ▸ hdials, hindex,
        by simp [hregistered], rfl, (fun hhalted => by cases hhalted), fun _ _ hholding => ?_,
        fun c hc => by cases hc⟩
      · rw [hspan]
        exact hmapped.claims
      · rw [Memory.AddressSpace.Occupied, hmapped.page?_eq, if_pos hpage]
        rfl
      · cases hholding
        exact hfits
    · have hafter : Stage.after (.done (o.map .ofResult)) = .idle := by
        cases o with
        | aborted => exact absurd rfl hne
        | faulted => rfl
        | returned given =>
          cases given with
          | error => rfl
          | ok block => exact absurd ⟨block, rfl⟩ hgiven
      have hclaims : e.site.process.space.Claims none none q.space := by
        rw [hspace]
        cases result with
        | error error => exact hrefused error rfl ▸ .refl _ _
        | ok address =>
          exact (Memory.AddressSpace.mapped_of_grow? hpos (hfresh address rfl).2).claims.forget
      refine .of_idle ⟨?_, ?_⟩ hafter (hregistered ▸ hdials) hindex (by simp [hregistered]) rfl
      · rw [hspan, hafter]
        exact hclaims
      · rw [hafter]
        exact .idle _ _

theorem acted_pinned_release (h : e.Sound) {r : Resource} {block : Block}
    (hkind : r.kind = .pinned) (hsource : (e.slot i).source.kind = .pinned)
    (hsame : r.device = (e.slot i).source.device) (hdevice : r.device = .dummy index)
    (hindex : index < e.site.process.dummies.length)
    (hholding : (e.slot i).stage = .holding block) :
    e.Acted i r (r.beginRelease block e.site) index (some .free) := by
  have hregistered : (e.slot i).registered? = none := by
    simp only [Slot.registered?, hsource]
  have hspan : (e.slot i).span? e.site =
      some (Memory.AddressSpace.mappingSpan block.address block.bytes.toNat) := by
    simp only [Slot.span?, hsource, hholding, Stage.block?, Option.map_some]
  have hfits := (h.slots i).fits hsource hholding
  obtain ⟨strategy, device, account⟩ := r
  cases strategy with
  | shared config => cases hkind
  | pinned =>
    cases hdevice
    have hfree : e.site.process.dummyFree index block.address block.bytes = _ :=
      Process.dummyFree_eq (h.answers index).1 hfits
    have hresult : (⟨.pinned, .dummy index, account⟩ : Resource).beginRelease block e.site =
        (.done (.returned .released), { e.site with
          process := Process.recordRelease
            { e.site.process.modifyDummy index fun _ =>
                (e.site.process.dummy index).record .free with
              space := e.site.process.space.release block.address block.bytes.toNat }
            account block.bytes }) := by
      simp only [Resource.beginRelease, Pinned.release, Device.free, hfree]
      rfl
    rw [hresult]
    refine .of_idle ⟨?_, .idle _ _⟩ rfl (hregistered ▸ .told .free rfl) hindex
      (fun _ _ => hsame.symm) rfl
    rw [hspan]
    exact Memory.AddressSpace.claims_release ..

/-! ### Requests for shared memory -/

theorem acted_shared_allocate {r : Resource} {bytes : UInt64} (hkind : r.kind = .shared)
    (hdevice : r.device = .dummy index) (hindex : index < e.site.process.dummies.length)
    (hidle : (e.slot i).stage = .idle) :
    e.Acted i r (r.beginAllocate bytes e.site) index none := by
  have hseats := seats_shared_allocate bytes hkind hidle
  have hregistered := registered?_of_idle hidle
  obtain ⟨strategy, device, account⟩ := r
  cases strategy with
  | pinned => cases hkind
  | shared config =>
    rcases (⟨(), config, device, account⟩ : Member Unit).beginAllocate_spec bytes e.site with
      ⟨phase, hfirst, heq⟩ | ⟨o, heq, hafter⟩
    · have hresult : (⟨.shared config, device, account⟩ : Resource).beginAllocate bytes e.site =
          (.running (.attach ⟨config, device, account, bytes⟩ phase), e.site) := heq
      rw [hresult] at hseats ⊢
      have hregistered' : (⟨.calling (.attach ⟨config, device, account, bytes⟩ phase),
          ⟨.shared config, device, account⟩⟩ : Slot).registered? = none := by
        cases hfirst <;> rfl
      refine ⟨hseats, ?_, hindex, by simp [hregistered], hdevice, nofun, nofun, fun c hc => ?_⟩
      · rw [hregistered]
        exact hregistered'.symm ▸ .silent rfl
      · cases hc
        cases hfirst <;> exact ⟨rfl, trivial⟩
    · have hresult : (⟨.shared config, device, account⟩ : Resource).beginAllocate bytes e.site =
          (.done o, e.site) := heq
      rw [hresult]
      exact acted_nothing hidle hafter hdevice hindex

theorem acted_shared_release (h : e.Sound) {r : Resource} {block : Block}
    (hkind : r.kind = .shared) (hsource : (e.slot i).source.kind = .shared)
    (hsame : r.device = (e.slot i).source.device)
    (hdevice : r.device = .dummy index) (hindex : index < e.site.process.dummies.length)
    (hholding : (e.slot i).stage = .holding block) :
    e.Acted i r (r.beginRelease block e.site) index none := by
  have hseats := seats_shared_release h.seated hkind hsource hholding
  obtain ⟨strategy, device, account⟩ := r
  cases strategy with
  | pinned => cases hkind
  | shared config =>
    have hregistered : (e.slot i).registered? = some block := by
      simp only [Slot.registered?, hsource, hholding, Stage.registered?]
    refine ⟨hseats, ?_, hindex, fun _ _ => hsame.symm.trans hdevice, hdevice,
      (fun hhalted => by cases hhalted), (fun hpinned => by cases hpinned), fun c hc => ?_⟩
    · rw [hregistered]
      exact .silent rfl
    · cases hc
      exact ⟨rfl, trivial⟩

theorem acted_access (h : e.Sound) {c : Call} (hcalling : (e.slot i).stage = .calling c)
    (hroomy : c.Roomy e.site) : ∃ index, c.device = .dummy index ∧
      e.Acted i (e.slot i).source (c.step e.site) index c.deviceCall? := by
  have hseats := seats_access h.seated hcalling
  have hslot := h.slots i
  obtain ⟨index, hindex, hdevice⟩ := hslot.device (by simp [hcalling])
  have hshared := hslot.shared_of_calling hcalling
  obtain ⟨config, hsuits⟩ := hslot.shared hshared
  obtain ⟨hsame, hreturns⟩ := hslot.calls c hcalling
  have hregistered : (e.slot i).registered? = c.registered? := by
    simp only [Slot.registered?, hshared, hcalling, Stage.registered?]
  have hregistered' : ∀ stage, (⟨stage, (e.slot i).source⟩ : Slot).registered? =
      stage.registered? := fun stage => by
    simp only [Slot.registered?, hshared]
  have hdummy : c.device = .dummy index := hsame.trans hdevice
  have hfits : (e.slot i).source.kind = .pinned → ∀ {block : Block},
      Stage.after (c.step e.site).1 = .holding block →
        block.bytes.toNat ≤ DummyDevice.blockLimit := fun hpinned => by
    rw [hshared] at hpinned
    cases hpinned
  rw [hcalling] at hsuits
  refine ⟨index, hdummy, ?_⟩
  cases c with
  | attach a phase =>
    have ht := a.step_transition phase e.site
    have hdials := ht.dials hdummy hroomy
    have hgoes := ht.returns hreturns
    refine ⟨hseats, ?_, hindex, fun _ _ => hdevice, hdevice, hgoes.1, hfits, fun next hnext => ?_⟩
    · rw [hregistered, hregistered']
      exact hdials
    · have hrunning := Stage.after_eq_calling hnext
      cases hprogress : (a.step phase e.site).1 with
      | done o => simp [Call.step, Call.ofAttach, hprogress] at hrunning
      | running after =>
        simp only [Call.step, Call.ofAttach, hprogress, Progress.map_running,
          Progress.running.injEq] at hrunning
        subst hrunning
        exact ⟨hsame, hgoes.2 after hprogress⟩
  | detach d phase =>
    have ht := d.step_transition phase e.site
    obtain ⟨hdials, hgoes⟩ := ht.dials hdummy (h.answers index).2
      (fun hphase => (h.registration?_eq_some_iff index d.block.address _).mpr
        ⟨i, d.block, ⟨hregistered.trans (by rw [hphase]; rfl), hdevice⟩, rfl, rfl⟩)
      hsuits.2.2
    refine ⟨hseats, ?_, hindex, fun _ _ => hdevice, hdevice, hgoes, hfits, fun next hnext => ?_⟩
    · rw [hregistered, hregistered']
      exact hdials
    · have hrunning := Stage.after_eq_calling hnext
      cases hprogress : (d.step phase e.site).1 with
      | done o => simp [Call.step, Call.ofDetach, hprogress] at hrunning
      | running after =>
        simp only [Call.step, Call.ofDetach, hprogress, Progress.map_running,
          Progress.running.injEq] at hrunning
        subst hrunning
        exact ⟨hsame, trivial⟩

end

/-! ### What each step keeps -/

section

variable [DecidableEq ι] {i : ι} {source : Resource} {result : Progress Call Reply × Site}
  {index : Nat} {call? : Option DeviceCall}

@[simp] theorem slot_settle_self (i : ι) (source : Resource)
    (result : Progress Call Reply × Site) :
    (e.settle i source result).slot i = ⟨.after result.1, source⟩ := Function.update_self ..

theorem slot_settle_of_ne {i j : ι} (h : j ≠ i) (source : Resource)
    (result : Progress Call Reply × Site) :
    (e.settle i source result).slot j = e.slot j := Function.update_of_ne h ..

theorem registers_settle_of_ne {i j : ι} (h : j ≠ i) (source : Resource)
    (result : Progress Call Reply × Site) (index : Nat) (block : Block) :
    (e.settle i source result).Registers index j block ↔ e.Registers index j block := by
  rw [Registers, slot_settle_of_ne h, Registers]

/-- The slots of a kind, if they are a finite set, still are one after one slot has changed, and a sum
over them follows that slot. -/
theorem exists_following {P Q : ι → Prop} [DecidablePred P] [DecidablePred Q] {before : Finset ι}
    (hbefore : ∀ i, i ∈ before ↔ P i) (j : ι) (hothers : ∀ i, i ≠ j → (Q i ↔ P i)) :
    ∃ after : Finset ι, (∀ i, i ∈ after ↔ Q i) ∧
      ∀ f g : ι → Nat, (∀ i, i ≠ j → g i = f i) →
        ∑ i ∈ after, g i + (if P j then f j else 0) =
          ∑ i ∈ before, f i + if Q j then g j else 0 := by
  have hsum : ∀ {s : Finset ι} {R : ι → Prop} [DecidablePred R] (f : ι → Nat),
      (∀ i, i ∈ s ↔ R i) → ∑ i ∈ s, f i = ∑ i ∈ s.erase j, f i + if R j then f j else 0 := by
    intro s R _ f hs
    by_cases hj : R j
    · rw [if_pos hj, Finset.sum_erase_add _ _ ((hs j).mpr hj)]
    · rw [if_neg hj, Finset.erase_eq_of_notMem (mt (hs j).mp hj), Nat.add_zero]
  have hrest : ∀ f g : ι → Nat, (∀ i, i ≠ j → g i = f i) →
      ∑ i ∈ before.erase j, g i = ∑ i ∈ before.erase j, f i := fun f g hsame =>
    Finset.sum_congr rfl fun i hi => hsame i (Finset.ne_of_mem_erase hi)
  by_cases hj : Q j
  · have hafter : ∀ i, i ∈ insert j before ↔ Q i := fun i => by
      by_cases hij : i = j
      · simp [hij, hj]
      · simp [hij, hbefore i, hothers i hij]
    refine ⟨insert j before, hafter, fun f g hsame => ?_⟩
    rw [hsum g hafter, hsum f hbefore, Finset.erase_insert_eq_erase, hrest f g hsame]
    omega
  · have hafter : ∀ i, i ∈ before.erase j ↔ Q i := fun i => by
      by_cases hij : i = j
      · simp [hij, hj]
      · simp [hij, hbefore i, hothers i hij]
    refine ⟨before.erase j, hafter, fun f g hsame => ?_⟩
    rw [hsum f hbefore, if_neg hj, hrest f g hsame, Nat.add_zero]

/-- The slot that acted takes nothing that the others use. -/
theorem Seated.settle (h : e.Seated)
    (hclaims : e.site.process.space.Claims ((e.slot i).span? e.site)
      ((⟨.after result.1, source⟩ : Slot).span? result.2) result.2.process.space)
    (hmine : (⟨.after result.1, source⟩ : Slot).Seated result.2) :
    (e.settle i source result).Seated := by
  have hstays : ∀ j, j ≠ i → (e.slot j).Seated result.2 ∧
      (e.slot j).span? result.2 = (e.slot j).span? e.site := fun j hj =>
    (h.slots j).stays fun _ hspan _ hp => h.stays_of_ne hclaims hj hspan hp
  have hapart : ∀ j, j ≠ i → ∀ mine its,
      (⟨.after result.1, source⟩ : Slot).span? result.2 = some mine →
      (e.slot j).span? result.2 = some its → ∀ page ∈ mine, page ∉ its := by
    intro j hj mine its hspan hits page hp hp'
    rw [(hstays j hj).2] at hits
    obtain ⟨old, hold, hmem⟩ := hclaims.fresh mine hspan page hp
      ((h.slots j).occupied its hits page hp')
    exact h.apart j i hj its old hits hold page hp' hmem
  refine ⟨fun j => ?_, fun j k hne mine its hj hk page hp hp' => ?_⟩
  · by_cases hj : j = i
    · rw [hj, slot_settle_self]
      exact hmine
    · rw [slot_settle_of_ne hj]
      exact (hstays j hj).1
  · by_cases hji : j = i
    · subst hji
      rw [slot_settle_self] at hj
      rw [slot_settle_of_ne hne.symm] at hk
      exact hapart k hne.symm mine its hj hk page hp hp'
    · rw [slot_settle_of_ne hji] at hj
      by_cases hki : k = i
      · subst hki
        rw [slot_settle_self] at hk
        exact hapart j hji its mine hk hj page hp' hp
      · rw [slot_settle_of_ne hki] at hk
        have hj' := (hstays j hji).2.symm.trans hj
        have hk' := (hstays k hki).2.symm.trans hk
        exact h.apart j k hne mine its hj' hk' page hp hp'

theorem Ordered.settle (h : e.Ordered)
    (hclaims : e.site.process.space.Claims ((e.slot i).span? e.site)
      ((⟨.after result.1, source⟩ : Slot).span? result.2) result.2.process.space)
    (hlength : e.site.process.dummies.length ≤ result.2.process.dummies.length)
    (hmine : (⟨.after result.1, source⟩ : Slot).Sound result.2) :
    (e.settle i source result).Ordered := by
  have hseated := h.seated.settle hclaims hmine.toSeated
  refine ⟨fun j => ?_, hseated.apart⟩
  by_cases hj : j = i
  · rw [hj, slot_settle_self]
    exact hmine
  · rw [slot_settle_of_ne hj]
    exact ((h.slots j).stays hlength fun _ hspan _ hp =>
      h.seated.stays_of_ne hclaims hj hspan hp).1

/-- The registrations follow the one slot that acted. -/
theorem Sound.registration?_settle (h : e.Sound) (hnext : (e.settle i source result).Ordered)
    (hdials : e.site.process.Dials index call? (e.slot i).registered?
      (⟨.after result.1, source⟩ : Slot).registered? result.2.process)
    (hindex : index < e.site.process.dummies.length)
    (hbefore : ∀ block, (e.slot i).registered? = some block →
      (e.slot i).source.device = .dummy index)
    (hsource : source.device = .dummy index) (other address : Nat)
    (entry : UInt64 × RegisterFlags) :
    (result.2.process.dummy other).registration? address = some entry ↔
      ∃ j block, (e.settle i source result).Registers other j block ∧
        address = block.address ∧ entry = (block.bytes, .portable) := by
  have hold := h.registration?_eq_some_iff other address entry
  have hself : ∀ block, (e.settle i source result).Registers other i block ↔
      (⟨.after result.1, source⟩ : Slot).registered? = some block ∧ other = index := by
    intro block
    simp only [Registers, slot_settle_self, hsource, Device.dummy.injEq]
    exact and_congr_right fun _ => eq_comm
  have hself' : ∀ block, e.Registers other i block ↔
      (e.slot i).registered? = some block ∧ other = index := by
    intro block
    refine and_congr_right fun hi => ?_
    rw [hbefore block hi, Device.dummy.injEq, eq_comm]
  -- Where neither the table nor the slot's range changed, nothing is left to show.
  have hsame : ∀ held, (e.slot i).registered? = held →
      (⟨.after result.1, source⟩ : Slot).registered? = held →
      ∀ j block, (e.settle i source result).Registers other j block ↔
        e.Registers other j block := by
    intro held hb ha j block
    by_cases hj : j = i
    · rw [hj, hself, hself', ha, hb]
    · exact registers_settle_of_ne hj source result other block
  generalize hb : (e.slot i).registered? = before at hdials
  generalize ha : (⟨.after result.1, source⟩ : Slot).registered? = after at hdials
  cases hdials with
  | silent hdummies =>
    have hdummy : result.2.process.dummy other = e.site.process.dummy other := by
      rw [Process.dummy, hdummies, Process.dummy]
    simp only [hdummy, hold, hsame _ hb ha]
  | told _ hdummies =>
    have hdummy : (result.2.process.dummy other).registration? address =
        (e.site.process.dummy other).registration? address := by
      rw [Process.dummy_of_dummies_eq hdummies hindex]
      split
      case isTrue hother =>
        subst hother
        rfl
      case isFalse => rfl
    simp only [hdummy, hold, hsame _ hb ha]
  | entered block hdummies =>
    rw [Process.registration?_of_insert hdummies hindex rfl]
    split
    case isTrue hat =>
      refine ⟨fun hentry => ⟨i, block, (hself block).mpr ⟨ha, hat.1⟩, hat.2, ?_⟩, ?_⟩
      · exact (Option.some.inj hentry).symm
      · rintro ⟨j, its, hj, haddress, rfl⟩
        have hmine := (hself block).mpr ⟨ha, hat.1⟩
        have hji : j = i := hnext.eq_of_address hj.1 hmine.1 (haddress.symm.trans hat.2)
        subst hji
        rw [Option.some.inj (hj.1.symm.trans hmine.1)]
    case isFalse hat =>
      rw [hold]
      refine exists_congr fun j => exists_congr fun its => and_congr_left fun hits => ?_
      by_cases hj : j = i
      · -- the slot's own range lies elsewhere
        rw [hj, hself, hself', ha, hb]
        refine ⟨by simp, ?_⟩
        rintro ⟨hblock, hother⟩
        exact absurd ⟨hother, by rw [hits.1, Option.some.inj hblock]⟩ hat
      · exact (registers_settle_of_ne hj source result other its).symm
  | erased block hdummies =>
    rw [Process.registration?_of_erase hdummies hindex rfl]
    split
    case isTrue hat =>
      refine ⟨by simp, ?_⟩
      rintro ⟨j, its, hj, haddress, -⟩
      by_cases hji : j = i
      · rw [hji, hself, ha] at hj
        cases hj.1
      · have hits := (registers_settle_of_ne hji source result other its).mp hj
        exact absurd (h.eq_of_address hits.1 hb (haddress.symm.trans hat.2)) hji
    case isFalse hat =>
      rw [hold]
      refine exists_congr fun j => exists_congr fun its => and_congr_left fun hits => ?_
      by_cases hj : j = i
      · rw [hj, hself, hself', ha, hb]
        refine ⟨?_, by simp⟩
        rintro ⟨hblock, hother⟩
        exact absurd ⟨hother, by rw [hits.1, Option.some.inj hblock]⟩ hat
      · exact (registers_settle_of_ne hj source result other its).symm

theorem Sound.settle (h : e.Sound) (hacted : e.Acted i source result index call?) :
    (e.settle i source result).Sound := by
  have hordered := h.toOrdered.settle hacted.claims
    (Nat.le_of_eq hacted.dials.length_eq.symm) hacted.sound
  refine ⟨hordered, fun other => ?_, h.registration?_settle hordered hacted.dials hacted.index_lt
    hacted.before hacted.device⟩
  have hfailing := hacted.dials.failing_eq hacted.index_lt other
  exact ⟨hfailing ▸ (h.answers other).1, hfailing ▸ (h.answers other).2⟩

/-- Every event is one slot acting as it may. -/
theorem Sound.acted_of_step (h : e.Sound) {event : Event ι} (hstep : e.Step (some event) next) :
    ∃ i source result index call?, next = e.settle i source result ∧
      e.Acted i source result index call? ∧
      ∀ other, event.call? other = if other = index then call? else none := by
  cases hstep with
  | allocate i r bytes index hidle hdevice hindex =>
    cases hkind : r.kind with
    | shared =>
      refine ⟨i, r, _, index, none, rfl, acted_shared_allocate hkind hdevice hindex hidle, ?_⟩
      simp [Event.call?, hkind]
    | pinned =>
      by_cases hbytes : bytes = 0
      · subst hbytes
        refine ⟨i, r, _, index, none, rfl, acted_nothing hidle rfl hdevice hindex, ?_⟩
        simp [Event.call?]
      · refine ⟨i, r, _, index, some .allocate, rfl,
          acted_pinned_allocate hkind hdevice hindex hidle hbytes, fun other => ?_⟩
        simp [Event.call?, hkind, hbytes, hdevice, eq_comm]
  | release i r block hholding hkind hsame =>
    obtain ⟨index, hindex, hdummy⟩ := (h.slots i).device (by simp [hholding])
    have hdevice := hsame.trans hdummy
    cases hsource : (e.slot i).source.kind with
    | shared =>
      have hshared := hkind.trans hsource
      refine ⟨i, r, _, index, none, rfl,
        acted_shared_release h hshared hsource hsame hdevice hindex hholding, ?_⟩
      simp [Event.call?, hshared]
    | pinned =>
      have hpinned := hkind.trans hsource
      refine ⟨i, r, _, index, some .free, rfl,
        acted_pinned_release h hpinned hsource hsame hdevice hindex hholding, fun other => ?_⟩
      simp [Event.call?, hpinned, hdevice, eq_comm]
  | access i c hcalling hroomy =>
    obtain ⟨index, hdevice, hacted⟩ := acted_access h hcalling hroomy
    refine ⟨i, _, _, index, _, rfl, hacted, fun other => ?_⟩
    simp [Event.call?, hdevice, eq_comm]

end

end Depot

theorem Process.dummy_addDummy (p : Process) (memory : MemoryInfo) (index : Nat) :
    (p.addDummy memory).2.dummy index = p.dummy index ∨
      (p.dummy index = default ∧
        (p.addDummy memory).2.dummy index = .withMemory memory) := by
  simp only [addDummy, dummy]
  rcases Nat.lt_trichotomy index p.dummies.length with hlt | rfl | hlt
  · exact Or.inl (by rw [List.getElem?_append_left hlt])
  · exact Or.inr (by simp)
  · refine Or.inl ?_
    rw [List.getElem?_eq_none (by simp; omega), List.getElem?_eq_none (by omega)]

namespace Depot

section

variable {ι : Type v} [DecidableEq ι] {e e₀ next : Depot ι} {history : List (Event ι)}

theorem Sound.step (h : e.Sound) {event : Option (Event ι)} (hstep : e.Step event next) :
    next.Sound := by
  cases event with
  | some event =>
    obtain ⟨i, source, result, index, call?, rfl, hacted, -⟩ := h.acted_of_step hstep
    exact h.settle hacted
  | none =>
    cases hstep with
    | switch index failing hfree hunregister =>
      refine h.outside (fun _ _ _ _ _ => rfl) (Nat.le_of_eq (List.length_modify ..).symm)
        (fun other address => ?_) fun other => ?_
      · rw [Process.dummy_modifyDummy]
        split
        case isTrue hother => rw [← hother.1]; rfl
        case isFalse => rfl
      · rw [Process.dummy_modifyDummy]
        split
        case isTrue => exact ⟨hfree, hunregister⟩
        case isFalse => exact h.answers other
    | add memory =>
      refine h.outside (fun _ _ _ _ _ => rfl) (by simp [Process.addDummy])
        (fun index address => ?_) fun index => ?_
      · rcases e.site.process.dummy_addDummy memory index with hsame | ⟨hold, hnew⟩
        · rw [hsame]
        · rw [hold, hnew]
          rfl
      · rcases e.site.process.dummy_addDummy memory index with hsame | ⟨-, hnew⟩
        · rw [hsame]
          exact h.answers index
        · rw [hnew]
          simp [DummyDevice.withMemory]
    | elsewhere s hdummies hpages =>
      have hdummy : ∀ index, s.process.dummy index = e.site.process.dummy index := fun index => by
        rw [Process.dummy, hdummies, Process.dummy]
      refine h.outside hpages (Nat.le_of_eq (by rw [hdummies])) (fun index address => ?_)
        fun index => ?_
      · rw [hdummy]
      · rw [hdummy]
        exact h.answers index

theorem Sound.run (h : e₀.Sound) (hrun : Run e₀ history e) : e.Sound := by
  induction hrun with
  | start => exact h
  | step _ hstep ih => exact ih.step hstep

end

end Depot

end StagingMemory
