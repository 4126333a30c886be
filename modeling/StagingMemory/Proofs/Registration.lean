import StagingMemory.Proofs.Depot
/-!
What the dummies of a process have on record, over any run of allocations and releases. The record
of a dummy's calls is the record of the requests, call by call; an allocation registers at most once,
and a release unregisters in its first step. Main statement: in every state that can be reached, a
dummy's registrations are the shared blocks outstanding on it, with those that calls in flight have
registered, every call that takes memory back succeeds, and no release aborts the process
(`Depot.accurate_of_run`).
-/
namespace StagingMemory

/-! ### Registering once -/

namespace Attach

def Over : Phase → Prop
  | .publishBytes _ | .publishJoined _ | .publishLive _ | .publishState _ | .finish _ | .undo _ _
  | .fail _ => True
  | _ => False

theorem Transition.over {a : Attach} {phase next : Phase} {s t : Site}
    (h : Transition a phase s (.running next) t) (hover : Over phase ∨ ∃ m, phase = .register m) :
    Over next := by
  cases h with
  | registered => split <;> trivial
  | unregistered | registerFatal | undoneError | bytesPublished | joinedPublished | livePublished
  | statePublished => trivial
  | _ => rcases hover with hover | ⟨m, hover⟩ <;> cases hover

end Attach

/-- A release unregisters in its first step and never again. -/
theorem Detach.Transition.ne_unregister {d : Detach} {phase next : Detach.Phase} {s t : Site}
    (h : Detach.Transition d phase s (.running next) t) : next ≠ .unregister := by
  cases h with
  | unregistered => split <;> simp
  | _ => simp

namespace Stage

def Over : Stage → Prop
  | calling (.attach _ phase) => Attach.Over phase
  | _ => True

def Waits (index : Nat) (stage : Stage) : Prop :=
  ∃ d : Detach, stage = calling (.detach d .unregister) ∧ d.device = .dummy index

theorem over_of_ne_attach {stage : Stage} (h : ∀ a phase, stage ≠ calling (.attach a phase)) :
    stage.Over := by
  unfold Over
  split
  case h_1 a phase => exact absurd rfl (h a phase)
  case h_2 => trivial

theorem over_step {c : Call} {s : Site}
    (h : (calling c).Over ∨ ∃ a m, c = .attach a (.register m)) :
    (after (c.step s).1).Over := by
  cases hprogress : (c.step s).1 with
  | done o => exact over_of_ne_attach fun a phase hstage => nomatch after_eq_calling hstage
  | running next =>
    cases next with
    | detach d phase => trivial
    | attach a next =>
      obtain ⟨phase, rfl, ht⟩ := Call.attach_of_step hprogress
      refine ht.over (h.imp_right ?_)
      rintro ⟨_, m, hc⟩
      cases hc
      exact ⟨m, rfl⟩

theorem not_waits_step (c : Call) (s : Site) (index : Nat) :
    ¬ (after (c.step s).1).Waits index := by
  rintro ⟨d, hstage, -⟩
  obtain ⟨phase, -, ht⟩ := Call.detach_of_step (after_eq_calling hstage)
  exact ht.ne_unregister rfl

end Stage

namespace Resource

theorem over_beginRelease (r : Resource) (block : Block) (s : Site) :
    (Stage.after (r.beginRelease block s).1).Over := by
  obtain ⟨strategy, device, account⟩ := r
  cases strategy with
  | pinned => exact Stage.over_of_ne_attach fun a phase h => nomatch Stage.after_eq_calling h
  | shared config => trivial

theorem waits_beginRelease_iff (r : Resource) (block : Block) (s : Site) (index : Nat) :
    (Stage.after (r.beginRelease block s).1).Waits index ↔
      r.kind = .shared ∧ r.device = .dummy index := by
  obtain ⟨strategy, device, account⟩ := r
  cases strategy with
  | pinned =>
    constructor
    · rintro ⟨d, h, -⟩
      cases Stage.after_eq_calling h
    · rintro ⟨h, -⟩
      cases h
  | shared config =>
    constructor
    · rintro ⟨d, h, hdevice⟩
      cases Stage.after_eq_calling h
      exact ⟨rfl, hdevice⟩
    · rintro ⟨-, hdevice⟩
      exact ⟨_, rfl, hdevice⟩

theorem not_waits_beginAllocate (r : Resource) (bytes : UInt64) (s : Site) (index : Nat) :
    ¬ (Stage.after (r.beginAllocate bytes s).1).Waits index := by
  rintro ⟨d, h, -⟩
  have hrunning := Stage.after_eq_calling h
  unfold beginAllocate at hrunning
  split at hrunning
  · cases hrunning
  · split at hrunning
    · cases hrunning
    case h_2 config _ =>
      generalize (⟨config, r.device, r.account, bytes⟩ : Attach) = a at hrunning
      simp only [Call.ofAttach] at hrunning
      cases hbegun : (a.begin s).1 <;> rw [hbegun] at hrunning <;> cases hrunning

end Resource

namespace Depot

variable {ι : Type v}

namespace Event

def Returns (index : Nat) : Event ι → Bool
  | given _ r _ => r.kind = .shared ∧ r.device = .dummy index
  | _ => false

def given? : Event ι → Option Block
  | given _ _ block => some block
  | _ => none

def Enlists (i : ι) (event : Event ι) : Prop :=
  ∃ a m, event = stepped i (.attach a (.register m))

end Event

/-! ### What the dummies have on record -/

variable {e e₀ next : Depot ι} {history : List (Event ι)}

/-- Each dummy has on record the calls that came with what happened, in order. -/
def Recorded (e : Depot ι) (history : List (Event ι)) : Prop :=
  ∀ index, (e.site.process.dummy index).history = history.filterMap (Event.call? index)

/-- The slot has a shared block outstanding that came from a resource on the dummy. -/
def Holds (e : Depot ι) (index : Nat) (i : ι) (block : Block) : Prop :=
  (e.slot i).stage = .holding block ∧ (e.slot i).source.kind = .shared ∧
    (e.slot i).source.device = .dummy index

/-- What can be said of the dummies when this happened. -/
structure Accurate (e : Depot ι) (history : List (Event ι)) : Prop where
  /-- No call has aborted the process. -/
  ne_halted : ∀ i, (e.slot i).stage ≠ .halted
  /-- The registrations are the ranges that the slots have registered. -/
  registration?_eq_some_iff : ∀ index address entry,
    (e.site.process.dummy index).registration? address = some entry ↔
      ∃ i block, e.Registers index i block ∧ address = block.address ∧
        entry = (block.bytes, .portable)
  /-- While no call is in flight, these are the shared blocks that are outstanding. -/
  outstanding : (∀ i c, (e.slot i).stage ≠ .calling c) → ∀ index address entry,
    (e.site.process.dummy index).registration? address = some entry ↔
      ∃ i block, e.Holds index i block ∧ address = block.address ∧
        entry = (block.bytes, .portable)
  /-- What is about to be unregistered can be. -/
  unregisters : ∀ i d, (e.slot i).stage = .calling (.detach d .unregister) →
    (d.device.unregister e.site.process d.block.address d.block.bytes).1 = .ok ()
  /-- Pinned memory that is outstanding can be given back. -/
  frees : ∀ i block, (e.slot i).stage = .holding block → (e.slot i).source.kind = .pinned →
    ((e.slot i).source.device.free e.site.process block.address block.bytes).1 = .ok ()
  /-- A dummy's calls are those that came with what happened. -/
  calls_eq : ∀ index call, (e.site.process.dummy index).calls call =
    history.countP fun event => event.call? index = some call
  /-- An allocation registers at most once. -/
  asked_between : ∀ i later mid earlier first second,
    history = later ++ second :: (mid ++ first :: earlier) → Event.Enlists i first →
      Event.Enlists i second → ∃ r bytes, Event.asked i r bytes ∈ mid
  /-- A shared block that is given back is unregistered, unless it still waits to be. -/
  returns_eq : ∀ index, ∃ waiting : Finset ι,
    (∀ i, i ∈ waiting ↔ (e.slot i).stage.Waits index) ∧
      history.countP (Event.Returns index) =
        (e.site.process.dummy index).calls .unregister + waiting.card

theorem Recorded.calls_eq (h : e.Recorded history) (index : Nat) (call : DeviceCall) :
    (e.site.process.dummy index).calls call =
      history.countP fun event => event.call? index = some call := by
  rw [DummyDevice.calls, h index, List.count, List.countP_filterMap]
  refine List.countP_congr fun event _ => ?_
  cases event.call? index <;> simp

theorem registers_iff_holds (h : e.Sound) (hquiet : ∀ i c, (e.slot i).stage ≠ .calling c)
    (index : Nat) (i : ι) (block : Block) :
    e.Registers index i block ↔ e.Holds index i block := by
  simp only [Registers, Holds, Slot.registered?]
  cases hstage : (e.slot i).stage with
  | calling c => exact absurd hstage (hquiet i c)
  | halted => exact absurd hstage (h.slots i).ne_halted
  | idle | holding => cases (e.slot i).source.kind <;> simp [Stage.registered?]

theorem Sound.unregisters (h : e.Sound) {i : ι} {d : Detach}
    (hcalling : (e.slot i).stage = .calling (.detach d .unregister)) :
    (d.device.unregister e.site.process d.block.address d.block.bytes).1 = .ok () := by
  obtain ⟨index, -, hsource⟩ := (h.slots i).device (by simp [hcalling])
  have hdevice : d.device = .dummy index := ((h.slots i).calls _ hcalling).1.trans hsource
  have hshared := (h.slots i).shared_of_calling hcalling
  have hregistered : e.Registers index i d.block :=
    ⟨by simp only [Slot.registered?, hshared, hcalling]; rfl, hsource⟩
  have hentry := (h.registration?_eq_some_iff index d.block.address _).mpr
    ⟨i, d.block, hregistered, rfl, rfl⟩
  rw [hdevice, Device.unregister,
    DummyDevice.unregister_of_registered hentry (h.answers index).2]

theorem Sound.frees (h : e.Sound) {i : ι} {block : Block}
    (hholding : (e.slot i).stage = .holding block) (hpinned : (e.slot i).source.kind = .pinned) :
    ((e.slot i).source.device.free e.site.process block.address block.bytes).1 = .ok () := by
  obtain ⟨index, -, hsource⟩ := (h.slots i).device (by simp [hholding])
  rw [hsource, Device.free,
    Process.dummyFree_eq (h.answers index).1 ((h.slots i).fits hpinned hholding)]

/-! ### Events in order -/

variable [DecidableEq ι]

/-- What happened before an event led to where it happened. -/
theorem Run.before (hrun : Run e₀ history e) {later earlier : List (Event ι)} {event : Event ι}
    (h : history = later ++ event :: earlier) :
    ∃ before after, Run e₀ earlier before ∧ before.Step (some event) after := by
  induction hrun generalizing later with
  | start => simp at h
  | @step history e next recent hrun hstep ih =>
    cases recent with
    | none => exact ih h
    | some recent =>
      cases later with
      | nil =>
        obtain ⟨rfl, rfl⟩ := List.cons.inj h
        exact ⟨e, next, hrun, hstep⟩
      | cons head later => exact ih (List.cons.inj h).2

/-- Once a slot's call has registered, it does not again; only another allocation may. -/
theorem over_of_enlisted (hrun : Run e₀ history e) {i : ι} {later earlier : List (Event ι)}
    {event : Event ι} (h : history = later ++ event :: earlier) (henlists : event.Enlists i)
    (hsince : ∀ r bytes, Event.asked i r bytes ∉ later) : (e.slot i).stage.Over := by
  induction hrun generalizing later with
  | start => simp at h
  | @step history e next recent hrun hstep ih =>
    cases recent with
    | none =>
      have hover := ih h hsince
      cases hstep <;> exact hover
    | some recent =>
      cases later with
      | nil =>
        obtain ⟨rfl, rfl⟩ := List.cons.inj h
        obtain ⟨a, m, rfl⟩ := henlists
        cases hstep with
        | access =>
          rw [slot_settle_self]
          exact Stage.over_step (Or.inr ⟨a, m, rfl⟩)
      | cons head later =>
        obtain ⟨rfl, hearlier⟩ := List.cons.inj h
        have hover := ih hearlier fun r bytes hmem => hsince r bytes (List.mem_cons_of_mem _ hmem)
        cases hstep with
        | allocate j r bytes =>
          by_cases hij : i = j
          · subst hij
            exact absurd List.mem_cons_self (hsince r bytes)
          · rw [slot_settle_of_ne hij]
            exact hover
        | release j r block =>
          by_cases hij : i = j
          · subst hij
            rw [slot_settle_self]
            exact r.over_beginRelease block e.site
          · rw [slot_settle_of_ne hij]
            exact hover
        | access j c hcalling =>
          by_cases hij : i = j
          · subst hij
            rw [slot_settle_self]
            exact Stage.over_step (Or.inl (hcalling ▸ hover))
          · rw [slot_settle_of_ne hij]
            exact hover

/-- Between two registrations in a slot another allocation was asked for. -/
theorem asked_between (hrun : Run e₀ history e) {i : ι} {later mid earlier : List (Event ι)}
    {first second : Event ι} (h : history = later ++ second :: (mid ++ first :: earlier))
    (hfirst : first.Enlists i) (hsecond : second.Enlists i) :
    ∃ r bytes, Event.asked i r bytes ∈ mid := by
  by_contra hnone
  have hsince : ∀ r bytes, Event.asked i r bytes ∉ mid := fun r bytes hmem =>
    hnone ⟨r, bytes, hmem⟩
  obtain ⟨before, after, hbefore, hstep⟩ := hrun.before h
  have hover := over_of_enlisted hbefore rfl hfirst hsince
  obtain ⟨a, m, rfl⟩ := hsecond
  cases hstep with
  | access _ _ hcalling =>
    rw [hcalling] at hover
    exact hover

/-! ### Along a run -/

theorem Recorded.step (h : e.Recorded history) (hsound : e.Sound) {event : Option (Event ι)}
    (hstep : e.Step event next) : next.Recorded (event.toList ++ history) := by
  intro other
  cases event with
  | some event =>
    obtain ⟨i, source, result, index, call?, rfl, hacted, hcall⟩ := hsound.acted_of_step hstep
    have hhistory := hacted.dials.history_eq hacted.index_lt other
    rw [← hcall other, h other] at hhistory
    refine hhistory.trans ?_
    cases hevent : event.call? other <;> simp [hevent]
  | none =>
    refine Eq.trans ?_ (h other)
    cases hstep with
    | switch index failing hfree hunregister =>
      rw [Process.dummy_modifyDummy]
      split
      case isTrue hother => rw [← hother.1]
      case isFalse => rfl
    | add memory =>
      rcases e.site.process.dummy_addDummy memory other with hsame | ⟨hold, hnew⟩
      · rw [hsame]
      · rw [hold, hnew]
        rfl
    | elsewhere s hdummies hpages => rw [Process.dummy, hdummies, Process.dummy]

theorem recorded_of_run (hrun : Run e₀ history e) (hvacant : e₀.Vacant) : e.Recorded history := by
  induction hrun with
  | start => exact hvacant.history_eq
  | step hrun hstep ih => exact ih.step (hvacant.sound.run hrun) hstep

open Classical in
/-- A shared block that is given back waits to be unregistered, or is unregistered. -/
theorem waits_of_step {event : Event ι} (hstep : e.Step (some event) next) (index : Nat) :
    ∃ j, (∀ i, i ≠ j → next.slot i = e.slot i) ∧
      (if event.Returns index then 1 else 0) + (if (e.slot j).stage.Waits index then 1 else 0) =
        (if event.call? index = some .unregister then 1 else 0) +
          if (next.slot j).stage.Waits index then 1 else 0 := by
  cases hstep with
  | allocate j r bytes _ hidle =>
    refine ⟨j, fun i hij => slot_settle_of_ne hij .., ?_⟩
    have hbefore : ¬ (e.slot j).stage.Waits index := by
      rintro ⟨d, hd, -⟩
      rw [hidle] at hd
      cases hd
    have hafter := r.not_waits_beginAllocate bytes e.site index
    have hcall : (Event.asked j r bytes).call? index ≠ some .unregister := by
      simp [Event.call?]
    simp only [slot_settle_self, hbefore, hafter, hcall, Event.Returns]
    rfl
  | release j r block hholding =>
    refine ⟨j, fun i hij => slot_settle_of_ne hij .., ?_⟩
    have hbefore : ¬ (e.slot j).stage.Waits index := by
      rintro ⟨d, hd, -⟩
      rw [hholding] at hd
      cases hd
    have hafter := r.waits_beginRelease_iff block e.site index
    have hcall : (Event.given j r block).call? index ≠ some .unregister := by
      simp [Event.call?]
    simp only [slot_settle_self, hbefore, hafter, hcall, Event.Returns, decide_eq_true_eq]
    omega
  | access j c hcalling =>
    refine ⟨j, fun i hij => slot_settle_of_ne hij .., ?_⟩
    have hafter := Stage.not_waits_step c e.site index
    have hbefore : (e.slot j).stage.Waits index ↔
        (Event.stepped j c).call? index = some .unregister := by
      rw [hcalling]
      constructor
      · rintro ⟨d, hd, hdevice⟩
        cases hd
        exact if_pos hdevice
      · intro hcall
        obtain ⟨hdevice, hcall⟩ := Option.ite_none_right_eq_some.mp hcall
        rcases c with ⟨a, phase⟩ | ⟨d, phase⟩ <;> cases phase <;> cases hcall
        exact ⟨d, rfl, hdevice⟩
    simp [hbefore, hafter, Event.Returns]

open Classical in
/-- The shared blocks given back to a dummy's resources are those it was asked to unregister, and
those that are about to be. -/
theorem waiting_of_run (hrun : Run e₀ history e) (hvacant : e₀.Vacant) (index : Nat) :
    ∃ waiting : Finset ι, (∀ i, i ∈ waiting ↔ (e.slot i).stage.Waits index) ∧
      history.countP (Event.Returns index) =
        history.countP (fun event => event.call? index = some .unregister) + waiting.card := by
  induction hrun with
  | start =>
    refine ⟨∅, fun i => ?_, rfl⟩
    rw [hvacant.idle i]
    simp [Stage.Waits]
  | @step history e next event hrun hstep ih =>
    obtain ⟨waiting, hwaiting, hcount⟩ := ih
    cases event with
    | none => cases hstep <;> exact ⟨waiting, hwaiting, hcount⟩
    | some event =>
      obtain ⟨j, hothers, hbalance⟩ := waits_of_step hstep index
      have hsame : ∀ i, i ≠ j →
          ((next.slot i).stage.Waits index ↔ (e.slot i).stage.Waits index) := fun i hij => by
        rw [hothers i hij]
      obtain ⟨after, hafter, hsum⟩ := exists_following hwaiting j hsame
      have hcard := hsum (fun _ => 1) (fun _ => 1) fun _ _ => rfl
      rw [← Finset.card_eq_sum_ones, ← Finset.card_eq_sum_ones] at hcard
      refine ⟨after, hafter, ?_⟩
      simp only [Option.toList_some, List.singleton_append, List.countP_cons, decide_eq_true_eq]
      omega

/-- In every state that any run of requests can reach, the dummies have exactly the outstanding
shared blocks registered and exactly the calls on record that the requests made, and take back
everything. -/
theorem accurate_of_run (hrun : Run e₀ history e) (hvacant : e₀.Vacant) : e.Accurate history := by
  have hsound := hvacant.sound.run hrun
  have hrecorded := recorded_of_run hrun hvacant
  refine ⟨fun i => (hsound.slots i).ne_halted, hsound.registration?_eq_some_iff,
    fun hquiet index address entry => ?_, fun i d => hsound.unregisters,
    fun i block => hsound.frees, hrecorded.calls_eq,
    fun i later mid earlier first second => asked_between hrun, fun index => ?_⟩
  · simp only [hsound.registration?_eq_some_iff, registers_iff_holds hsound hquiet]
  · obtain ⟨waiting, hwaiting, hcount⟩ := waiting_of_run hrun hvacant index
    exact ⟨waiting, hwaiting, hrecorded.calls_eq index .unregister ▸ hcount⟩

/-! ### Schedules -/

inductive Order (ι : Type v) where
  | allocate (i : ι) (r : Resource) (bytes : UInt64)
  | release (i : ι) (r : Resource)
  | access (i : ι)
  | switch (failing : List DeviceCall)
  /-- All addresses are free again, if none is in use. -/
  | renew

def obey [Fintype ι] (e : Depot ι) : Order ι → Option (Option (Event ι) × Depot ι)
  | .allocate i r bytes =>
    match (e.slot i).stage with
    | .idle =>
      if r.device = .dummy 0 ∧ 0 < e.site.process.dummies.length then
        some (some (.asked i r bytes), e.settle i r (r.beginAllocate bytes e.site))
      else none
    | _ => none
  | .release i r =>
    match (e.slot i).stage with
    | .holding block =>
      if r.kind = (e.slot i).source.kind ∧ r.device = (e.slot i).source.device then
        some (some (.given i r block), e.settle i r (r.beginRelease block e.site))
      else none
    | _ => none
  | .access i =>
    match (e.slot i).stage with
    | .calling c =>
      if c.Roomy e.site then
        some (some (.stepped i c), e.settle i (e.slot i).source (c.step e.site))
      else none
    | _ => none
  | .switch failing =>
    if .free ∉ failing ∧ .unregister ∉ failing then
      some (none, { e with site.process := e.site.process.modifyDummy 0 fun _ =>
        { e.site.process.dummy 0 with failing } })
    else none
  | .renew =>
    if ∀ i, (e.slot i).span? e.site = none then
      some (none, { e with site.process.space := .fresh })
    else none

theorem step_of_obey [Fintype ι] {order : Order ι} {event : Option (Event ι)}
    (h : e.obey order = some (event, next)) : e.Step event next := by
  cases order with
  | allocate i r bytes =>
    simp only [obey] at h
    split at h
    case h_1 hidle =>
      obtain ⟨⟨hdevice, hindex⟩, h⟩ := Option.ite_none_right_eq_some.mp h
      cases h
      exact .allocate i r bytes 0 hidle hdevice hindex
    case h_2 => cases h
  | release i r =>
    simp only [obey] at h
    split at h
    case h_1 block hholding =>
      obtain ⟨⟨hkind, hdevice⟩, h⟩ := Option.ite_none_right_eq_some.mp h
      cases h
      exact .release i r block hholding hkind hdevice
    case h_2 => cases h
  | access i =>
    simp only [obey] at h
    split at h
    case h_1 c hcalling =>
      obtain ⟨hroomy, h⟩ := Option.ite_none_right_eq_some.mp h
      cases h
      exact .access i c hcalling hroomy
    case h_2 => cases h
  | switch failing =>
    obtain ⟨⟨hfree, hunregister⟩, h⟩ := Option.ite_none_right_eq_some.mp h
    cases h
    exact .switch 0 failing hfree hunregister
  | renew =>
    obtain ⟨hunused, h⟩ := Option.ite_none_right_eq_some.mp h
    cases h
    refine .elsewhere _ rfl fun i span hspan => ?_
    rw [hunused i] at hspan
    cases hspan

def play [Fintype ι] : List (Order ι) → List (Event ι) × Depot ι →
    Option (List (Event ι) × Depot ι)
  | [], reached => some reached
  | order :: rest, (history, e) =>
    (e.obey order).bind fun (event, next) => play rest (event.toList ++ history, next)

theorem run_of_play [Fintype ι] (hrun : Run e₀ history e) (orders : List (Order ι))
    {reached : List (Event ι) × Depot ι} (h : play orders (history, e) = some reached) :
    Run e₀ reached.1 reached.2 := by
  induction orders generalizing history e with
  | nil =>
    cases h
    exact hrun
  | cons order rest ih =>
    simp only [play, Option.bind_eq_some_iff] at h
    obtain ⟨⟨event, next⟩, hobey, h⟩ := h
    exact ih (.step hrun (step_of_obey hobey)) h

def registering : Resource := ⟨.shared (Machine.sample () id).config, .dummy 0, 0⟩

def hasty : Resource :=
  ⟨.shared { (Machine.sample () id).config with teardownTimeout := ⟨0⟩ }, .dummy 0, 0⟩

def stranger : Resource :=
  ⟨.shared { (Machine.sample () id).config with segment := ⟨"/other", by decide⟩ }, .dummy 0, 0⟩

def begun : Depot Bool where
  site := ⟨.initial [1] 0, ((Process.fresh 1).openAccount.2.addDummy .none).2⟩
  slot _ := ⟨.idle, registering⟩

theorem vacant_begun : begun.Vacant := by
  have hnew : ∀ index, begun.site.process.dummy index = default ∨
      begun.site.process.dummy index = .withMemory .none := fun index => by
    rcases Process.dummy_addDummy (Process.fresh 1).openAccount.2 .none index with h | ⟨-, h⟩
    · exact Or.inl h
    · exact Or.inr h
  refine ⟨fun _ => rfl, fun index => ?_, fun index address => ?_, fun index => ?_⟩ <;>
    rcases hnew index with h | h <;> rw [h]
  · rfl
  · rfl
  · rfl
  · rfl
  · exact ⟨by decide, by decide⟩
  · exact ⟨by decide, by decide⟩

/-- A shared block is allocated; another leader cannot register; pinned memory comes and goes; the
shared block goes back through another resource; and its address is handed out again. -/
def exchange : List (Order Bool) :=
  .allocate false registering 4096 :: List.replicate 10 (.access false) ++
  .switch [.register] :: .allocate true stranger 4096 :: List.replicate 7 (.access true) ++
  .switch [] :: .allocate true ⟨.pinned, .dummy 0, 0⟩ 100 :: .release true ⟨.pinned, .dummy 0, 0⟩ ::
  .release false hasty :: List.replicate 6 (.access false) ++
  .renew :: .allocate false registering 8192 :: List.replicate 10 (.access false)

/-- The address that was registered with one length is registered with another, and the dummy has six
calls on record. -/
theorem accurate_of_run_exchange : ∃ (history : List (Event Bool)) (e : Depot Bool) (address : Nat),
    begun.Vacant ∧ Run begun history e ∧
      history.filterMap Event.given? = [⟨address, 4096⟩, ⟨address + 5 * Page.size, 100⟩] ∧
      (e.site.process.dummy 0).registration? address = some (8192, .portable) ∧
      (e.site.process.dummy 0).history =
        [.register, .unregister, .free, .allocate, .register, .register] ∧
      e.Accurate history := by
  obtain ⟨⟨history, e⟩, hplay, hreached⟩ := Option.map_eq_some_iff.mp
    (by decide +kernel :
      (play exchange ([], begun)).map (fun (history, e) => (history.filterMap Event.given?,
          (e.site.process.dummy 0).registration? ((Memory.AddressSpace.firstPage + 1) * Page.size),
          (e.site.process.dummy 0).history)) =
        some ([⟨(Memory.AddressSpace.firstPage + 1) * Page.size, 4096⟩,
            ⟨(Memory.AddressSpace.firstPage + 6) * Page.size, 100⟩], some (8192, .portable),
          [.register, .unregister, .free, .allocate, .register, .register]))
  simp only [Prod.mk.injEq] at hreached
  obtain ⟨hgiven, hregistered, hrecord⟩ := hreached
  have hrun := run_of_play .start _ hplay
  exact ⟨history, e, _, vacant_begun, hrun, hgiven, hregistered, hrecord,
    accurate_of_run hrun vacant_begun⟩

end Depot

end StagingMemory
