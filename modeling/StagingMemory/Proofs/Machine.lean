import Mathlib.Data.Fintype.Basic
import Mathlib.Logic.Function.Basic
import StagingMemory.Proofs.Transition
import StagingMemory.Resource.Call
/-!
A machine on which members of groups allocate and release shared memory: processes on one kernel,
and in each process any number of members, each a resource with at most one call in flight or one
block outstanding. A resource with several blocks is several members. In one step one call makes
one access, or a call begins, or the world outside moves. Main statement: along every run each
member's mapping is there, in one piece and shared with no other member (`Machine.sound_of_run`).
-/
namespace StagingMemory

/-- A resource on shared memory in one of the machine's processes. -/
structure Member (κ : Type u) where
  home : κ
  config : SharingConfig
  device : Device
  account : Nat

def Member.resource (r : Member κ) : Resource := ⟨.shared r.config, r.device, r.account⟩

/-- Where a member is between two blocks. -/
inductive Stage where
  | idle
  | calling (c : Call)
  | holding (block : Block)
  /-- A call aborted the process. -/
  | halted

def Stage.after : Progress Call Reply → Stage
  | .running c => calling c
  | .done (.returned (.allocated (some block))) => holding block
  | .done .aborted => halted
  | .done _ => idle

def Stage.block? : Stage → Option Block
  | holding block => some block
  | _ => none

theorem Stage.eq_holding_of_block?_eq_some {stage : Stage} {block : Block}
    (h : stage.block? = some block) : stage = .holding block := by
  cases stage with
  | holding => rw [Option.some.inj h]
  | _ => cases h

theorem Stage.after_eq_calling {progress : Progress Call Reply} {c : Call}
    (h : after progress = calling c) : progress = .running c := by
  unfold after at h
  split at h <;> cases h
  rfl

theorem Stage.after_eq_holding {progress : Progress Call Reply} {block : Block}
    (h : after progress = holding block) :
    progress = .done (.returned (.allocated (some block))) := by
  unfold after at h
  split at h <;> cases h
  rfl

structure Machine (κ : Type u) (ι : Type v) where
  kernel : Kernel
  process : κ → Process
  stage : ι → Stage

/-- One access by a member's call to what the processes share. -/
structure Access (ι : Type v) where
  member : ι
  call : Call

namespace Process

/-- What else may happen in a process: anything that leaves mapped segments alone. -/
structure Moves (p q : Process) : Prop where
  pid_eq : q.pid = p.pid
  page?_eq : ∀ page id origin, p.space.page? page = some (.segment id, origin) →
    q.space.page? page = some (.segment id, origin)
  nextPage_le : p.space.nextPage ≤ q.space.nextPage

end Process

namespace Machine

variable {κ : Type u} {ι : Type v} [DecidableEq κ] [DecidableEq ι]

def site (m : Machine κ ι) (home : κ) : Site := ⟨m.kernel, m.process home⟩

def Alive (m : Machine κ ι) : Prop :=
  ∀ home, m.kernel.processAlive (m.process home).pid = true

instance [Fintype κ] : DecidablePred (Alive (κ := κ) (ι := ι)) := fun m =>
  inferInstanceAs (Decidable (∀ home, m.kernel.processAlive (m.process home).pid = true))

def settle (m : Machine κ ι) (roster : ι → Member κ) (i : ι)
    (result : Progress Call Reply × Site) : Machine κ ι where
  kernel := result.2.kernel
  process := Function.update m.process (roster i).home result.2.process
  stage := Function.update m.stage i (.after result.1)

inductive Step (roster : ι → Member κ) : Machine κ ι → Option (Access ι) → Machine κ ι → Prop
  | allocate {m : Machine κ ι} (i : ι) (bytes : UInt64) (h : m.stage i = .idle) :
      Step roster m none
        (m.settle roster i ((roster i).resource.beginAllocate bytes (m.site (roster i).home)))
  | release {m : Machine κ ι} (i : ι) (block : Block) (h : m.stage i = .holding block) :
      Step roster m none
        (m.settle roster i ((roster i).resource.beginRelease block (m.site (roster i).home)))
  | access {m : Machine κ ι} (i : ι) (c : Call) (h : m.stage i = .calling c) :
      Step roster m (some ⟨i, c⟩) (m.settle roster i (c.step (m.site (roster i).home)))
  | elapse {m : Machine κ ι} (clock : Nat) :
      Step roster m none { m with kernel := { m.kernel with clock } }
  | populate {m : Machine κ ι} (alive : List UInt32) :
      Step roster m none { m with kernel := { m.kernel with alive } }
  | move {m : Machine κ ι} (home : κ) (p : Process) (h : (m.process home).Moves p) :
      Step roster m none { m with process := Function.update m.process home p }

/-- Any steps one after the other, through machines that satisfy `Allowed`; the accesses they made
are listed newest first. -/
inductive Run (roster : ι → Member κ) (Allowed : Machine κ ι → Prop) (m₀ : Machine κ ι) :
    List (Access ι) → Machine κ ι → Prop
  | start (h : Allowed m₀) : Run roster Allowed m₀ [] m₀
  | step {history : List (Access ι)} {m next : Machine κ ι} {access : Option (Access ι)}
      (hrun : Run roster Allowed m₀ history m) (hstep : Step roster m access next)
      (h : Allowed next) : Run roster Allowed m₀ (access.toList ++ history) next

theorem Run.allowed {roster : ι → Member κ} {Allowed : Machine κ ι → Prop} {m₀ m : Machine κ ι}
    {history : List (Access ι)} (hrun : Run roster Allowed m₀ history m) : Allowed m := by
  cases hrun with
  | start h => exact h
  | step _ _ h => exact h

theorem Run.mono {roster : ι → Member κ} {Allowed Allowed' : Machine κ ι → Prop}
    {m₀ m : Machine κ ι} {history : List (Access ι)} (hrun : Run roster Allowed m₀ history m)
    (h : ∀ m, Allowed m → Allowed' m) : Run roster Allowed' m₀ history m := by
  induction hrun with
  | start hallowed => exact .start (h _ hallowed)
  | step _ hstep hallowed ih => exact .step ih hstep (h _ hallowed)

/-- One run after the other is a run. -/
theorem Run.trans {roster : ι → Member κ} {Allowed : Machine κ ι → Prop} {m₀ m last : Machine κ ι}
    {earlier later : List (Access ι)} (hrun : Run roster Allowed m₀ earlier m)
    (hlater : Run roster Allowed m later last) : Run roster Allowed m₀ (later ++ earlier) last := by
  induction hlater with
  | start => exact hrun
  | step _ hstep hallowed ih =>
    rw [List.append_assoc]
    exact .step ih hstep hallowed

/-! ### Schedules -/

def sample (home : κ) (change : SharingConfig → SharingConfig) : Member κ where
  home
  config := change (.ofSegment ⟨"/group", by decide⟩)
  device := .host .disabled
  account := 0

def fresh (pid : κ → UInt32) (alive : List UInt32) : Machine κ ι where
  kernel := .initial alive 0
  process home := (Process.fresh (pid home)).openAccount.2
  stage _ := .idle

inductive Order (ι : Type v) where
  | allocate (i : ι) (bytes : UInt64)
  | release (i : ι)
  | access (i : ι)

def obey (m : Machine κ ι) (roster : ι → Member κ) :
    Order ι → Option (Option (Access ι) × Machine κ ι)
  | .allocate i bytes =>
    match m.stage i with
    | .idle => some (none,
        m.settle roster i ((roster i).resource.beginAllocate bytes (m.site (roster i).home)))
    | _ => none
  | .release i =>
    match m.stage i with
    | .holding block => some (none,
        m.settle roster i ((roster i).resource.beginRelease block (m.site (roster i).home)))
    | _ => none
  | .access i =>
    match m.stage i with
    | .calling c => some (some ⟨i, c⟩, m.settle roster i (c.step (m.site (roster i).home)))
    | _ => none

theorem step_of_obey {m next : Machine κ ι} {roster : ι → Member κ} {order : Order ι}
    {access : Option (Access ι)} (h : m.obey roster order = some (access, next)) :
    Step roster m access next := by
  cases order with
  | allocate i bytes =>
    simp only [obey] at h
    split at h
    case h_1 hidle =>
      cases h
      exact .allocate i bytes hidle
    case h_2 => cases h
  | release i =>
    simp only [obey] at h
    split at h
    case h_1 block hholding =>
      cases h
      exact .release i block hholding
    case h_2 => cases h
  | access i =>
    simp only [obey] at h
    split at h
    case h_1 c hcalling =>
      cases h
      exact .access i c hcalling
    case h_2 => cases h

def play (roster : ι → Member κ) (Allowed : Machine κ ι → Prop) [DecidablePred Allowed] :
    List (Order ι) → List (Access ι) × Machine κ ι → Option (List (Access ι) × Machine κ ι)
  | [], reached => some reached
  | order :: rest, (history, m) =>
    (m.obey roster order).bind fun (access, next) =>
      if Allowed next then play roster Allowed rest (access.toList ++ history, next) else none

/-- A schedule carried out is a run. -/
theorem run_of_play {roster : ι → Member κ} {Allowed : Machine κ ι → Prop}
    [DecidablePred Allowed] {m₀ m : Machine κ ι} {history : List (Access ι)}
    (hrun : Run roster Allowed m₀ history m) (orders : List (Order ι))
    {reached : List (Access ι) × Machine κ ι}
    (h : play roster Allowed orders (history, m) = some reached) :
    Run roster Allowed m₀ reached.1 reached.2 := by
  induction orders generalizing history m with
  | nil =>
    cases h
    exact hrun
  | cons order rest ih =>
    simp only [play, Option.bind_eq_some_iff] at h
    obtain ⟨⟨access, next⟩, hobey, h⟩ := h
    split at h
    case isTrue hallowed => exact ih (.step hrun (step_of_obey hobey) hallowed) h
    case isFalse => cases h

end Machine

/-! ### Steps of a call -/

theorem Call.attach_of_step {c : Call} {s : Site} {a : Attach} {next : Attach.Phase}
    (h : (c.step s).1 = .running (.attach a next)) :
    ∃ phase, c = .attach a phase ∧ Attach.Transition a phase s (.running next) (c.step s).2 := by
  cases c with
  | detach d phase =>
    simp only [step, ofDetach] at h
    cases hd : (d.step phase s).1 <;> rw [hd] at h <;> cases h
  | attach b phase =>
    have ht := b.step_transition phase s
    simp only [step, ofAttach] at h
    cases hb : (b.step phase s).1 with
    | done o =>
      rw [hb] at h
      cases h
    | running after =>
      rw [hb] at h ht
      cases h
      exact ⟨phase, rfl, ht⟩

theorem Call.detach_of_step {c : Call} {s : Site} {d : Detach} {next : Detach.Phase}
    (h : (c.step s).1 = .running (.detach d next)) :
    ∃ phase, c = .detach d phase ∧ Detach.Transition d phase s (.running next) (c.step s).2 := by
  cases c with
  | attach a phase =>
    simp only [step, ofAttach] at h
    cases ha : (a.step phase s).1 <;> rw [ha] at h <;> cases h
  | detach e phase =>
    have ht := e.step_transition phase s
    simp only [step, ofDetach] at h
    cases he : (e.step phase s).1 with
    | done o =>
      rw [he] at h
      cases h
    | running after =>
      rw [he] at h ht
      cases h
      exact ⟨phase, rfl, ht⟩

/-! ### First phases -/

inductive Attach.First (a : Attach) : Attach.Phase → Prop
  | findLeftover (hrole : a.config.isLeader = true) : First a .findLeftover
  | create (hrole : a.config.isLeader = true) : First a .create
  | find (hrole : a.config.isLeader = false) (w : Wait) : First a (.find w)
  | fail (error : AllocationError) : First a (.fail error)

/-- Beginning an allocation touches nothing. -/
theorem Member.beginAllocate_spec {κ : Type u} (r : Member κ) (bytes : UInt64) (s : Site) :
    (∃ phase, (⟨r.config, r.device, r.account, bytes⟩ : Attach).First phase ∧
      r.resource.beginAllocate bytes s =
        (.running (.attach ⟨r.config, r.device, r.account, bytes⟩ phase), s)) ∨
    ∃ o, r.resource.beginAllocate bytes s = (.done o, s) ∧ Stage.after (.done o) = .idle := by
  unfold Resource.beginAllocate Member.resource
  split
  · exact Or.inr ⟨_, rfl, rfl⟩
  · dsimp only
    unfold Attach.begin
    split
    · exact Or.inl ⟨_, .fail _, rfl⟩
    · split
      case isTrue hrole =>
        by_cases hreclaim : r.config.reclaimStale
        · exact Or.inl ⟨_, .findLeftover hrole, by simp [Call.ofAttach, hreclaim]⟩
        · exact Or.inl ⟨_, .create hrole, by simp [Call.ofAttach, hreclaim]⟩
      case isFalse hrole =>
        split
        · exact Or.inl ⟨_, .find (Bool.not_eq_true _ ▸ hrole) _, rfl⟩
        · exact Or.inr ⟨_, rfl, rfl⟩

theorem Member.beginAllocate_site {κ : Type u} (r : Member κ) (bytes : UInt64) (s : Site) :
    (r.resource.beginAllocate bytes s).2 = s := by
  rcases r.beginAllocate_spec bytes s with ⟨phase, -, heq⟩ | ⟨o, heq, -⟩ <;> rw [heq]

/-! ### Mappings of members -/

namespace Attach

def mapping? : Phase → Option Mapping
  | .checkLeftover m | .retireLeftover m | .claim m | .checkReady _ m | .checkOwner _ m
  | .checkLength _ m | .raiseLive _ m | .recheck _ m | .withdraw _ m | .raiseJoined m
  | .register m | .undo m _ | .publishBytes m | .publishJoined m | .publishLive m
  | .publishState m | .finish m => some m
  | _ => none

def segment? : Phase → Option SegmentId
  | .measureLeftover id | .mapLeftover id | .resize id | .map id | .measure _ id
  | .mapFound _ id _ => some id
  | phase => (mapping? phase).map Mapping.segment

/-- The phase is one of a member in this role, and its mapping is as long as it should be. -/
def Suits (a : Attach) : Phase → Prop
  | .findLeftover | .measureLeftover _ | .mapLeftover _ | .checkLeftover _ | .retireLeftover _
  | .removeLeftover | .reportLeftover | .create | .resize _ | .map _ | .discard _ =>
    a.config.isLeader = true
  | .claim m | .publishBytes m | .publishJoined m | .publishLive m | .publishState m =>
    a.config.isLeader = true ∧ m.length = a.total
  | .find _ | .measure _ _ | .mapFound _ _ _ | .checkReady _ _ | .checkOwner _ _
  | .checkLength _ _ | .missed _ | .pause _ _ => a.config.isLeader = false
  | .raiseLive _ m | .recheck _ m | .withdraw _ m | .raiseJoined m =>
    a.config.isLeader = false ∧ m.length = a.total
  | .register m | .undo m _ | .finish m => m.length = a.total
  | .fail _ => True

end Attach

namespace Detach

def mapping? : Phase → Option Mapping
  | .unregister => none
  | .gather m | .readJoined _ m | .readLive _ m _ | .missed _ m _ _ | .pause _ m _ | .retire m _
  | .unlink m _ | .leave m _ _ | .close m _ _ => some m

def Suits (d : Detach) : Phase → Prop
  | .unregister | .leave _ _ _ | .close _ _ _ => True
  | _ => d.config.isLeader = true

end Detach

/-- The mapping that the call has; before it unregistered, the one of the block it releases. -/
def Call.mapping? (s : Site) : Call → Option Mapping
  | attach _ phase => Attach.mapping? phase
  | detach d .unregister => s.mappingOf? d.block
  | detach _ phase => Detach.mapping? phase

namespace Stage

def mapping? (s : Site) : Stage → Option Mapping
  | calling c => c.mapping? s
  | holding block => s.mappingOf? block
  | _ => none

def segment? (s : Site) : Stage → Option SegmentId
  | calling (.attach _ phase) => Attach.segment? phase
  | stage => (stage.mapping? s).map Mapping.segment

def Suits (config : SharingConfig) (s : Site) : Stage → Prop
  | calling (.attach a phase) => a.config = config ∧ a.Suits phase
  | calling (.detach d phase) =>
    d.config = config ∧ d.Suits phase ∧ (phase = .unregister → ∃ m, s.mappingOf? d.block = some m)
  | holding block => ∃ m, s.mappingOf? block = some m
  | _ => True

end Stage

structure Mapping.Placed (m : Mapping) (a : Memory.AddressSpace) : Prop where
  aligned : m.base / Page.size * Page.size = m.base
  length_pos : 0 < m.length
  page?_eq : ∀ page ∈ Memory.AddressSpace.mappingSpan m.base m.length,
    a.page? page = some (.segment m.segment, m.base / Page.size)
  lt_nextPage : ∀ page ∈ Memory.AddressSpace.mappingSpan m.base m.length, page < a.nextPage

theorem Mapping.Placed.relocked {m : Mapping} {a b : Memory.AddressSpace} (h : m.Placed a)
    (hab : a.Relocked b) : m.Placed b where
  aligned := h.aligned
  length_pos := h.length_pos
  page?_eq page hp := (hab.page?_eq page).trans (h.page?_eq page hp)
  lt_nextPage page hp := by
    rw [hab.nextPage_eq]
    exact h.lt_nextPage page hp

theorem Mapping.Placed.of_mapped {m : Mapping} {a b : Memory.AddressSpace}
    (h : a.Mapped m.length (.segment m.segment) m.base b) : m.Placed b where
  aligned := by
    rw [h.base_eq, Nat.mul_div_cancel _ (by decide)]
  length_pos := h.length_pos
  page?_eq page hp := by
    rw [h.page?_eq, if_pos hp, h.base_eq, Nat.mul_div_cancel _ (by decide)]
  lt_nextPage page hp := h.lt_of_mem hp

/-- The first page of a mapping. -/
theorem Mapping.Placed.base_mem {m : Mapping} {a : Memory.AddressSpace} (h : m.Placed a) :
    m.base / Page.size ∈ Memory.AddressSpace.mappingSpan m.base m.length := by
  have hpos := h.length_pos
  have hpages : 0 < Memory.AddressSpace.pagesFor m.length := by
    unfold Memory.AddressSpace.pagesFor Page.size
    omega
  exact ⟨Nat.le_refl _, Nat.lt_add_of_pos_right hpages⟩

theorem Site.mappingOf?_eq_some_iff {s : Site} {block : Block} {m : Mapping} :
    s.mappingOf? block = some m ↔ m.base = block.address - Page.headerLength ∧
      m.length = Page.headerLength + block.bytes.toNat ∧
      ∃ origin, s.process.space.page? (m.base / Page.size) = some (.segment m.segment, origin) := by
  simp only [mappingOf?, Option.map_eq_some_iff, Memory.AddressSpace.segmentAt?_eq_some_iff]
  constructor
  · intro hm
    obtain ⟨id, ⟨origin, hpage⟩, rfl⟩ := hm
    exact ⟨rfl, rfl, origin, hpage⟩
  · intro hm
    obtain ⟨hbase, hlength, origin, hpage⟩ := hm
    refine ⟨m.segment, ⟨origin, hbase ▸ hpage⟩, ?_⟩
    rw [← hbase, ← hlength]

theorem Site.mappingOf?_relocked {s t : Site} (h : s.process.space.Relocked t.process.space)
    (block : Block) : t.mappingOf? block = s.mappingOf? block := by
  apply Option.ext
  intro m
  rw [mappingOf?_eq_some_iff, mappingOf?_eq_some_iff]
  simp only [h.page?_eq]

/-- The block of a mapping that is there leads back to the mapping. -/
theorem Mapping.Placed.mappingOf?_eq {m : Mapping} {s : Site} (h : m.Placed s.process.space)
    {bytes : UInt64} (hlength : m.length = Page.headerLength + bytes.toNat) :
    s.mappingOf? ⟨m.payload, bytes⟩ = some m := by
  refine Site.mappingOf?_eq_some_iff.mpr ⟨?_, hlength, _, h.page?_eq _ h.base_mem⟩
  exact (Nat.add_sub_cancel m.base Page.headerLength).symm

namespace Stage

variable {stage : Stage} {config : SharingConfig} {s t : Site}

/-- The mapping stays the same as long as it is in place. -/
theorem mapping?_stays (hsuits : stage.Suits config s)
    (hplaced : ∀ m, stage.mapping? s = some m → m.Placed t.process.space) :
    stage.mapping? t = stage.mapping? s := by
  have hblock : ∀ block m, s.mappingOf? block = some m → m.Placed t.process.space →
      t.mappingOf? block = some m := by
    intro block m hm hthere
    obtain ⟨hbase, hlength, -⟩ := Site.mappingOf?_eq_some_iff.mp hm
    exact Site.mappingOf?_eq_some_iff.mpr
      ⟨hbase, hlength, _, hthere.page?_eq _ hthere.base_mem⟩
  cases stage with
  | idle | halted => rfl
  | holding block =>
    obtain ⟨m, hm⟩ := hsuits
    exact (hblock block m hm (hplaced m hm)).trans hm.symm
  | calling c =>
    cases c with
    | attach a phase => rfl
    | detach d phase =>
      cases phase with
      | unregister =>
        obtain ⟨m, hm⟩ := hsuits.2.2 rfl
        exact (hblock d.block m hm (hplaced m hm)).trans hm.symm
      | _ => rfl

theorem suits_stays (hsuits : stage.Suits config s) (hmapping : stage.mapping? t = stage.mapping? s) :
    stage.Suits config t := by
  cases stage with
  | idle | halted => trivial
  | holding block =>
    obtain ⟨m, hm⟩ := hsuits
    exact ⟨m, hmapping.trans hm⟩
  | calling c =>
    cases c with
    | attach a phase => exact hsuits
    | detach d phase =>
      refine ⟨hsuits.1, hsuits.2.1, fun hphase => ?_⟩
      subst hphase
      obtain ⟨m, hm⟩ := hsuits.2.2 rfl
      exact ⟨m, hmapping.trans hm⟩

end Stage

/-- What one call does to its process's mappings: nothing, or it maps, or unmaps, its own mapping,
or ends without it. -/
inductive Handles : Option Mapping → Memory.AddressSpace → Option Mapping → Memory.AddressSpace →
    Prop
  | keeps {held : Option Mapping} {a b : Memory.AddressSpace} (h : a.Relocked b) :
      Handles held a held b
  | maps {m : Mapping} {a b : Memory.AddressSpace}
      (h : a.Mapped m.length (.segment m.segment) m.base b) : Handles none a (some m) b
  | unmaps {m : Mapping} {a : Memory.AddressSpace} :
      Handles (some m) a none (a.release m.base m.length)
  | drops {m : Mapping} {a b : Memory.AddressSpace} (h : a.Relocked b) : Handles (some m) a none b

namespace Handles

/-- Whatever the call had, it ends without it. -/
theorem gone {held : Option Mapping} {a b : Memory.AddressSpace} (h : a.Relocked b) :
    Handles held a none b := by
  cases held with
  | none => exact .keeps h
  | some m => exact .drops h

variable {before after : Option Mapping} {a b : Memory.AddressSpace}

theorem nextPage_le (h : Handles before a after b) : a.nextPage ≤ b.nextPage := by
  cases h with
  | keeps h | drops h => exact Nat.le_of_eq h.nextPage_eq.symm
  | maps h =>
    rw [h.nextPage_eq]
    omega
  | unmaps => exact Nat.le_refl _

/-- Pages that are not the call's stay as they are. -/
theorem page?_eq (h : Handles before a after b) {page : Nat} (hpage : page < a.nextPage)
    (hmine : ∀ m, before = some m →
      page ∉ Memory.AddressSpace.mappingSpan m.base m.length) : b.page? page = a.page? page := by
  cases h with
  | keeps h | drops h => exact h.page?_eq page
  | maps h =>
    rw [h.page?_eq, if_neg]
    intro hp
    have hle := h.le_of_mem hp
    omega
  | unmaps => rw [Memory.AddressSpace.page?_release, if_neg (hmine _ rfl)]

theorem placed (h : Handles before a after b) (hplaced : ∀ m, before = some m → m.Placed a)
    {m : Mapping} (hm : after = some m) : m.Placed b := by
  cases h with
  | keeps h => exact (hplaced m hm).relocked h
  | maps h =>
    cases hm
    exact .of_mapped h
  | unmaps | drops => cases hm

/-- A mapping of somebody else stays in place. -/
theorem placed_other (h : Handles before a after b) {its : Mapping} (hits : its.Placed a)
    (hapart : ∀ m, before = some m → ∀ page ∈ Memory.AddressSpace.mappingSpan its.base its.length,
      page ∉ Memory.AddressSpace.mappingSpan m.base m.length) : its.Placed b where
  aligned := hits.aligned
  length_pos := hits.length_pos
  page?_eq page hp := by
    rw [h.page?_eq (hits.lt_nextPage page hp) fun m hm => hapart m hm page hp]
    exact hits.page?_eq page hp
  lt_nextPage page hp := Nat.lt_of_lt_of_le (hits.lt_nextPage page hp) h.nextPage_le

/-- A mapping of the call's after the step is apart from those of others before it. -/
theorem apart (h : Handles before a after b) {its : Mapping} (hits : its.Placed a)
    (hapart : ∀ m, before = some m → ∀ page ∈ Memory.AddressSpace.mappingSpan its.base its.length,
      page ∉ Memory.AddressSpace.mappingSpan m.base m.length) {m : Mapping} (hm : after = some m)
    {page : Nat} (hp : page ∈ Memory.AddressSpace.mappingSpan its.base its.length) :
    page ∉ Memory.AddressSpace.mappingSpan m.base m.length := by
  cases h with
  | keeps h => exact hapart m hm page hp
  | maps h =>
    cases hm
    intro hmem
    have hle := h.le_of_mem hmem
    have hlt := hits.lt_nextPage page hp
    omega
  | unmaps | drops => cases hm

end Handles

namespace Attach.Transition

variable {a : Attach} {phase : Phase} {s t : Site} {progress : Progress Phase Result}

theorem handles (h : Transition a phase s progress t) (hsuits : a.Suits phase)
    (hplaced : ∀ m, mapping? phase = some m → m.Placed s.process.space) :
    Handles (mapping? phase) s.process.space
      ((Stage.after (progress.map (.attach a) .ofResult)).mapping? t) t.process.space := by
  cases h with
  | @leftoverMapped _ _ _ m hmap | @mapped _ _ _ m hmap | @foundMapped _ _ _ _ _ m hmap =>
    obtain ⟨hid, hlength, -, hmapped⟩ := Site.mapped_of_mapSegment hmap
    refine .maps (m := m) ?_
    rw [hid, hlength]
    exact hmapped
  | leftoverOwned | leftoverRetired | unready | orphaned | mismatched | withdrawn => exact .unmaps
  | undoneError | undoneFault | undoneAbort =>
    unfold undone
    split <;> exact .unmaps
  | leftoverReported h | leftoverFatal h =>
    exact .keeps (.of_eq (Process.wrote_of_emit h).space_eq)
  | created h => exact .keeps (.of_eq (by rw [(Site.created_of_createSegment h).2]))
  | resized h => exact .keeps (.of_eq (by rw [Site.of_resizeSegment h]))
  | registered h =>
    have hkept := (Device.kept_of_register h).relocked
    cases a.config.isLeader <;> exact .keeps hkept
  | unregistered h | registerFatal h => exact .keeps (Device.kept_of_register h).relocked
  | @finished _ m _ p h =>
    obtain ⟨hbooked, ho⟩ := succeeded_spec h
    have hspace := Memory.AddressSpace.Relocked.of_eq hbooked.space_eq
    split at ho
    · subst ho
      have hm := ((hplaced m rfl).relocked hspace).mappingOf?_eq (s := ⟨s.kernel, p⟩) hsuits
      simp only [Progress.map, Outcome.map, Reply.ofResult, Stage.after, Stage.mapping?, hm]
      exact .keeps hspace
    · subst ho
      exact .drops hspace
  | failed h =>
    obtain ⟨hbooked, ho⟩ := failed_spec h
    have hspace := Memory.AddressSpace.Relocked.of_eq hbooked.space_eq
    rcases ho with rfl | ⟨_, _, _, rfl⟩ <;> exact .keeps hspace
  | _ => exact .keeps (.refl _)

theorem suits (h : Transition a phase s progress t) (hsuits : a.Suits phase)
    (hplaced : ∀ m, mapping? phase = some m → m.Placed s.process.space) :
    (Stage.after (progress.map (.attach a) .ofResult)).Suits a.config t := by
  cases h with
  | mapped hmap => exact ⟨rfl, hsuits, (Site.mapped_of_mapSegment hmap).2.1⟩
  | claimed => exact ⟨rfl, hsuits.2⟩
  | matched _ hlength => exact ⟨rfl, hsuits, hlength⟩
  | withdrawn => exact ⟨rfl, hsuits.1⟩
  | joined => exact ⟨rfl, hsuits.2⟩
  | registered =>
    refine ⟨rfl, ?_⟩
    split
    case isTrue hrole => exact ⟨hrole, hsuits⟩
    case isFalse => exact hsuits
  | statePublished => exact ⟨rfl, hsuits.2⟩
  | @finished _ m _ p h =>
    obtain ⟨hbooked, ho⟩ := succeeded_spec h
    have hspace := Memory.AddressSpace.Relocked.of_eq hbooked.space_eq
    split at ho
    · subst ho
      exact ⟨m, ((hplaced m rfl).relocked hspace).mappingOf?_eq (s := ⟨s.kernel, p⟩) hsuits⟩
    · subst ho
      trivial
  | failed h =>
    rcases (failed_spec h).2 with rfl | ⟨_, _, _, rfl⟩ <;> trivial
  | undoneError | mismatched | leftoverUnopened | leftoverUnmapped |
    leftoverOwned | nameTaken | uncreated | discarded | unopened | foundUnmapped | expired =>
    exact ⟨rfl, trivial⟩
  | leftoverFatal | undoneFault | undoneAbort => trivial
  | _ => exact ⟨rfl, hsuits⟩

/-- Segments are made, never lost. -/
theorem segments_length_le (h : Transition a phase s progress t) :
    s.kernel.segments.length ≤ t.kernel.segments.length := by
  cases h with
  | leftoverMapped h | mapped h | foundMapped h =>
    exact Nat.le_of_eq (by rw [(Site.mapped_of_mapSegment h).2.2.1])
  | created h =>
    obtain ⟨hcreated, -⟩ := Site.created_of_createSegment h
    rw [hcreated.length_eq, hcreated.id_eq]
    exact Nat.le_succ _
  | resized h =>
    rw [Site.of_resizeSegment h]
    exact Nat.le_of_eq (List.length_modify ..).symm
  | undoneError | undoneFault | undoneAbort =>
    unfold undone
    split
    · exact Nat.le_refl _
    · exact Nat.le_of_eq (List.length_modify ..).symm
  | leftoverRetired | claimed | raised | withdrawn | joined | bytesPublished | joinedPublished |
    livePublished | statePublished => exact Nat.le_of_eq (List.length_modify ..).symm
  | _ => exact Nat.le_refl _

/-- The call knows its segment from opening or creating it. -/
theorem segment_cases (h : Transition a phase s progress t) (hsuits : a.Suits phase)
    (hplaced : ∀ m, mapping? phase = some m → m.Placed s.process.space) {id : SegmentId}
    (hid : (Stage.after (progress.map (.attach a) .ofResult)).segment? t = some id) :
    segment? phase = some id ∨ s.kernel.names.get? a.config.segment = some id ∨
      s.kernel.Created a.config.segment id t.kernel := by
  cases h with
  | leftoverFound h | found h =>
    cases hid
    exact Or.inr (Or.inl (Site.names_of_openSegment h))
  | created h =>
    cases hid
    exact Or.inr (Or.inr (Site.created_of_createSegment h).1)
  | leftoverMapped h | mapped h | foundMapped h =>
    cases hid
    rw [(Site.mapped_of_mapSegment h).1]
    exact Or.inl rfl
  | @finished _ m _ p h =>
    obtain ⟨hbooked, ho⟩ := succeeded_spec h
    have hspace := Memory.AddressSpace.Relocked.of_eq hbooked.space_eq
    split at ho
    · subst ho
      have hm := ((hplaced m rfl).relocked hspace).mappingOf?_eq (s := ⟨s.kernel, p⟩) hsuits
      simp only [Progress.map, Outcome.map, Reply.ofResult, Stage.after, Stage.segment?,
        Stage.mapping?, hm] at hid
      exact Or.inl hid
    · subst ho
      cases hid
  | failed h =>
    rcases (failed_spec h).2 with rfl | ⟨_, _, _, rfl⟩ <;> cases hid
  | registered => split at hid <;> exact Or.inl hid
  | _ => first | exact Or.inl hid | cases hid

theorem known (h : Transition a phase s progress t) (hsuits : a.Suits phase)
    (hplaced : ∀ m, mapping? phase = some m → m.Placed s.process.space)
    (hknown : ∀ id, segment? phase = some id → id < s.kernel.segments.length) {id : SegmentId}
    (hid : (Stage.after (progress.map (.attach a) .ofResult)).segment? t = some id) :
    id < t.kernel.segments.length := by
  rcases h.segment_cases hsuits hplaced hid with hbefore | hbound | hcreated
  · exact Nat.lt_of_lt_of_le (hknown id hbefore) h.segments_length_le
  · exact Nat.lt_of_lt_of_le (s.kernel.names_bound _ id hbound) h.segments_length_le
  · rw [hcreated.length_eq]
    exact Nat.lt_succ_self _

end Attach.Transition

namespace Detach.Transition

variable {d : Detach} {phase : Phase} {s t : Site} {progress : Progress Phase Unit}

theorem handles (h : Transition d phase s progress t) :
    Handles ((Call.detach d phase).mapping? s) s.process.space
      ((Stage.after (progress.map (.detach d) fun _ => .released)).mapping? t) t.process.space := by
  cases h with
  | refused h hq =>
    cases hq
    have hkept := (Device.kept_of_unregister h).relocked
    refine .gone ?_
    rw [(Process.wrote_emitLast _ _ _).space_eq]
    exact hkept
  | lost h => exact .gone (Device.kept_of_unregister h).relocked
  | @unregistered _ p m h hm =>
    have hkept := (Device.kept_of_unregister h).relocked
    have hbefore : (Call.detach d .unregister).mapping? s = some m :=
      (Site.mappingOf?_relocked (t := ⟨s.kernel, p⟩) hkept d.block).symm.trans hm
    rw [hbefore]
    cases d.config.isLeader <;> exact .keeps hkept
  | overflowed => exact .unmaps
  | @closed _ m _ _ o p h =>
    obtain ⟨-, hbooked, -⟩ := closed_spec h
    have hspace : p.space = s.process.space.release m.base m.length := hbooked.space_eq
    dsimp only
    rw [hspace]
    cases o <;> exact .unmaps
  | _ => exact .keeps (.refl _)

theorem suits (h : Transition d phase s progress t) (hsuits : d.Suits phase) :
    (Stage.after (progress.map (.detach d) fun _ => .released)).Suits d.config t := by
  cases h with
  | unregistered =>
    refine ⟨rfl, ?_⟩
    split
    case isTrue hrole => exact ⟨hrole, by simp⟩
    case isFalse => exact ⟨trivial, by simp⟩
  | @closed _ _ _ _ o => cases o <;> trivial
  | refused | lost | overflowed => trivial
  | unlinked | unlinkFailed | left => exact ⟨rfl, trivial, by simp⟩
  | _ => exact ⟨rfl, hsuits, by simp⟩

theorem segments_length_eq (h : Transition d phase s progress t) :
    t.kernel.segments.length = s.kernel.segments.length := by
  cases h with
  | retired | left => exact List.length_modify ..
  | _ => rfl

/-- A release deals with no segment but the one of its block. -/
theorem segment_before (h : Transition d phase s progress t) {id : SegmentId}
    (hid : (Stage.after (progress.map (.detach d) fun _ => .released)).segment? t = some id) :
    (Stage.calling (.detach d phase)).segment? s = some id := by
  cases h with
  | @unregistered _ p m h hm =>
    have hkept := (Device.kept_of_unregister h).relocked
    have hbefore : s.mappingOf? d.block = some m :=
      (Site.mappingOf?_relocked (t := ⟨s.kernel, p⟩) hkept d.block).symm.trans hm
    simp only [Stage.segment?, Stage.mapping?, Call.mapping?, hbefore]
    split at hid <;> exact hid
  | @closed _ _ _ _ o => cases o <;> cases hid
  | refused | lost | overflowed => cases hid
  | _ => exact hid

end Detach.Transition

theorem Call.segments_length_le (c : Call) (s : Site) :
    s.kernel.segments.length ≤ (c.step s).2.kernel.segments.length := by
  cases c with
  | attach a phase => exact (a.step_transition phase s).segments_length_le
  | detach d phase => exact Nat.le_of_eq (d.step_transition phase s).segments_length_eq.symm

namespace Machine

variable {κ : Type u} {ι : Type v}

def mapping? (m : Machine κ ι) (roster : ι → Member κ) (i : ι) : Option Mapping :=
  (m.stage i).mapping? (m.site (roster i).home)

def segment? (m : Machine κ ι) (roster : ι → Member κ) (i : ι) : Option SegmentId :=
  (m.stage i).segment? (m.site (roster i).home)

structure Sound (m : Machine κ ι) (roster : ι → Member κ) : Prop where
  suits : ∀ i, (m.stage i).Suits (roster i).config (m.site (roster i).home)
  placed : ∀ i mapping, m.mapping? roster i = some mapping →
    mapping.Placed (m.process (roster i).home).space
  apart : ∀ i j, i ≠ j → (roster i).home = (roster j).home →
    ∀ mine its, m.mapping? roster i = some mine → m.mapping? roster j = some its →
    ∀ page ∈ Memory.AddressSpace.mappingSpan mine.base mine.length,
      page ∉ Memory.AddressSpace.mappingSpan its.base its.length
  known : ∀ i id, m.segment? roster i = some id → id < m.kernel.segments.length

section

variable {m : Machine κ ι} {roster : ι → Member κ}

/-- A member that does nothing keeps its mapping as long as the mapping is in place. -/
theorem mapping?_stays {next : Machine κ ι} (h : m.Sound roster) {j : ι}
    (hstage : next.stage j = m.stage j)
    (hplaced : ∀ mapping, m.mapping? roster j = some mapping →
      mapping.Placed (next.process (roster j).home).space) :
    next.mapping? roster j = m.mapping? roster j := by
  simp only [mapping?] at hplaced ⊢
  rw [hstage]
  exact Stage.mapping?_stays (h.suits j) hplaced

theorem segment?_stays {next : Machine κ ι} {j : ι} (hstage : next.stage j = m.stage j)
    (hmapping : next.mapping? roster j = m.mapping? roster j) :
    next.segment? roster j = m.segment? roster j := by
  simp only [segment?, mapping?] at hmapping ⊢
  rw [hstage] at hmapping ⊢
  cases hs : m.stage j with
  | calling c =>
    cases c with
    | attach a phase => rfl
    | detach d phase =>
      rw [hs] at hmapping
      simp only [Stage.segment?, hmapping]
  | idle | halted => rfl
  | holding block =>
    rw [hs] at hmapping
    simp only [Stage.segment?, hmapping]

theorem suits_stays {next : Machine κ ι} (h : m.Sound roster) {j : ι}
    (hstage : next.stage j = m.stage j)
    (hmapping : next.mapping? roster j = m.mapping? roster j) :
    (next.stage j).Suits (roster j).config (next.site (roster j).home) := by
  simp only [mapping?] at hmapping
  rw [hstage] at hmapping ⊢
  exact Stage.suits_stays (h.suits j) hmapping

/-- Soundness is kept if the members that do nothing keep their mappings in place, and the one that
acts, if any does, has its own mapping apart from them. -/
theorem Sound.of_stays {next : Machine κ ι} (h : m.Sound roster) (Acts : ι → Prop)
    (hstage : ∀ j, ¬ Acts j → next.stage j = m.stage j)
    (hplaced : ∀ j mapping, ¬ Acts j → m.mapping? roster j = some mapping →
      mapping.Placed (next.process (roster j).home).space)
    (hlength : m.kernel.segments.length ≤ next.kernel.segments.length)
    (honly : ∀ i j, Acts i → Acts j → i = j)
    (hsuits : ∀ i, Acts i → (next.stage i).Suits (roster i).config (next.site (roster i).home))
    (hmine : ∀ i mapping, Acts i → next.mapping? roster i = some mapping →
      mapping.Placed (next.process (roster i).home).space)
    (hapart : ∀ i j, Acts i → ¬ Acts j → (roster i).home = (roster j).home →
      ∀ mine its, next.mapping? roster i = some mine → m.mapping? roster j = some its →
      ∀ page ∈ Memory.AddressSpace.mappingSpan its.base its.length,
        page ∉ Memory.AddressSpace.mappingSpan mine.base mine.length)
    (hknown : ∀ i id, Acts i → next.segment? roster i = some id →
      id < next.kernel.segments.length) : next.Sound roster := by
  have hstays : ∀ j, ¬ Acts j → next.mapping? roster j = m.mapping? roster j := fun j hj =>
    mapping?_stays h (hstage j hj) fun mapping hmapping => hplaced j mapping hj hmapping
  refine ⟨?_, ?_, ?_, ?_⟩
  · intro i
    by_cases hi : Acts i
    · exact hsuits i hi
    · exact suits_stays h (hstage i hi) (hstays i hi)
  · intro i mapping hmapping
    by_cases hi : Acts i
    · exact hmine i mapping hi hmapping
    · exact hplaced i mapping hi ((hstays i hi).symm.trans hmapping)
  · intro i j hne hhome mine its hi hj page hp hp'
    by_cases hacts : Acts i
    · have hacts' : ¬ Acts j := fun hj' => hne (honly i j hacts hj')
      rw [hstays j hacts'] at hj
      exact hapart i j hacts hacts' hhome mine its hi hj page hp' hp
    · rw [hstays i hacts] at hi
      by_cases hacts' : Acts j
      · exact hapart j i hacts' hacts hhome.symm its mine hj hi page hp hp'
      · rw [hstays j hacts'] at hj
        exact h.apart i j hne hhome mine its hi hj page hp hp'
  · intro i id hid
    by_cases hi : Acts i
    · exact hknown i id hi hid
    · rw [segment?_stays (hstage i hi) (hstays i hi)] at hid
      exact Nat.lt_of_lt_of_le (h.known i id hid) hlength

/-- Soundness is kept if no member acts and all mappings stay in place. -/
theorem Sound.stays {next : Machine κ ι} (h : m.Sound roster) (hstage : next.stage = m.stage)
    (hlength : m.kernel.segments.length ≤ next.kernel.segments.length)
    (hplaced : ∀ j mapping, m.mapping? roster j = some mapping →
      mapping.Placed (next.process (roster j).home).space) : next.Sound roster := by
  refine h.of_stays (fun _ => False) (fun j _ => by rw [hstage])
    (fun j mapping _ => hplaced j mapping) hlength ?_ ?_ ?_ ?_ ?_
  all_goals
    intro i
    intros
    contradiction

theorem sound_of_idle (h : ∀ i, m.stage i = .idle) : m.Sound roster := by
  have hnone : ∀ i, m.mapping? roster i = none := by
    intro i
    simp only [mapping?, h i, Stage.mapping?]
  refine ⟨?_, ?_, ?_, ?_⟩
  · intro i
    rw [h i]
    trivial
  · intro i _ hi
    rw [hnone i] at hi
    cases hi
  · intro i _ _ _ _ _ hi
    rw [hnone i] at hi
    cases hi
  · intro i _ hi
    simp [segment?, h i, Stage.segment?, Stage.mapping?] at hi

/-- What members have stays in place whatever else happens in their processes. -/
theorem Sound.placed_move [DecidableEq κ] (h : m.Sound roster) {home : κ} {p : Process}
    (hmoves : (m.process home).Moves p) {j : ι} {mapping : Mapping}
    (hmapping : m.mapping? roster j = some mapping) :
    mapping.Placed (Function.update m.process home p (roster j).home).space := by
  have hplaced := h.placed j mapping hmapping
  by_cases hhome : (roster j).home = home
  · subst hhome
    simp only [Function.update_self]
    refine ⟨hplaced.aligned, hplaced.length_pos, ?_, ?_⟩
    · intro page hp
      exact hmoves.page?_eq page _ _ (hplaced.page?_eq page hp)
    · intro page hp
      exact Nat.lt_of_lt_of_le (hplaced.lt_nextPage page hp) hmoves.nextPage_le
  · simpa only [Function.update_of_ne hhome] using hplaced

theorem sound_move [DecidableEq κ] (h : m.Sound roster) {home : κ} {p : Process}
    (hmoves : (m.process home).Moves p) :
    ({ m with process := Function.update m.process home p } : Machine κ ι).Sound roster :=
  h.stays rfl (Nat.le_refl _) fun _ _ => h.placed_move hmoves

def Handled (m : Machine κ ι) (roster : ι → Member κ) (i : ι)
    (result : Progress Call Reply × Site) : Prop :=
  Handles (m.mapping? roster i) (m.process (roster i).home).space
    ((Stage.after result.1).mapping? result.2) result.2.process.space

theorem handled_allocate {i : ι} (hidle : m.stage i = .idle) (bytes : UInt64) :
    m.Handled roster i
      ((roster i).resource.beginAllocate bytes (m.site (roster i).home)) := by
  simp only [Handled, mapping?, hidle, Stage.mapping?]
  rcases (roster i).beginAllocate_spec bytes (m.site (roster i).home) with
    ⟨phase, hfirst, heq⟩ | ⟨o, heq, hafter⟩
  · rw [heq]
    cases hfirst <;> exact .keeps (.refl _)
  · rw [heq, hafter]
    exact .keeps (.refl _)

theorem handled_release {i : ι} {block : Block} (hholding : m.stage i = .holding block) :
    m.Handled roster i
      ((roster i).resource.beginRelease block (m.site (roster i).home)) := by
  simp only [Handled, mapping?, hholding, Stage.mapping?]
  exact .keeps (.refl _)

theorem handled_access (h : m.Sound roster) {i : ι} {c : Call}
    (hcalling : m.stage i = .calling c) :
    m.Handled roster i (c.step (m.site (roster i).home)) := by
  have hsuits := h.suits i
  have hplaced := h.placed i
  simp only [Handled, mapping?, hcalling] at hsuits hplaced ⊢
  cases c with
  | attach a phase =>
    exact (a.step_transition phase (m.site (roster i).home)).handles hsuits.2 hplaced
  | detach d phase => exact (d.step_transition phase (m.site (roster i).home)).handles

variable [DecidableEq κ] [DecidableEq ι]

@[simp] theorem stage_settle_self (i : ι) (result : Progress Call Reply × Site) :
    (m.settle roster i result).stage i = .after result.1 :=
  Function.update_self ..

theorem stage_settle_of_ne {i j : ι} (h : j ≠ i) (result : Progress Call Reply × Site) :
    (m.settle roster i result).stage j = m.stage j :=
  Function.update_of_ne h ..

@[simp] theorem site_settle_self (i : ι) (result : Progress Call Reply × Site) :
    (m.settle roster i result).site (roster i).home = result.2 := by
  simp [site, settle]

theorem process_settle_self (i : ι) (result : Progress Call Reply × Site) :
    (m.settle roster i result).process (roster i).home = result.2.process :=
  Function.update_self ..

theorem process_settle_of_ne {home : κ} {i : ι} (h : home ≠ (roster i).home)
    (result : Progress Call Reply × Site) :
    (m.settle roster i result).process home = m.process home :=
  Function.update_of_ne h ..

/-- What the others have stays in place. -/
theorem Sound.placed_settle (h : m.Sound roster) {i j : ι} {result : Progress Call Reply × Site}
    (hhandled : m.Handled roster i result) (hj : j ≠ i) {its : Mapping}
    (hits : m.mapping? roster j = some its) :
    its.Placed ((m.settle roster i result).process (roster j).home).space := by
  by_cases hhome : (roster j).home = (roster i).home
  · have hplaced := h.placed j its hits
    rw [hhome] at hplaced ⊢
    simp only [Machine.settle, Function.update_self]
    exact hhandled.placed_other hplaced fun mine hmine => h.apart j i hj hhome its mine hits hmine
  · rw [process_settle_of_ne hhome]
    exact h.placed j its hits

theorem Sound.mapping?_settle (h : m.Sound roster) {i j : ι}
    {result : Progress Call Reply × Site} (hhandled : m.Handled roster i result) (hj : j ≠ i) :
    (m.settle roster i result).mapping? roster j = m.mapping? roster j :=
  mapping?_stays h (stage_settle_of_ne hj result) fun _ hits => h.placed_settle hhandled hj hits

theorem Sound.segment?_settle (h : m.Sound roster) {i j : ι}
    {result : Progress Call Reply × Site} (hhandled : m.Handled roster i result) (hj : j ≠ i) :
    (m.settle roster i result).segment? roster j = m.segment? roster j :=
  segment?_stays (stage_settle_of_ne hj result) (h.mapping?_settle hhandled hj)

/-- Soundness is kept by a member's progress that touches no mapping but its own. -/
theorem Sound.settle (h : m.Sound roster) {i : ι} {result : Progress Call Reply × Site}
    (hhandled : m.Handled roster i result)
    (hlength : m.kernel.segments.length ≤ result.2.kernel.segments.length)
    (hsuits : (Stage.after result.1).Suits (roster i).config result.2)
    (hknown : ∀ id, (Stage.after result.1).segment? result.2 = some id →
      id < result.2.kernel.segments.length) : (m.settle roster i result).Sound roster := by
  refine h.of_stays (· = i) (fun j hj => stage_settle_of_ne hj _)
    (fun j its hj hits => h.placed_settle hhandled hj hits) hlength
    (fun _ _ hi hj => hi.trans hj.symm) ?_ ?_ ?_ ?_
  · rintro _ rfl
    simpa using hsuits
  · rintro _ mapping rfl hmapping
    simp only [mapping?, stage_settle_self, site_settle_self] at hmapping
    simp only [Machine.settle, Function.update_self]
    exact hhandled.placed (h.placed _) hmapping
  · rintro i j rfl hj hhome mine its hmine hits page hp
    simp only [mapping?, stage_settle_self, site_settle_self] at hmine
    have hplaced := h.placed j its hits
    rw [← hhome] at hplaced
    exact hhandled.apart hplaced
      (fun old hold => h.apart j i hj hhome.symm its old hits hold) hmine hp
  · rintro _ id rfl hid
    simp only [segment?, stage_settle_self, site_settle_self] at hid
    exact hknown id hid

theorem sound_allocate (h : m.Sound roster) {i : ι} (hidle : m.stage i = .idle) (bytes : UInt64) :
    (m.settle roster i ((roster i).resource.beginAllocate bytes (m.site (roster i).home))).Sound
      roster := by
  have hhandled : m.Handled roster i
      ((roster i).resource.beginAllocate bytes (m.site (roster i).home)) :=
    handled_allocate hidle bytes
  rcases (roster i).beginAllocate_spec bytes (m.site (roster i).home) with
    ⟨phase, hfirst, heq⟩ | ⟨o, heq, hafter⟩
  · rw [heq] at hhandled ⊢
    refine h.settle hhandled (Nat.le_refl _) ?_ ?_
    · cases hfirst <;> exact ⟨rfl, by trivial⟩
    · intro id hid
      cases hfirst <;> cases hid
  · rw [heq] at hhandled ⊢
    refine h.settle hhandled (Nat.le_refl _) ?_ ?_
    · rw [hafter]
      trivial
    · intro id hid
      rw [hafter] at hid
      cases hid

theorem sound_release (h : m.Sound roster) {i : ι} {block : Block}
    (hholding : m.stage i = .holding block) :
    (m.settle roster i ((roster i).resource.beginRelease block (m.site (roster i).home))).Sound
      roster := by
  have hmine := h.suits i
  have hsegment : m.segment? roster i =
      ((m.site (roster i).home).mappingOf? block).map Mapping.segment := by
    simp only [segment?, hholding, Stage.segment?, Stage.mapping?]
  rw [hholding] at hmine
  refine h.settle (handled_release hholding) (Nat.le_refl _) ⟨rfl, trivial, fun _ => hmine⟩ ?_
  intro id hid
  exact h.known i id (hsegment.trans hid)

theorem sound_access (h : m.Sound roster) {i : ι} {c : Call} (hcalling : m.stage i = .calling c) :
    (m.settle roster i (c.step (m.site (roster i).home))).Sound roster := by
  have hsuits := h.suits i
  have hplaced := h.placed i
  have hknown := h.known i
  simp only [mapping?, segment?, hcalling] at hsuits hplaced hknown
  refine h.settle (handled_access h hcalling) ?_ ?_ ?_
  · exact c.segments_length_le (m.site (roster i).home)
  · cases c with
    | attach a phase =>
      rw [← hsuits.1]
      exact (a.step_transition phase (m.site (roster i).home)).suits hsuits.2 hplaced
    | detach d phase =>
      rw [← hsuits.1]
      exact (d.step_transition phase (m.site (roster i).home)).suits hsuits.2.1
  · cases c with
    | attach a phase =>
      exact fun id =>
        (a.step_transition phase (m.site (roster i).home)).known hsuits.2 hplaced hknown
    | detach d phase =>
      intro id hid
      have ht := d.step_transition phase (m.site (roster i).home)
      exact ht.segments_length_eq ▸ hknown id (ht.segment_before hid)

/-- What a step does to a member: nothing, or it begins an allocation or a release, or it takes the
step of its call. -/
theorem stage_cases {next : Machine κ ι} {access : Option (Access ι)}
    (hstep : Step roster m access next) (i : ι) :
    next.stage i = m.stage i ∨
      (m.stage i = .idle ∧
        ∃ a phase, Attach.First a phase ∧ next.stage i = .calling (.attach a phase)) ∨
      (∃ d : Detach, m.stage i = .holding d.block ∧
        next.stage i = .calling (.detach d .unregister)) ∨
      ∃ c, access = some ⟨i, c⟩ ∧ m.stage i = .calling c ∧
        next.stage i = .after (c.step (m.site (roster i).home)).1 := by
  cases hstep with
  | allocate j bytes hidle =>
    by_cases hij : i = j
    · subst hij
      rw [stage_settle_self]
      rcases (roster i).beginAllocate_spec bytes (m.site (roster i).home) with
        ⟨phase, hfirst, heq⟩ | ⟨o, heq, hafter⟩
      · exact Or.inr (Or.inl ⟨hidle, _, phase, hfirst, by rw [heq]; rfl⟩)
      · exact Or.inl (by rw [heq, hafter, hidle])
    · exact Or.inl (stage_settle_of_ne hij _)
  | release j block hholding =>
    by_cases hij : i = j
    · subst hij
      exact Or.inr (Or.inr (Or.inl
        ⟨⟨(roster i).config, (roster i).device, (roster i).account, block⟩, hholding,
          stage_settle_self ..⟩))
    · exact Or.inl (stage_settle_of_ne hij _)
  | access j c hcalling =>
    by_cases hij : i = j
    · subst hij
      exact Or.inr (Or.inr (Or.inr ⟨c, rfl, hcalling, stage_settle_self ..⟩))
    · exact Or.inl (stage_settle_of_ne hij _)
  | elapse | populate | move => exact Or.inl rfl

/-- Where a call in flight after a step comes from: the member was in it before, or has begun it, or
has stepped to it. -/
inductive Origin (m : Machine κ ι) (roster : ι → Member κ) (access : Option (Access ι)) (i : ι) :
    Call → Prop
  | stayed {c : Call} (h : m.stage i = .calling c) : Origin m roster access i c
  | allocates {a : Attach} {phase : Attach.Phase} (hidle : m.stage i = .idle)
      (h : a.First phase) : Origin m roster access i (.attach a phase)
  | releases {d : Detach} (hholding : m.stage i = .holding d.block) :
      Origin m roster access i (.detach d .unregister)
  | steps {c next : Call} (haccess : access = some ⟨i, c⟩) (hcalling : m.stage i = .calling c)
      (h : (c.step (m.site (roster i).home)).1 = .running next) : Origin m roster access i next

theorem origin_of_step {next : Machine κ ι} {access : Option (Access ι)}
    (hstep : Step roster m access next) {i : ι} {c : Call} (hc : next.stage i = .calling c) :
    Origin m roster access i c := by
  rcases stage_cases hstep i with
    h | ⟨hidle, a, phase, hfirst, h⟩ | ⟨d, hholding, h⟩ | ⟨c', haccess, hcalling, h⟩ <;>
    rw [h] at hc
  · exact .stayed hc
  · cases hc
    exact .allocates hidle hfirst
  · cases hc
    exact .releases hholding
  · exact .steps haccess hcalling (Stage.after_eq_calling hc)

/-- What a member holds after a step it held before, or its call has handed it out. -/
theorem holding_before {next : Machine κ ι} {access : Option (Access ι)}
    (hstep : Step roster m access next) {i : ι} {block : Block}
    (hholding : next.stage i = .holding block) :
    m.stage i = .holding block ∨ ∃ c, m.stage i = .calling c ∧
      (c.step (m.site (roster i).home)).1 = .done (.returned (.allocated (some block))) := by
  rcases stage_cases hstep i with h | ⟨-, a, phase, -, h⟩ | ⟨d, -, h⟩ | ⟨c, -, hcalling, h⟩ <;>
    rw [h] at hholding
  · exact Or.inl hholding
  · cases hholding
  · cases hholding
  · exact Or.inr ⟨c, hcalling, Stage.after_eq_holding hholding⟩

theorem stage_of_step {i : ι} {c : Call} (hstep : Step roster m (some ⟨i, c⟩) next) :
    m.stage i = .calling c := by
  cases hstep with
  | access _ _ hcalling => exact hcalling

theorem stage_after_step {i : ι} {c : Call} (hstep : Step roster m (some ⟨i, c⟩) next) :
    next.stage i = .after (c.step (m.site (roster i).home)).1 := by
  cases hstep with
  | access => exact stage_settle_self ..

theorem kernel_of_access {i : ι} {c : Call} (hstep : Step roster m (some ⟨i, c⟩) next) :
    next.kernel = (c.step (m.site (roster i).home)).2.kernel := by
  cases hstep with
  | access => rfl

theorem stage_of_other {i j : ι} {c : Call} (hstep : Step roster m (some ⟨j, c⟩) next)
    (hij : i ≠ j) : next.stage i = m.stage i := by
  cases hstep with
  | access => exact stage_settle_of_ne hij _

/-- No step takes a mapping from a member or lets two members share pages. -/
theorem sound_step {next : Machine κ ι} {access : Option (Access ι)} (h : m.Sound roster)
    (hstep : Step roster m access next) : next.Sound roster := by
  cases hstep with
  | allocate i bytes hidle => exact sound_allocate h hidle bytes
  | release i block hholding => exact sound_release h hholding
  | access i c hcalling => exact sound_access h hcalling
  | elapse clock => exact h.stays rfl (Nat.le_refl _) h.placed
  | populate alive => exact h.stays rfl (Nat.le_refl _) h.placed
  | move home p hmoves => exact sound_move h hmoves

theorem segments_length_le {next : Machine κ ι} {access : Option (Access ι)}
    (hstep : Step roster m access next) :
    m.kernel.segments.length ≤ next.kernel.segments.length := by
  cases hstep with
  | allocate i bytes hidle =>
    rw [settle, Member.beginAllocate_site]
    exact Nat.le_refl _
  | access i c hcalling => exact c.segments_length_le (m.site (roster i).home)
  | release | elapse | populate | move => exact Nat.le_refl _

/-- What a step does to a member and its mapping: nothing, or the member begins an allocation or a
release, or it takes the step of its call. -/
theorem acts_cases {next : Machine κ ι} {access : Option (Access ι)} (hsound : m.Sound roster)
    (hstep : Step roster m access next) (i : ι) :
    (next.stage i = m.stage i ∧ next.mapping? roster i = m.mapping? roster i) ∨
      (∃ bytes, m.stage i = .idle ∧ next = m.settle roster i
        ((roster i).resource.beginAllocate bytes (m.site (roster i).home))) ∨
      (∃ block, m.stage i = .holding block ∧ next = m.settle roster i
        ((roster i).resource.beginRelease block (m.site (roster i).home))) ∨
      ∃ c, access = some ⟨i, c⟩ ∧ m.stage i = .calling c ∧
        next = m.settle roster i (c.step (m.site (roster i).home)) := by
  cases hstep with
  | allocate j bytes hidle =>
    by_cases hij : i = j
    · subst hij
      exact Or.inr (Or.inl ⟨bytes, hidle, rfl⟩)
    · exact Or.inl ⟨stage_settle_of_ne hij _,
        hsound.mapping?_settle (handled_allocate hidle bytes) hij⟩
  | release j block hholding =>
    by_cases hij : i = j
    · subst hij
      exact Or.inr (Or.inr (Or.inl ⟨block, hholding, rfl⟩))
    · exact Or.inl ⟨stage_settle_of_ne hij _,
        hsound.mapping?_settle (handled_release hholding) hij⟩
  | access j c hcalling =>
    by_cases hij : i = j
    · subst hij
      exact Or.inr (Or.inr (Or.inr ⟨c, rfl, hcalling, rfl⟩))
    · exact Or.inl ⟨stage_settle_of_ne hij _,
        hsound.mapping?_settle (handled_access hsound hcalling) hij⟩
  | elapse | populate => exact Or.inl ⟨rfl, rfl⟩
  | move home p hmoves =>
    exact Or.inl ⟨rfl, mapping?_stays hsound rfl fun _ => hsound.placed_move hmoves⟩

/-- A segment that a member deals with after a step it dealt with before, or has found under its
name, or has created. -/
theorem segment_before {next : Machine κ ι} {access : Option (Access ι)} (hsound : m.Sound roster)
    (hstep : Step roster m access next) {i : ι} {id : SegmentId}
    (hid : next.segment? roster i = some id) :
    m.segment? roster i = some id ∨
      m.kernel.names.get? (roster i).config.segment = some id ∨
      m.kernel.segments.length ≤ id := by
  rcases acts_cases hsound hstep i with
    ⟨hstage, hmapping⟩ | ⟨bytes, hidle, rfl⟩ | ⟨block, hholding, rfl⟩ | ⟨c, -, hcalling, rfl⟩
  · exact Or.inl ((segment?_stays hstage hmapping).symm.trans hid)
  · rw [segment?, stage_settle_self, site_settle_self] at hid
    rcases (roster i).beginAllocate_spec bytes (m.site (roster i).home) with
      ⟨phase, hfirst, heq⟩ | ⟨o, heq, hafter⟩
    · rw [heq] at hid
      cases hfirst <;> cases hid
    · rw [heq, hafter] at hid
      cases hid
  · rw [segment?, stage_settle_self, site_settle_self] at hid
    rw [segment?, hholding]
    exact Or.inl hid
  · have hsuits := hsound.suits i
    have hplaced := hsound.placed i
    rw [segment?, stage_settle_self, site_settle_self] at hid
    simp only [mapping?, segment?, hcalling] at hsuits hplaced ⊢
    cases c with
    | attach a phase =>
      have ht := a.step_transition phase (m.site (roster i).home)
      rcases ht.segment_cases hsuits.2 hplaced hid with h | h | h
      · exact Or.inl h
      · exact Or.inr (Or.inl (hsuits.1 ▸ h))
      · exact Or.inr (Or.inr h.length_le)
    | detach d phase =>
      exact Or.inl ((d.step_transition phase (m.site (roster i).home)).segment_before hid)

theorem Sound.run {m₀ : Machine κ ι} {Allowed : Machine κ ι → Prop}
    {history : List (Access ι)} (h : m₀.Sound roster) (hrun : Run roster Allowed m₀ history m) :
    m.Sound roster := by
  induction hrun with
  | start => exact h
  | step _ hstep _ ih => exact sound_step ih hstep

theorem sound_of_run {m₀ : Machine κ ι} {Allowed : Machine κ ι → Prop}
    {history : List (Access ι)} (hrun : Run roster Allowed m₀ history m)
    (hidle : ∀ i, m₀.stage i = .idle) : m.Sound roster :=
  (sound_of_idle hidle).run hrun

end

end Machine
end StagingMemory
