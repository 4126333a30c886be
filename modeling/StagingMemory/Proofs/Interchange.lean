import StagingMemory.Proofs.Teardown
/-!
When a block may be released through another resource than the one it came from. Pinned memory may
be, through every device of the kind: what is unmapped depends on the kind of the device and the
length alone. Shared memory may be through a resource in the same role, a leader's of the same name,
on the same device or on the host under any policy: releases differ in what they report, in how long
they wait and in whose account they count. A follower that releases its leader's block leaves the
name behind. Main statements: `Machine.release_agrees`, and `Machine.interchangeable_differs` for two
resources of one name and size with different roles.
-/
namespace StagingMemory

/-! ### Room -/

namespace Memory.AddressSpace

theorem wordPages_le_firstPage : wordPages ≤ firstPage := by decide

/-- No mapping is longer than the longer one of the two stretches. -/
theorem length_le_of_stretchFor? {a : AddressSpace} {length : Nat} {stretch : Stretch}
    (h : a.stretchFor? (pagesFor length) = some stretch) :
    length ≤ Stretch.lower.pages * Page.size := by
  have hfound := List.find?_some h
  have hroom := of_decide_eq_true hfound
  have hlonger : stretch.pages ≤ Stretch.lower.pages := by cases stretch <;> decide
  simp only [pagesFor, Page.size] at hroom ⊢
  omega

theorem length_le_of_place? {a b : AddressSpace} {length address : Nat} {backing : Backing}
    (h : a.place? length backing = some (address, b)) :
    length ≤ Stretch.lower.pages * Page.size := by
  obtain ⟨stretch, hstretch, -⟩ := Option.map_eq_some_iff.mp h
  exact length_le_of_stretchFor? hstretch

theorem length_le_of_mapOwn {a b : AddressSpace} {length address : Nat}
    (h : a.mapOwn length = .ok (address, b)) :
    length ≤ Stretch.lower.pages * Page.size := by
  unfold mapOwn map at h
  dsimp only at h
  split at h
  · cases h
  · split at h
    case h_1 hplace =>
      cases h
      exact length_le_of_place? hplace
    case h_2 => cases h

/-- What was mapped high enough can be unmapped. -/
theorem unmap_of_mapOwn {a b : AddressSpace} {length address : Nat}
    (h : a.mapOwn length = .ok (address, b)) (hhigh : wordPages ≤ a.nextPage)
    (c : AddressSpace) : c.unmap address length = .ok (c.release address length) := by
  have hmapped := mapped_of_map_eq_ok h
  have hbase : address = a.nextPage * Page.size := hmapped.base_eq
  have hpos := hmapped.length_pos
  have hlength := length_le_of_mapOwn h
  have hshort : length < lengthLimit := by
    simp only [Stretch.pages, Page.size, lengthLimit] at hlength ⊢
    omega
  have hfirst : address / Page.size = a.nextPage := by
    rw [hbase, Nat.mul_div_cancel _ (by decide)]
  have hadmits : admits address length = true := by
    simp [admits, hshort, hfirst, hhigh]
  have haligned : address % Page.size = 0 := by
    rw [hbase, Nat.mul_mod_left]
  unfold unmap
  rw [if_neg]
  simp [haligned, hadmits, Nat.pos_iff_ne_zero.mp hpos]

/-- Pages that are mapped can be unlocked. -/
theorem unlock_of_mapped {a : AddressSpace} {address length : Nat}
    (hwraps : wraps (touched address length) = false)
    (hmapped : ∀ page ∈ touched address length, page ∈ a.mapped) :
    ∃ b, a.unlock address length = .ok b := by
  have hcovers : a.mapped.covers (touched address length) = true :=
    PageSet.covers_of_forall_mem hmapped
  unfold unlock
  simp [hwraps, hcovers]

end Memory.AddressSpace

/-! ### Devices -/

namespace Process

variable {p q : Process} {index address : Nat} {bytes : UInt64}

/-- A dummy records the request. What it hands out is fresh, and small enough to be freed again. -/
theorem dummyAllocate_spec {result : Except DeviceError Nat}
    (h : p.dummyAllocate index bytes = (result, q)) :
    q = { p.modifyDummy index fun _ => (p.dummy index).record .allocate with space := q.space } ∧
      (∀ error, result = .error error → q.space = p.space) ∧
      ∀ address, result = .ok address → bytes.toNat ≤ DummyDevice.blockLimit ∧
        p.space.grow? bytes.toNat = some (address, q.space) := by
  unfold dummyAllocate DummyDevice.enter at h
  dsimp only at h
  split at h
  case h_1 =>
    cases h
    exact ⟨rfl, fun _ _ => rfl, by simp⟩
  case h_2 =>
    split at h
    case h_1 space hgrow =>
      cases h
      refine ⟨rfl, by simp, fun address haddress => ?_⟩
      cases haddress
      have hlength := Memory.AddressSpace.length_le_of_place? hgrow
      refine ⟨?_, hgrow⟩
      simp only [Memory.Stretch.pages, Page.size] at hlength
      unfold DummyDevice.blockLimit
      omega
    case h_2 =>
      cases h
      exact ⟨rfl, fun _ _ => rfl, by simp⟩

/-- A dummy that was not told to fail takes back any block that it could have handed out. -/
theorem dummyFree_eq (hanswers : .free ∉ (p.dummy index).failing)
    (hfits : bytes.toNat ≤ DummyDevice.blockLimit) :
    p.dummyFree index address bytes =
      (.ok (), { p.modifyDummy index fun _ => (p.dummy index).record .free with
        space := p.space.release address bytes.toNat }) := by
  have hrecord : (p.dummy index).enter .free = (.ok (), (p.dummy index).record .free) := by
    rw [DummyDevice.enter, if_neg hanswers]
  simp only [dummyFree, hrecord, if_neg (Nat.not_lt.mpr hfits)]
  rfl

end Process

def Backend.extent (backend : Backend) (bytes : UInt64) : Nat :=
  match backend with
  | .host => ((Page.roundUp? bytes).getD 0).toNat
  | .dummy => bytes.toNat

namespace Device

/-- `q` is `p` after a device of the kind freed the block: the block's pages are unmapped. -/
structure Freed (backend : Backend) (block : Block) (p q : Process) : Prop where
  settings : p.SameSettings q
  space_eq : q.space = p.space.release block.address (backend.extent block.bytes)
  accounts_eq : q.accounts = p.accounts
  registration?_eq : ∀ index address,
    (q.dummy index).registration? address = (p.dummy index).registration? address

def Answers (device : Device) (call : DeviceCall) (p : Process) : Prop :=
  ∀ index, device = .dummy index → call ∉ (p.dummy index).failing

/-- The block came from a device of the kind, in a process that began like any other. -/
def HandedOut (backend : Backend) (block : Block) : Prop :=
  ∃ (device : Device) (pid : UInt32) (p q : Process), device.backend = backend ∧
    (Process.fresh pid).Moves p ∧
    device.allocate p block.bytes = (.returned (.ok block.address), q)

theorem hostFree_of_handedOut {block : Block} (h : HandedOut .host block) (p : Process) :
    ∃ q, p.hostFree block.address block.bytes = (.ok (), q) ∧ Freed .host block p q := by
  obtain ⟨device, pid, before, after, hbackend, hmoves, hallocate⟩ := h
  cases device with
  | dummy index => cases hbackend
  | host policy =>
    have hhigh : Memory.AddressSpace.wordPages ≤ before.space.nextPage :=
      Nat.le_trans Memory.AddressSpace.wordPages_le_firstPage hmoves.nextPage_le
    unfold allocate Process.hostAllocate at hallocate
    dsimp only at hallocate
    split at hallocate
    · cases hallocate
    case h_2 length hrounded =>
      split at hallocate
      · cases hallocate
      case h_2 address space hmap =>
        have haddress : address = block.address := by
          split at hallocate <;> cases hallocate
          rfl
        have hunmap := Memory.AddressSpace.unmap_of_mapOwn (haddress ▸ hmap) hhigh p.space
        have hextent : Backend.host.extent block.bytes = length.toNat := by
          rw [Backend.extent, hrounded, Option.getD_some]
        have hfree : p.hostFree block.address block.bytes = (.ok (), { p with
            space := p.space.release block.address (Backend.host.extent block.bytes) }) := by
          unfold Process.hostFree
          rw [hextent, hrounded]
          dsimp only
          rw [hunmap]
        exact ⟨_, hfree, ⟨_, p.dummies, p.accounts, p.strict, p.sinks, p.output, rfl⟩, rfl, rfl,
          fun _ _ => rfl⟩

theorem dummyFree_of_handedOut {block : Block} (h : HandedOut .dummy block) {p : Process}
    {index : Nat} (hanswers : .free ∉ (p.dummy index).failing) :
    ∃ q, p.dummyFree index block.address block.bytes = (.ok (), q) ∧ Freed .dummy block p q := by
  obtain ⟨device, pid, before, after, hbackend, hmoves, hallocate⟩ := h
  cases device with
  | host policy => cases hbackend
  | dummy other =>
    obtain ⟨result, hresult⟩ : ∃ result, before.dummyAllocate other block.bytes = result :=
      ⟨_, rfl⟩
    obtain ⟨result, q⟩ := result
    have hok : result = .ok block.address := by
      rw [allocate, hresult] at hallocate
      cases hallocate
      rfl
    have hfits := ((Process.dummyAllocate_spec hresult).2.2 _ hok).1
    have hsame : p.Unchanged (p.modifyDummy index fun _ => (p.dummy index).record .free) :=
      Process.unchanged_modifyDummy rfl
    refine ⟨_, Process.dummyFree_eq hanswers hfits,
      ⟨_, _, p.accounts, p.strict, p.sinks, p.output, rfl⟩, rfl, rfl, fun other address => ?_⟩
    exact congrArg (fun registered => Table.get? registered address) (hsame.registered_eq other)

/-- Every device of the kind frees the block, and with the same effect. -/
theorem freed_of_handedOut {device : Device} {block : Block} {p : Process}
    (h : HandedOut device.backend block) (hanswers : device.Answers .free p) :
    ∃ q, device.free p block.address block.bytes = (.ok (), q) ∧
      Freed device.backend block p q := by
  cases device with
  | host policy => exact hostFree_of_handedOut h p
  | dummy index => exact dummyFree_of_handedOut h (hanswers index rfl)

/-- What the device needs to take the block's memory back: on the host, that the block's range of
pages does not wrap; a dummy, that it has the range and was not told to fail. -/
def Takes (device : Device) (block : Block) (p : Process) : Prop :=
  match device with
  | .host _ => Memory.AddressSpace.wraps
      (Memory.AddressSpace.touched block.address block.bytes.toNat) = false
  | .dummy index => .unregister ∉ (p.dummy index).failing ∧
      ∃ flags, (p.dummy index).registration? block.address = some (block.bytes, flags)

/-- The payload of a mapping that is in place can be unlocked. -/
theorem unlock_of_held {block : Block} {m : Mapping} {s : Site} (h : block.Held m s)
    (hwraps : Memory.AddressSpace.wraps
      (Memory.AddressSpace.touched block.address block.bytes.toNat) = false) :
    ∃ space, s.process.space.unlock block.address block.bytes.toNat = .ok space :=
  Memory.AddressSpace.unlock_of_mapped hwraps fun page hp =>
    Memory.AddressSpace.mem_mapped_of_page?_eq_some (h.placed.page?_eq page (h.mem_of_touched hp))

theorem unregister_of_takes {device : Device} {block : Block} {m : Mapping} {s : Site}
    (h : block.Held m s) (htakes : device.Takes block s.process) :
    (device.unregister s.process block.address block.bytes).1 = .ok () := by
  cases device with
  | host policy =>
    obtain ⟨space, hunlock⟩ := unlock_of_held h htakes
    cases policy <;> simp [unregister, Process.unlockPages, hunlock]
  | dummy index =>
    obtain ⟨hanswers, flags, hregistered⟩ := htakes
    have hget : (s.process.dummy index).registered.get? block.address =
      some (block.bytes, flags) := hregistered
    simp [unregister, DummyDevice.unregister, DummyDevice.enter, DummyDevice.record, hanswers,
      hget]

/-- A device that stands for another: the same dummy, or the host under whatever policy. -/
def Covers (device other : Device) : Prop :=
  device.backend = other.backend ∧ ∀ index, device = .dummy index → other = .dummy index

theorem Covers.takes {device other : Device} {block : Block} {p : Process}
    (h : device.Covers other) (htakes : device.Takes block p) : other.Takes block p := by
  cases device with
  | dummy index =>
    rw [h.2 index rfl]
    exact htakes
  | host policy =>
    cases other with
    | host other => exact htakes
    | dummy index => cases h.1

theorem Covers.eq_dummy_iff {device other : Device} (h : device.Covers other) (index : Nat) :
    other = .dummy index ↔ device = .dummy index := by
  refine ⟨fun hother => ?_, h.2 index⟩
  subst hother
  cases device with
  | host policy => cases h.1
  | dummy mine => exact (h.2 mine rfl).symm

end Device

/-! ### What two releases have in common -/

/-- Names, segments, mappings, locks and registrations are the same in both. They differ at most in
the time, in the accounts, in what was written, and in what of the dummies is no registration. -/
structure Site.Agrees (t u : Site) : Prop where
  names_eq : ∀ name, u.kernel.names.get? name = t.kernel.names.get? name
  segment?_eq : ∀ id, u.kernel.segment? id = t.kernel.segment? id
  page?_eq : ∀ page, u.process.space.page? page = t.process.space.page? page
  mem_locked_iff : ∀ page, page ∈ u.process.space.locked ↔ page ∈ t.process.space.locked
  registration?_eq : ∀ index address,
    (u.process.dummy index).registration? address = (t.process.dummy index).registration? address
  alive_eq : u.kernel.alive = t.kernel.alive
  settings : t.process.SameSettings u.process

/-- What a release undoes depends on the block and the role, for a leader on the name, and on the
device. -/
theorem Detach.Undone.agrees {d e : Detach} {m : Mapping} {s t u : Site} (hd : d.Undone m s t)
    (he : e.Undone m s u) (hblock : e.block = d.block)
    (hrole : e.config.isLeader = d.config.isLeader)
    (hname : d.config.isLeader = true → e.config.segment = d.config.segment)
    (hdevice : d.device.Covers e.device) : t.Agrees u where
  names_eq name := by
    rw [he.names_eq, hd.names_eq, hrole]
    cases hleads : d.config.isLeader with
    | true => rw [hname hleads]
    | false => simp
  segment?_eq id := by
    rw [he.segment?_eq, hd.segment?_eq, he.header_eq, hd.header_eq, hrole]
  page?_eq page := (he.page?_eq page).trans (hd.page?_eq page).symm
  mem_locked_iff page := (he.mem_locked_iff page).trans (hd.mem_locked_iff page).symm
  registration?_eq index address := by
    rw [he.registration?_eq, hd.registration?_eq, hblock]
    simp only [hdevice.eq_dummy_iff]
  alive_eq := he.alive_eq.trans hd.alive_eq.symm
  settings := hd.settings.symm.trans he.settings

namespace Resource

/-! ### Pinned memory -/

theorem handedOut_of_allocate {device : Device} {account : Nat} {block : Block} {bytes : UInt64}
    {s t : Site} {pid : UInt32} (hmoves : (Process.fresh pid).Moves s.process)
    (h : (⟨.pinned, device, account⟩ : Resource).allocate bytes s =
      (.done (.returned (.allocated (some block))), t)) :
    Device.HandedOut device.backend block := by
  unfold allocate beginAllocate at h
  split at h
  · cases h
  · rw [runAlone_done] at h
    have hreturned := congrArg Prod.fst h
    simp only [Progress.done.injEq, Outcome.map_eq_returned_iff] at hreturned
    obtain ⟨result, hresult, hblock⟩ := hreturned
    cases result with
    | error e => cases hblock
    | ok handed =>
      cases hblock
      unfold Pinned.allocate at hresult
      dsimp only at hresult
      split at hresult
      case h_1 result p hallocate =>
        unfold Pinned.allocated at hresult
        cases result with
        | error e => cases hresult
        | ok address =>
          dsimp only at hresult
          split at hresult <;> cases hresult
          exact ⟨device, pid, s.process, p, rfl, hmoves, hallocate⟩
      all_goals cases hresult

theorem release_pinned {device : Device} {block : Block} {s : Site} {q : Process} (account : Nat)
    (hfree : device.free s.process block.address block.bytes = (.ok (), q)) :
    (⟨.pinned, device, account⟩ : Resource).release block s =
      (.done (.returned .released), { s with process := q.recordRelease account block.bytes }) := by
  unfold release beginRelease
  dsimp only
  rw [runAlone_done]
  simp only [Pinned.release, hfree]
  rfl

/-! ### Standing in -/

/-- When `b` may release a block of `a`'s. For pinned memory no dummy may have been told to fail. For
shared memory both have the same role, and leaders the same name; the device takes the block back,
and if it is a dummy it is the same one; and the clock can hold both deadlines. -/
def MayRelease (b a : Resource) (block : Block) (s : Site) : Prop :=
  match a.strategy, b.strategy with
  | .shared mine, .shared its =>
    its.isLeader = mine.isLeader ∧ (mine.isLeader = true → its.segment = mine.segment) ∧
      a.device.Takes block s.process ∧
      (∀ index, a.device = .dummy index → b.device = .dummy index) ∧
      mine.Timely s.kernel.clock ∧ its.Timely s.kernel.clock
  | _, _ => a.device.Answers .free s.process ∧ b.device.Answers .free s.process

/-- Both releases end, neither aborts, and they agree but for the account that counts them. -/
def ReleasesAgree (a b : Resource) (block : Block) (s : Site) : Prop :=
  ∃ o o' t t', a.release block s = (.done o, t) ∧ b.release block s = (.done o', t') ∧
    o ≠ .aborted ∧ o' ≠ .aborted ∧ t.Agrees t' ∧
    t.process.accounts =
      s.process.accounts.modify a.account (·.recordRelease block.bytes) ∧
    t'.process.accounts =
      s.process.accounts.modify b.account (·.recordRelease block.bytes)

theorem releasesAgree_pinned {device other : Device} {account its : Nat} {block : Block} {s : Site}
    (hhanded : Device.HandedOut device.backend block) (hbackend : other.backend = device.backend)
    (hmine : device.Answers .free s.process) (hits : other.Answers .free s.process) :
    ReleasesAgree ⟨.pinned, device, account⟩ ⟨.pinned, other, its⟩ block s := by
  obtain ⟨p, hp, hfreed⟩ := Device.freed_of_handedOut hhanded hmine
  obtain ⟨q, hq, hfreed'⟩ := Device.freed_of_handedOut (hbackend ▸ hhanded) hits
  rw [hbackend] at hfreed'
  refine ⟨_, _, _, _, release_pinned account hp, release_pinned its hq, by simp, by simp,
    ⟨fun _ => rfl, fun _ => rfl, fun page => ?_, fun page => ?_, fun index address => ?_, rfl, ?_⟩,
    ?_, ?_⟩
  · simp only [Process.recordRelease, Process.modifyAccount, hfreed.space_eq, hfreed'.space_eq]
  · simp only [Process.recordRelease, Process.modifyAccount, hfreed.space_eq, hfreed'.space_eq]
  · exact (hfreed'.registration?_eq index address).trans
      (hfreed.registration?_eq index address).symm
  · exact (hfreed.settings.trans (p.sameSettings_modifyAccount _ _)).symm.trans
      (hfreed'.settings.trans (q.sameSettings_modifyAccount _ _))
  · simp only [Process.recordRelease, Process.modifyAccount, hfreed.accounts_eq]
  · simp only [Process.recordRelease, Process.modifyAccount, hfreed'.accounts_eq]

/-! ### Shared memory -/

theorem releasesAgree_shared {mine its : SharingConfig} {device other : Device}
    {account its' : Nat} {block : Block} {m : Mapping} {s : Site} (hheld : block.Held m s)
    (htakes : device.Takes block s.process) (hdevice : device.Covers other)
    (hrole : its.isLeader = mine.isLeader)
    (hname : mine.isLeader = true → its.segment = mine.segment)
    (hmine : mine.Timely s.kernel.clock) (hits : its.Timely s.kernel.clock) :
    ReleasesAgree ⟨.shared mine, device, account⟩ ⟨.shared its, other, its'⟩ block s := by
  have hready : (⟨mine, device, account, block⟩ : Detach).Ready m s :=
    ⟨hheld, hmine, Device.unregister_of_takes hheld htakes⟩
  have hready' : (⟨its, other, its', block⟩ : Detach).Ready m s :=
    ⟨hheld, hits, Device.unregister_of_takes hheld (hdevice.takes htakes)⟩
  obtain ⟨o, t, hrelease, hcompleted⟩ := hready.completed
  obtain ⟨o', t', hrelease', hcompleted'⟩ := hready'.completed
  refine ⟨o, o', t, t', hrelease, hrelease', hcompleted.ne_aborted, hcompleted'.ne_aborted,
    hcompleted.undone.agrees hcompleted'.undone rfl hrole hname hdevice, ?_, ?_⟩
  · simp only [Statistics.recordRelease_eq]
    exact hcompleted.undone.accounts_eq
  · simp only [Statistics.recordRelease_eq]
    exact hcompleted'.undone.accounts_eq

end Resource

namespace Machine

variable {κ : Type u} {ι : Type v}

/-- A process has a block of a resource's to release: a member holds it, or it is pinned memory that
was handed out before, in a process that began like any other. -/
inductive Owes (m : Machine κ ι) (roster : ι → Member κ) : κ → Resource → Block → Prop
  | shared {i : ι} {block : Block} (h : m.stage i = .holding block) :
      Owes m roster (roster i).home (roster i).resource block
  | pinned {home : κ} {device : Device} {account : Nat} {block : Block} {bytes : UInt64}
      {s t : Site} {pid : UInt32} (hmoves : (Process.fresh pid).Moves s.process)
      (h : (⟨.pinned, device, account⟩ : Resource).allocate bytes s =
        (.done (.returned (.allocated (some block))), t)) :
      Owes m roster home ⟨.pinned, device, account⟩ block

variable [DecidableEq κ] [DecidableEq ι] {roster : ι → Member κ} {m₀ m : Machine κ ι}
  {Allowed : Machine κ ι → Prop} {history : List (Access ι)}

/-- In every state that the machine can reach, a block may be released through an interchangeable
resource with the same effect as through the one it came from, if both are pinned, or in the same
role and under the same name, and their devices answer. Neither release aborts. -/
theorem release_agrees (hrun : Run roster Allowed m₀ history m)
    (hidle : ∀ i, m₀.stage i = .idle) {home : κ} {a b : Resource} {block : Block}
    (howes : m.Owes roster home a block) (hequal : a.interchangeable b = true)
    (hmay : b.MayRelease a block (m.site home)) : a.ReleasesAgree b block (m.site home) := by
  obtain ⟨hkind, hbackend⟩ := (Resource.interchangeable_iff a b).mp hequal
  obtain ⟨strategy, other, its⟩ := b
  cases howes with
  | pinned hmoves hallocate =>
    cases strategy with
    | shared config => cases hkind
    | pinned =>
      exact Resource.releasesAgree_pinned (Resource.handedOut_of_allocate hmoves hallocate)
        hbackend.symm hmay.1 hmay.2
  | shared hholding =>
    cases strategy with
    | pinned => cases hkind
    | shared config =>
      obtain ⟨mapping, -, hheld⟩ := held_of_run hrun hidle hholding
      obtain ⟨hrole, hname, htakes, hsame, hmine, hits⟩ := hmay
      exact Resource.releasesAgree_shared hheld htakes ⟨hbackend, hsame⟩ hrole hname hmine hits

def hasty : Resource :=
  ⟨.shared { (sample () id).config with teardownTimeout := ⟨0⟩ }, .host .required, 1⟩

/-- A leader's block goes back through one that locks pages and does not wait; and a pinned block
through a resource that locks pages. -/
theorem release_agrees_host :
    (∃ (history : List (Access Unit)) (m : Machine Unit Unit) (block : Block),
      Run (fun _ => sample () id) (fun _ => True) (fresh (fun _ => 1) [1]) history m ∧
        m.Owes (fun _ => sample () id) () (sample () id).resource block ∧
        (sample () id).resource.interchangeable hasty = true ∧
        hasty.MayRelease (sample () id).resource block (m.site ()) ∧
        (sample () id).resource.ReleasesAgree hasty block (m.site ())) ∧
    (fresh (fun _ => 1) [1] : Machine Unit Unit).Owes (fun _ => sample () id) ()
        ⟨.pinned, .host .disabled, 0⟩ ⟨Memory.AddressSpace.firstPage * Page.size, 4096⟩ ∧
      (⟨.pinned, .host .disabled, 0⟩ : Resource).ReleasesAgree ⟨.pinned, .host .required, 1⟩
        ⟨Memory.AddressSpace.firstPage * Page.size, 4096⟩
        ((fresh (fun _ => 1) [1] : Machine Unit Unit).site ()) := by
  refine ⟨?_, ?_⟩
  · obtain ⟨⟨history, m⟩, hplay, hreached⟩ := Option.map_eq_some_iff.mp
      (by decide +kernel :
        (play (fun _ => sample () id) (fun _ => True)
          (.allocate () 4096 :: List.replicate 10 (.access ()))
          ([], (fresh (fun _ => 1) [1] : Machine Unit Unit))).map (fun (_, m) =>
            (m.stage ()).block?.map fun block =>
              (Memory.AddressSpace.wraps
                (Memory.AddressSpace.touched block.address block.bytes.toNat),
                (Wait.start? m.kernel.clock (sample () id).config.teardownTimeout
                  (sample () id).config.pollInterval).isSome)) =
          some (some (false, true)))
    simp only [Option.map_eq_some_iff, Prod.mk.injEq] at hreached
    obtain ⟨block, hblock, hwraps, hstarts⟩ := hreached
    have howes : m.Owes (fun _ => sample () id) () (sample () id).resource block :=
      .shared (i := ()) (Stage.eq_holding_of_block?_eq_some hblock)
    have hrun := run_of_play (.start trivial) _ hplay
    have hmay : hasty.MayRelease (sample () id).resource block (m.site ()) :=
      ⟨rfl, fun _ => rfl, hwraps, nofun, fun _ => Or.inr (Option.isSome_iff_ne_none.mp hstarts),
        fun _ => Or.inl rfl⟩
    exact ⟨history, m, block, hrun, howes, rfl, hmay,
      release_agrees hrun (fun _ => rfl) howes rfl hmay⟩
  · have hallocate : ∃ t, (⟨.pinned, .host .disabled, 0⟩ : Resource).allocate 4096
        ⟨.initial [1] 0, .fresh 1⟩ = (.done (.returned (.allocated
          (some ⟨Memory.AddressSpace.firstPage * Page.size, 4096⟩))), t) :=
      ⟨_, Prod.ext (by decide +kernel) rfl⟩
    obtain ⟨t, hallocate⟩ := hallocate
    have howes : (fresh (fun _ => 1) [1] : Machine Unit Unit).Owes (fun _ => sample () id) ()
        ⟨.pinned, .host .disabled, 0⟩ ⟨Memory.AddressSpace.firstPage * Page.size, 4096⟩ :=
      .pinned ⟨rfl, fun _ _ _ h => h, Nat.le_refl _⟩ hallocate
    have hrun : Run (fun _ => sample () id) (fun _ => True)
        (fresh (fun _ => 1) [1] : Machine Unit Unit) [] (fresh (fun _ => 1) [1]) := .start trivial
    exact ⟨howes, release_agrees hrun (fun _ => rfl) howes rfl ⟨nofun, nofun⟩⟩

def doubled (_ : Unit) : Member Unit := { sample () id with device := .dummy 0 }

def twoDummies : Machine Unit Unit :=
  { (fresh (fun _ => 1) [1] : Machine Unit Unit) with
    process := fun _ =>
      (((Process.fresh 1).openAccount.2.addDummy .none).2.addDummy .none).2 }

def trailing : Resource := ⟨.shared { (doubled ()).config with rank := 1 }, .dummy 0, 1⟩

def astray : Resource := ⟨.shared (doubled ()).config, .dummy 1, 1⟩

/-- Being interchangeable is not enough. A follower that releases its leader's block leaves the name
bound and the header ready, where the leader would have retired the one and freed the other; and a
leader on another dummy aborts. -/
theorem interchangeable_differs : ∃ (history : List (Access Unit)) (m : Machine Unit Unit)
    (block : Block) (t u : Site), Run doubled (fun _ => True) twoDummies history m ∧
      m.Owes doubled () (doubled ()).resource block ∧
      (doubled ()).resource.interchangeable trailing = true ∧
      (doubled ()).resource.interchangeable astray = true ∧
      (doubled ()).resource.release block (m.site ()) = (.done (.returned .released), t) ∧
      t.kernel.names.get? (doubled ()).config.segment = none ∧
      (t.kernel.header 0).isReady = false ∧
      trailing.release block (m.site ()) = (.done (.returned .released), u) ∧
      u.kernel.names.get? (doubled ()).config.segment = some 0 ∧
      (u.kernel.header 0).isReady = true ∧
      (astray.release block (m.site ())).1 = .done .aborted := by
  obtain ⟨⟨history, m⟩, hplay, hreached⟩ := Option.bind_eq_some_iff.mp
    (by decide +kernel :
      (play doubled (fun _ => True) (.allocate () 4096 :: List.replicate 10 (.access ()))
        ([], twoDummies)).bind (fun (_, m) => (m.stage ()).block?.map fun block =>
          ([(doubled ()).resource, trailing].map fun r => ((r.release block (m.site ())).1,
              (r.release block (m.site ())).2.kernel.names.get? (doubled ()).config.segment,
              ((r.release block (m.site ())).2.kernel.header 0).isReady),
            (astray.release block (m.site ())).1)) =
        some ([(.done (.returned .released), none, false),
          (.done (.returned .released), some 0, true)], .done .aborted))
  simp only [Option.map_eq_some_iff, Prod.mk.injEq, List.map_cons, List.map_nil, List.cons.injEq]
    at hreached
  obtain ⟨block, hblock, ⟨⟨hmine, hfreed, hretired⟩, ⟨htrailing, hbound, hready⟩, -⟩, habort⟩ :=
    hreached
  exact ⟨history, m, block, _, _, run_of_play (.start trivial) _ hplay,
    .shared (i := ()) (Stage.eq_holding_of_block?_eq_some hblock), rfl, rfl,
    Prod.ext hmine rfl, hfreed, hretired, Prod.ext htrailing rfl, hbound, hready, habort⟩

end Machine
end StagingMemory
