import StagingMemory.Proofs.Machine
import StagingMemory.Proofs.Termination
/-!
A release of shared memory undoes everything before it reports anything. The call is followed phase
by phase: what it has done to names and segments by then does not depend on how the leader's wait
went, and until its last step nothing was written. Main statement: in every state that the machine
can reach, however the header reads, a release whose memory the device takes back ends; by then the
mapping, the registration, the header's count, the name and the account are settled, and only then
does a report, which may be fatal, go out (`Machine.release_complete`).
-/
namespace StagingMemory

/-! ### Another time -/

/-- `k'` is `k` at some other time. -/
def Kernel.Later (k k' : Kernel) : Prop := ∃ clock, k' = { k with clock }

namespace Kernel.Later

variable {k k' : Kernel}

theorem refl (k : Kernel) : k.Later k := ⟨k.clock, rfl⟩

theorem modifyHeader (h : k.Later k') (id : SegmentId) (f : Header → Header) :
    (k.modifyHeader id f).Later (k'.modifyHeader id f) := by
  obtain ⟨clock, rfl⟩ := h
  exact ⟨clock, rfl⟩

theorem unbind (h : k.Later k') (name : SegmentName) : (k.unbind name).Later (k'.unbind name) := by
  obtain ⟨clock, rfl⟩ := h
  exact ⟨clock, rfl⟩

theorem passUntil (h : k.Later k') (time : Nat) : k.Later (k'.passUntil time) := by
  obtain ⟨clock, rfl⟩ := h
  exact ⟨_, rfl⟩

theorem names_eq (h : k.Later k') : k'.names = k.names := by
  obtain ⟨clock, rfl⟩ := h
  rfl

theorem alive_eq (h : k.Later k') : k'.alive = k.alive := by
  obtain ⟨clock, rfl⟩ := h
  rfl

theorem segment?_eq (h : k.Later k') (id : SegmentId) : k'.segment? id = k.segment? id := by
  obtain ⟨clock, rfl⟩ := h
  rfl

theorem header_eq (h : k.Later k') (id : SegmentId) : k'.header id = k.header id := by
  obtain ⟨clock, rfl⟩ := h
  rfl

end Kernel.Later

/-- The leader's deadline, if it waits at all, is a time that the clock can hold. -/
def SharingConfig.Timely (config : SharingConfig) (now : Nat) : Prop :=
  config.isLeader = true → config.teardownTimeout.isZero = true ∨
    Wait.start? now config.teardownTimeout config.pollInterval ≠ none

/-! ### Payloads -/

/-- The block is there: its mapping is in place, and its segment exists. -/
structure Block.Held (block : Block) (m : Mapping) (s : Site) : Prop where
  mappingOf?_eq : s.mappingOf? block = some m
  placed : m.Placed s.process.space
  behind : Page.headerLength ≤ block.address
  known : m.segment < s.kernel.segments.length

namespace Block.Held

variable {block : Block} {m : Mapping} {s : Site}

theorem payload_eq (h : block.Held m s) : block.address = m.payload := by
  have hbase := (Site.mappingOf?_eq_some_iff.mp h.mappingOf?_eq).1
  have hbehind := h.behind
  simp only [Mapping.payload]
  omega

theorem length_eq (h : block.Held m s) : m.length = Page.headerLength + block.bytes.toNat :=
  (Site.mappingOf?_eq_some_iff.mp h.mappingOf?_eq).2.1

/-- Whatever stands in the header. -/
theorem modifyHeader (h : block.Held m s) (f : Header → Header) :
    block.Held m (s.modifyHeader m f) where
  mappingOf?_eq := h.mappingOf?_eq
  placed := h.placed
  behind := h.behind
  known := by simpa [Site.modifyHeader, Kernel.modifyHeader, Kernel.modifySegment] using h.known

/-- The pages of a payload are pages of its mapping. -/
theorem mem_of_touched (h : block.Held m s) {page : Nat}
    (hp : page ∈ Memory.AddressSpace.touched block.address block.bytes.toNat) :
    page ∈ Memory.AddressSpace.mappingSpan m.base m.length := by
  rw [h.payload_eq] at hp
  obtain ⟨hlow, hhigh⟩ := hp
  have haligned := h.placed.aligned
  have hfits := Nat.mod_le
    (Memory.AddressSpace.pagesFor (m.payload % Page.size + block.bytes.toNat))
    Memory.AddressSpace.wordPages
  simp only [Memory.AddressSpace.touched, Mapping.payload, Memory.AddressSpace.pagesFor,
    Page.headerLength, Page.size] at hlow hhigh haligned hfits
  simp only [Memory.AddressSpace.mappingSpan, Memory.AddressSpace.pagesFor, h.length_eq,
    Page.headerLength, Page.size, Memory.Span.mem_def]
  omega

end Block.Held

/-- A block handed out by an attachment lies behind a header. -/
theorem Call.headerLength_le_of_step {c : Call} {s : Site} {block : Block}
    (h : (c.step s).1 = .done (.returned (.allocated (some block)))) :
    Page.headerLength ≤ block.address := by
  cases c with
  | detach d phase =>
    simp only [step, ofDetach] at h
    generalize (d.step phase s).1 = progress at h
    cases progress with
    | running => cases h
    | done o => cases o <;> cases h
  | attach a phase =>
    have ht := a.step_transition phase s
    simp only [step, ofAttach] at h
    generalize (a.step phase s).1 = progress at h ht
    generalize (a.step phase s).2 = t at ht
    cases ht with
    | finished hsucceeded =>
      obtain ⟨-, ho⟩ := Attach.succeeded_spec hsucceeded
      split at ho
      · subst ho
        cases h
        exact Nat.le_add_left _ _
      · subst ho
        cases h
    | failed hfailed =>
      rcases (Attach.failed_spec hfailed).2 with rfl | ⟨_, _, _, rfl⟩ <;> cases h
    | _ => cases h

namespace Machine

variable {κ : Type u} {ι : Type v} [DecidableEq κ] [DecidableEq ι] {roster : ι → Member κ}

/-- Every block that a member holds lies behind a header. -/
theorem headerLength_le_of_run {m₀ m : Machine κ ι} {Allowed : Machine κ ι → Prop}
    {history : List (Access ι)} (hrun : Run roster Allowed m₀ history m)
    (hidle : ∀ i, m₀.stage i = .idle) {i : ι} {block : Block}
    (hholding : m.stage i = .holding block) : Page.headerLength ≤ block.address := by
  induction hrun with
  | start =>
    rw [hidle i] at hholding
    cases hholding
  | @step _ m _ _ _ hstep _ ih =>
    rcases holding_before hstep hholding with hbefore | ⟨c, -, hdone⟩
    · exact ih hbefore
    · exact c.headerLength_le_of_step hdone

end Machine

namespace Detach

/-! ### Where a release stands -/

/-- What the leader does to names and segments before it leaves; a follower does nothing. -/
def givenUp (d : Detach) (m : Mapping) (k : Kernel) : Kernel :=
  if d.config.isLeader then (k.modifyHeader m.segment .retire).unbind d.config.segment else k

def tornDown (d : Detach) (m : Mapping) (k : Kernel) : Kernel :=
  (d.givenUp m k).modifyHeader m.segment .leave

theorem get?_names_tornDown (d : Detach) (m : Mapping) (k : Kernel) (name : SegmentName) :
    (d.tornDown m k).names.get? name =
      if d.config.isLeader ∧ name = d.config.segment then none else k.names.get? name := by
  unfold tornDown givenUp
  cases d.config.isLeader with
  | true => simp [Kernel.get?_names_unbind]
  | false => simp

theorem header_tornDown (d : Detach) {m : Mapping} {k : Kernel}
    (h : m.segment < k.segments.length) : (d.tornDown m k).header m.segment =
      if d.config.isLeader then
        { k.header m.segment with state := Header.retiredMark, live := (k.header m.segment).live - 1 }
      else { k.header m.segment with live := (k.header m.segment).live - 1 } := by
  have hsegment : k.segment? m.segment = some k.segments[m.segment] := List.getElem?_eq_getElem h
  unfold tornDown givenUp
  cases d.config.isLeader with
  | true =>
    simp [Kernel.header, Kernel.segment?_modifyHeader, hsegment, Header.leave, Header.lowerLive,
      Header.retire, Header.setState]
  | false =>
    simp [Kernel.header, Kernel.segment?_modifyHeader, hsegment, Header.leave, Header.lowerLive]

theorem alive_tornDown (d : Detach) (m : Mapping) (k : Kernel) :
    (d.tornDown m k).alive = k.alive := by
  unfold tornDown givenUp
  cases d.config.isLeader <;> rfl

/-- Of the segment only the header changes. -/
theorem segment?_tornDown (d : Detach) (m : Mapping) (k : Kernel) (id : SegmentId) :
    (d.tornDown m k).segment? id =
      if id = m.segment then (k.segment? id).map fun segment =>
        { segment with header := (d.tornDown m k).header m.segment }
      else k.segment? id := by
  unfold tornDown givenUp
  by_cases hid : id = m.segment
  · subst hid
    cases hsegment : k.segment? m.segment <;> cases d.config.isLeader <;>
      simp [Kernel.header, Kernel.segment?_modifyHeader, hsegment]
  · cases d.config.isLeader <;> simp [Kernel.segment?_modifyHeader, hid, Ne.symm hid]

/-- What the process is once its mapping is gone and the release is counted, `p` being what it was
after unregistering. -/
def counted (d : Detach) (m : Mapping) (p : Process) : Process :=
  { p with space := p.space.release m.base m.length }.recordRelease d.account d.block.bytes

/-- What holds between the site where the release began and the site where it is, phase by phase.
`p` is the process after unregistering. -/
def During (d : Detach) (s₀ : Site) (m : Mapping) (p : Process) (s : Site) : Phase → Prop
  | .unregister => s = s₀
  | .gather mine =>
    mine = m ∧ s.process = p ∧ d.config.isLeader = true ∧ s.kernel = s₀.kernel
  | .readJoined _ mine | .readLive _ mine _ | .missed _ mine _ _ | .pause _ mine _
  | .retire mine _ =>
    mine = m ∧ s.process = p ∧ d.config.isLeader = true ∧ s₀.kernel.Later s.kernel
  | .unlink mine _ =>
    mine = m ∧ s.process = p ∧ d.config.isLeader = true ∧
      (s₀.kernel.modifyHeader m.segment .retire).Later s.kernel
  | .leave mine _ _ => mine = m ∧ s.process = p ∧ (d.givenUp m s₀.kernel).Later s.kernel
  | .close mine _ _ => mine = m ∧ s.process = p ∧ (d.tornDown m s₀.kernel).Later s.kernel

/-- How the release ends: everything is undone, and all that followed are its reports. -/
def Ended (d : Detach) (s₀ : Site) (m : Mapping) (p : Process) (o : Outcome Unit) (t : Site) :
    Prop :=
  (d.tornDown m s₀.kernel).Later t.kernel ∧
    ∃ late refused, o = (d.reports late refused (d.counted m p)).1 ∧
      t.process = (d.reports late refused (d.counted m p)).2

def Follows (d : Detach) (s₀ : Site) (m : Mapping) (p : Process) :
    Progress Phase Unit → Site → Prop
  | .running next, t => d.During s₀ m p t next
  | .done o, t => d.Ended s₀ m p o t

variable {d : Detach} {s₀ s t : Site} {m : Mapping} {p : Process} {phase : Phase}
  {progress : Progress Phase Unit}

theorem During.transition (ht : Transition d phase s progress t)
    (hunregister : d.device.unregister s₀.process d.block.address d.block.bytes = (.ok (), p))
    (hm : s₀.mappingOf? d.block = some m) (htimely : d.config.Timely s₀.kernel.clock)
    (h : d.During s₀ m p s phase) : d.Follows s₀ m p progress t := by
  cases ht with
  | refused hrefused =>
    cases h
    rw [hunregister] at hrefused
    cases hrefused
  | lost hunregistered hlost =>
    cases h
    have hkept := (Device.kept_of_unregister hunregistered).relocked
    rw [Site.mappingOf?_relocked (t := ⟨s₀.kernel, _⟩) hkept, hm] at hlost
    cases hlost
  | unregistered hunregistered hmine =>
    cases h
    have hkept := (Device.kept_of_unregister hunregistered).relocked
    rw [Site.mappingOf?_relocked (t := ⟨s₀.kernel, _⟩) hkept, hm] at hmine
    cases hmine
    rw [hunregister] at hunregistered
    cases hunregistered
    cases hrole : d.config.isLeader with
    | true => exact ⟨rfl, rfl, hrole, rfl⟩
    | false =>
      refine ⟨rfl, rfl, ?_⟩
      simp only [givenUp, hrole]
      exact .refl _
  | hurried | patient =>
    obtain ⟨hmine, hprocess, hrole, hkernel⟩ := h
    exact ⟨hmine, hprocess, hrole, hkernel ▸ .refl _⟩
  | overflowed hwaits hnone =>
    obtain ⟨-, -, hrole, hkernel⟩ := h
    rw [hkernel] at hnone
    rcases htimely hrole with hzero | hsome
    · rw [hwaits] at hzero
      cases hzero
    · exact absurd hnone hsome
  | joinedRead | gathered | ungathered | expired | waiting | woken | asleep => exact h
  | retired =>
    obtain ⟨rfl, hprocess, hrole, hkernel⟩ := h
    exact ⟨rfl, hprocess, hrole, hkernel.modifyHeader _ _⟩
  | unlinked =>
    obtain ⟨hmine, hprocess, hrole, hkernel⟩ := h
    refine ⟨hmine, hprocess, ?_⟩
    simp only [givenUp, hrole, if_true]
    exact hkernel.unbind _
  | unlinkFailed hunbound =>
    obtain ⟨hmine, hprocess, hrole, hkernel⟩ := h
    refine ⟨hmine, hprocess, ?_⟩
    simp only [givenUp, hrole, if_true]
    -- the name was not bound, so taking it away changes nothing
    rw [← Kernel.unbind_of_unbound hunbound]
    exact hkernel.unbind _
  | left =>
    obtain ⟨rfl, hprocess, hkernel⟩ := h
    exact ⟨rfl, hprocess, hkernel.modifyHeader _ _⟩
  | @closed _ _ late refused o q hclosed =>
    obtain ⟨rfl, rfl, hkernel⟩ := h
    rw [closed_eq] at hclosed
    cases hclosed
    exact ⟨hkernel, late, refused, rfl, rfl⟩

/-- Passing the time while the leader pauses touches nothing. -/
theorem During.wakeUp (h : d.During s₀ m p s phase) :
    d.During s₀ m p ((Call.detach d phase).wakeUp s) phase := by
  cases phase with
  | pause w mine wake =>
    obtain ⟨hmine, hprocess, hrole, hkernel⟩ := h
    exact ⟨hmine, hprocess, hrole, hkernel.passUntil wake⟩
  | _ => exact h

def Stands (d : Detach) (s₀ : Site) (m : Mapping) (p : Process) (c : Call) (s : Site) : Prop :=
  ∃ phase, c = .detach d phase ∧ d.During s₀ m p s phase

theorem Stands.advance {c : Call}
    (hunregister : d.device.unregister s₀.process d.block.address d.block.bytes = (.ok (), p))
    (hm : s₀.mappingOf? d.block = some m) (htimely : d.config.Timely s₀.kernel.clock)
    (h : d.Stands s₀ m p c s) :
    Reached (d.Stands s₀ m p)
      (fun o t => ∃ ending, o = ending.map (fun _ => .released) ∧ d.Ended s₀ m p ending t)
      (c.advance s) := by
  obtain ⟨phase, rfl, hduring⟩ := h
  have hfollows := hduring.wakeUp.transition (d.step_transition phase _) hunregister hm htimely
  rw [Call.advance_eq]
  cases hstep : d.step phase ((Call.detach d phase).wakeUp s) with
  | mk progress t =>
    rw [hstep] at hfollows
    simp only [Call.step, Call.ofDetach, hstep]
    cases progress with
    | running next => exact ⟨next, rfl, hfollows⟩
    | done o => exact ⟨o, rfl, hfollows⟩

/-- Until the release ends nothing was written. -/
theorem During.quiet
    (hunregister : d.device.unregister s₀.process d.block.address d.block.bytes = (.ok (), p))
    (h : d.During s₀ m p s phase) :
    s.process.output = s₀.process.output ∧ s.process.sinks = s₀.process.sinks := by
  cases phase with
  | unregister =>
    cases h
    exact ⟨rfl, rfl⟩
  | _ =>
    rw [h.2.1]
    exact (Device.unregistered_of_unregister hunregister).quiet

/-! ### What a release undoes -/

def resource (d : Detach) : Resource := ⟨.shared d.config, d.device, d.account⟩

/-- Between `s` and `t` everything that the block had was undone. What else may have changed is the time,
what was written, and of the dummies what is no registration. -/
structure Undone (d : Detach) (m : Mapping) (s t : Site) : Prop where
  page?_eq : ∀ page, t.process.space.page? page =
    if page ∈ Memory.AddressSpace.mappingSpan m.base m.length then none
    else s.process.space.page? page
  mem_locked_iff : ∀ page, page ∈ t.process.space.locked ↔
    page ∈ s.process.space.locked ∧ page ∉ Memory.AddressSpace.mappingSpan m.base m.length
  registration?_eq : ∀ index address, (t.process.dummy index).registration? address =
    if d.device = .dummy index ∧ address = d.block.address then none
    else (s.process.dummy index).registration? address
  header_eq : t.header m =
    if d.config.isLeader then
      { s.header m with state := Header.retiredMark, live := (s.header m).live - 1 }
    else { s.header m with live := (s.header m).live - 1 }
  segment?_eq : ∀ id, t.kernel.segment? id =
    if id = m.segment then (s.kernel.segment? id).map fun segment =>
      { segment with header := t.header m }
    else s.kernel.segment? id
  names_eq : ∀ name, t.kernel.names.get? name =
    if d.config.isLeader ∧ name = d.config.segment then none else s.kernel.names.get? name
  accounts_eq : t.process.accounts = s.process.accounts.modify d.account fun a =>
    { a with
      releases := ⟨a.releases.count + 1⟩
      bytes.current := .ofNat (a.bytes.current.toNat - d.block.bytes.toNat) }
  alive_eq : t.kernel.alive = s.kernel.alive
  settings : s.process.SameSettings t.process

/-- How a release comes to its end. While it went on nothing was written; when everything was undone
nothing was written either; what then followed are its reports, of which a fatal one is a fault. -/
structure Completed (d : Detach) (m : Mapping) (s : Site) (o : Outcome Reply) (t : Site) :
    Prop where
  undone : d.Undone m s t
  quiet : ∀ steps c u, runAlone steps (d.resource.beginRelease d.block s) = (.running c, u) →
    u.process.output = s.process.output ∧ u.process.sinks = s.process.sinks
  reported : ∃ q late refused, d.Undone m s ⟨t.kernel, q⟩ ∧
    q.output = s.process.output ∧ q.sinks = s.process.sinks ∧
    o = (d.reports late refused q).1.map (fun _ => .released) ∧
    t.process = (d.reports late refused q).2
  ending : o = .returned .released ∨
    ∃ context, o = .faulted (Process.strictFault .teardownTimedOut context) ∨
      o = .faulted (Process.strictFault .unlinkFailed context)

theorem Completed.ne_aborted {o : Outcome Reply} (h : d.Completed m s o t) : o ≠ .aborted := by
  rcases h.ending with rfl | ⟨context, rfl | rfl⟩ <;> simp

/-- The block is there to be released: the device takes the memory back, and the clock can hold the
deadline. -/
structure Ready (d : Detach) (m : Mapping) (s : Site) : Prop extends d.block.Held m s where
  timely : d.config.Timely s.kernel.clock
  taken : (d.device.unregister s.process d.block.address d.block.bytes).1 = .ok ()

namespace Ready

/-- What the process is after the device took the memory back. -/
theorem unregister_eq (h : d.Ready m s) :
    ∃ p, d.device.unregister s.process d.block.address d.block.bytes = (.ok (), p) :=
  ⟨_, Prod.ext h.taken rfl⟩

theorem ended (h : d.Ready m s)
    (hp : d.device.unregister s.process d.block.address d.block.bytes = (.ok (), p)) :
    ∃ o t, d.resource.release d.block s = (.done (o.map fun _ => .released), t) ∧
      d.Ended s m p o t := by
  obtain ⟨o, t, hrun, ending, rfl, hended⟩ := runAlone_rule (d.Stands s m p) _
    (fun _ _ hstands => hstands.advance hp h.mappingOf?_eq h.timely) (.detach d .unregister) s _
    (budget_begin (d := d) (s := s) rfl) ⟨.unregister, rfl, rfl⟩
  exact ⟨ending, t, hrun, hended⟩

/-- As long as the release goes on, nothing was written. -/
theorem quiet (h : d.Ready m s) {steps : Nat} {c : Call} {u : Site}
    (hrun : runAlone steps (d.resource.beginRelease d.block s) = (.running c, u)) :
    u.process.output = s.process.output ∧ u.process.sinks = s.process.sinks := by
  obtain ⟨p, hp⟩ := h.unregister_eq
  obtain ⟨phase, -, hduring⟩ := runAlone_keeps (d.Stands s m p)
    (fun _ _ hstands => (hstands.advance hp h.mappingOf?_eq h.timely).mono fun _ _ _ => trivial)
    hrun ⟨.unregister, rfl, rfl⟩
  exact hduring.quiet hp

/-- What is undone does not depend on how the leader's wait went. -/
theorem undone (h : d.Ready m s)
    (hp : d.device.unregister s.process d.block.address d.block.bytes = (.ok (), p))
    {t : Site} (hkernel : (d.tornDown m s.kernel).Later t.kernel)
    (hprocess : (d.counted m p).Wrote t.process) : d.Undone m s t := by
  have hdevice := Device.unregistered_of_unregister hp
  have hspace : t.process.space = p.space.release m.base m.length := hprocess.space_eq
  refine ⟨?_, ?_, ?_, ?_, ?_, ?_, ?_, ?_, ?_⟩
  · intro page
    rw [hspace, Memory.AddressSpace.page?_release, hdevice.relocked.page?_eq]
  · intro page
    rw [hspace, Memory.AddressSpace.mem_locked_release]
    refine and_congr_left fun houtside => ⟨hdevice.mem_locked page, fun hlocked => ?_⟩
    refine hdevice.mem_locked_of_not_mem page hlocked fun htouched => houtside ?_
    exact h.mem_of_touched htouched
  · intro index address
    rw [← hdevice.registration?_eq]
    simp only [Process.dummy, hprocess.dummies_eq]
    rfl
  · rw [Site.header, hkernel.header_eq]
    exact d.header_tornDown h.known
  · intro id
    rw [hkernel.segment?_eq, Site.header, hkernel.header_eq]
    exact d.segment?_tornDown m s.kernel id
  · intro name
    rw [hkernel.names_eq]
    exact d.get?_names_tornDown m s.kernel name
  · have haccounts : p.accounts = s.process.accounts := by rw [hdevice.rest_eq]
    rw [hprocess.accounts_eq]
    simp only [counted, Process.recordRelease, Process.modifyAccount, haccounts]
    congr 1
    funext a
    exact a.recordRelease_eq d.block.bytes
  · rw [hkernel.alive_eq]
    exact d.alive_tornDown m s.kernel
  · have hunmapped : p.SameSettings { p with space := p.space.release m.base m.length } :=
      ⟨_, p.dummies, p.accounts, p.strict, p.sinks, p.output, rfl⟩
    exact ((hdevice.sameSettings.trans hunmapped).trans
      (Process.sameSettings_modifyAccount _ _ _)).trans hprocess.sameSettings

/-- The release undoes everything before it reports anything. -/
theorem completed (h : d.Ready m s) :
    ∃ o t, d.resource.release d.block s = (.done o, t) ∧ d.Completed m s o t := by
  obtain ⟨p, hp⟩ := h.unregister_eq
  obtain ⟨o, t, hrelease, hkernel, late, refused, ho, hprocess⟩ := h.ended hp
  obtain ⟨hwrote, hending⟩ := d.reports_spec late refused (d.counted m p)
  have hquiet := (Device.unregistered_of_unregister hp).quiet
  refine ⟨_, t, hrelease, h.undone hp hkernel (hprocess ▸ hwrote), fun _ _ _ => h.quiet,
    ⟨d.counted m p, late, refused, h.undone hp hkernel (.refl _), hquiet.1, hquiet.2,
      congrArg _ ho, hprocess⟩, ?_⟩
  rcases hending with heq | ⟨context, heq | heq⟩ <;> rw [ho, heq]
  · exact Or.inl rfl
  · exact Or.inr ⟨context, Or.inl rfl⟩
  · exact Or.inr ⟨context, Or.inr rfl⟩

end Ready
end Detach

/-! ### Reachable states -/

def Member.detach {κ : Type u} (r : Member κ) (block : Block) : Detach :=
  ⟨r.config, r.device, r.account, block⟩

namespace Machine

theorem Sound.held {κ : Type u} {ι : Type v} {roster : ι → Member κ} {m : Machine κ ι}
    (h : m.Sound roster) {i : ι} {block : Block} (hholding : m.stage i = .holding block)
    (hbehind : Page.headerLength ≤ block.address) :
    ∃ mapping, m.mapping? roster i = some mapping ∧
      block.Held mapping (m.site (roster i).home) := by
  have hsuits := h.suits i
  rw [hholding] at hsuits
  obtain ⟨mapping, hmapping⟩ := hsuits
  have hmine : m.mapping? roster i = some mapping := by rw [mapping?, hholding]; exact hmapping
  refine ⟨mapping, hmine, hmapping, h.placed i mapping hmine, hbehind, h.known i _ ?_⟩
  rw [segment?, hholding]
  simp only [Stage.segment?, Stage.mapping?, hmapping, Option.map_some]

variable {κ : Type u} {ι : Type v} [DecidableEq κ] [DecidableEq ι] {roster : ι → Member κ}
  {m₀ m : Machine κ ι} {Allowed : Machine κ ι → Prop} {history : List (Access ι)}

/-- What a member holds is there. -/
theorem held_of_run (hrun : Run roster Allowed m₀ history m) (hidle : ∀ i, m₀.stage i = .idle)
    {i : ι} {block : Block} (hholding : m.stage i = .holding block) :
    ∃ mapping, m.mapping? roster i = some mapping ∧
      block.Held mapping (m.site (roster i).home) :=
  (sound_of_run hrun hidle).held hholding (headerLength_le_of_run hrun hidle hholding)

/-- In every state that the machine can reach, and whatever stands in the header of the block's
segment, a release of a block by the member that holds it ends, if the device takes the memory back
and the clock can hold the deadline. By then exactly the block's mapping is gone, with its locks,
and the registration; the count of those attached is one lower, and a leader's segment is retired
and its name free; the release is counted. Only after all of this a report is written, and a fatal
one ends the release with a fault. -/
theorem release_complete (hrun : Run roster Allowed m₀ history m)
    (hidle : ∀ i, m₀.stage i = .idle) {i : ι} {block : Block}
    (hholding : m.stage i = .holding block)
    (htaken : ((roster i).device.unregister (m.process (roster i).home) block.address
      block.bytes).1 = .ok ())
    (htimely : (roster i).config.Timely m.kernel.clock) :
    ∃ mapping, m.mapping? roster i = some mapping ∧ block.address = mapping.payload ∧
      mapping.length = Page.headerLength + block.bytes.toNat ∧
      mapping.Placed (m.process (roster i).home).space ∧
      ∀ standing : Header → Header, ∃ o t,
        (roster i).resource.release block
            ((m.site (roster i).home).modifyHeader mapping standing) = (.done o, t) ∧
          ((roster i).detach block).Completed mapping
            ((m.site (roster i).home).modifyHeader mapping standing) o t := by
  obtain ⟨mapping, hmapping, hheld⟩ := held_of_run hrun hidle hholding
  refine ⟨mapping, hmapping, hheld.payload_eq, hheld.length_eq, hheld.placed, fun standing => ?_⟩
  exact Detach.Ready.completed (d := (roster i).detach block)
    ⟨hheld.modifyHeader standing, htimely, htaken⟩

def hurried (_ : Unit) : Member Unit :=
  sample () fun config =>
    { config with participants := some 2, teardownTimeout := .ofMilliseconds 1 }

def unforgiving : Machine Unit Unit :=
  { (fresh (fun _ => 1) [1] : Machine Unit Unit) with
    process := fun _ => (Process.fresh 1).openAccount.2.setStrictMode .fatalWarnings }

/-- Two followers are still attached when the wait runs out, and warnings are fatal: the release ends
with a fault, and everything is undone. -/
theorem release_complete_late : ∃ (history : List (Access Unit)) (m : Machine Unit Unit)
    (block : Block) (mapping : Mapping) (o : Outcome Reply) (t : Site),
    Run hurried (fun _ => True) unforgiving history m ∧ m.stage () = .holding block ∧
      o = .faulted (Process.strictFault .teardownTimedOut
        "segment /group: 1 of 2 joined, 2 follower(s) attached after 1ms") ∧
      (hurried ()).resource.release block
        ((m.site ()).modifyHeader mapping fun h => { h with live := 3 }) = (.done o, t) ∧
      ((hurried ()).detach block).Completed mapping
        ((m.site ()).modifyHeader mapping fun h => { h with live := 3 }) o t := by
  obtain ⟨⟨history, m⟩, hplay, hreached⟩ := Option.map_eq_some_iff.mp
    (by decide +kernel :
      (play hurried (fun _ => True) (.allocate () 4096 :: List.replicate 10 (.access ()))
        ([], unforgiving)).map (fun (_, m) =>
          (m.stage ()).block?.bind fun block => (m.mapping? hurried ()).map fun mapping =>
            (decide (((hurried ()).device.unregister (m.process ()) block.address
                block.bytes).1 = .ok ()),
              (Wait.start? m.kernel.clock (hurried ()).config.teardownTimeout
                (hurried ()).config.pollInterval).isSome,
              ((hurried ()).resource.release block
                ((m.site ()).modifyHeader mapping fun h => { h with live := 3 })).1)) =
        some (some (true, true, .done (.faulted (Process.strictFault .teardownTimedOut
          "segment /group: 1 of 2 joined, 2 follower(s) attached after 1ms")))))
  simp only [Option.bind_eq_some_iff, Option.map_eq_some_iff, Prod.mk.injEq] at hreached
  obtain ⟨block, hblock, mapping, hmapping, htaken, hstarts, hending⟩ := hreached
  have hholding := Stage.eq_holding_of_block?_eq_some hblock
  have hrun := run_of_play (.start trivial) _ hplay
  obtain ⟨mapping', hmapping', -, -, -, hcompletes⟩ := release_complete hrun (fun _ => rfl) hholding
    (of_decide_eq_true htaken) (fun _ => Or.inr (Option.isSome_iff_ne_none.mp hstarts))
  cases hmapping.symm.trans hmapping'
  obtain ⟨o, t, hrelease, hcompleted⟩ := hcompletes fun h => { h with live := 3 }
  rw [hrelease] at hending
  cases hending
  exact ⟨history, m, block, mapping, _, t, hrun, hholding, rfl, hrelease, hcompleted⟩

end Machine
end StagingMemory
