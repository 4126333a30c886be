import StagingMemory.Proofs.Atomicity
import StagingMemory.Proofs.Leniency
import StagingMemory.Proofs.Publication
/-!
After a leader's death. Wherever its process died, no follower that has not passed the check of the
owner by then is handed a block, as long as nobody takes the place of what the leader left; and the
next leader that removes leftovers gets its segment, whatever was left. It retires a leftover that
has a header, and reports the removal of a leftover, once. Main statement: `Machine.recovery_exact`.
-/
namespace StagingMemory

/-! ### What registering makes a process write -/

namespace Process

variable {p q : Process}

theorem fatalNow_warning (p : Process) :
    (p.fatalNow .warning).1 = p.readStrictMode.1.warningsFatal := rfl

/-- A warning is not fatal below the strictest mode. -/
theorem emit_warning {d : Diagnostic} (hwarning : d.severity = .warning)
    (hmode : p.readStrictMode.1 ≠ .fatalWarnings) (context : String) :
    (p.emit d context).1 = .returned () := by
  have hsaid := (p.said_printed ⟨d, some context⟩).trans (said_forward _ ⟨d, some context⟩)
  have hfatal : (((if p.quiet then p else p.write (.printed ⟨d, some context⟩)).forward
      ⟨d, some context⟩).fatalNow d.severity).1 = false := by
    rw [hwarning, fatalNow_warning, hsaid.mode_eq]
    exact beq_eq_false_iff_ne.mpr hmode
  unfold emit
  dsimp only
  rw [hfatal]
  rfl

def RegisterWrites (p : Process) (written : List Output) : Prop :=
  written = [] ∨ ∃ context, written = p.notice ⟨.lockFailed, some context⟩

theorem said_of_lockPages {policy : LockPolicy} {address : Nat} {bytes : UInt64}
    (h : p.lockPages policy address bytes = (.returned (.ok ()), q)) :
    ∃ written, p.RegisterWrites written ∧ p.Said written q := by
  unfold lockPages at h
  cases policy with
  | disabled =>
    cases h
    exact ⟨[], Or.inl rfl, .refl p⟩
  | required =>
    dsimp only at h
    split at h
    · cases h
      exact ⟨[], Or.inl rfl, (Said.refl p).remapped _⟩
    · cases h
  | bestEffort =>
    dsimp only at h
    split at h
    · cases h
      exact ⟨[], Or.inl rfl, (Said.refl p).remapped _⟩
    case h_2 e _ =>
      rw [if_pos rfl] at h
      generalize Size.render bytes ++ " at " ++ renderAddress address ++ ": " ++
        (DeviceError.system "mlock" e).message = context at h
      have hq : (p.emit .lockFailed context).2 = q := congrArg Prod.snd h
      exact ⟨_, Or.inr ⟨context, rfl⟩, hq ▸ p.said_emit .lockFailed context⟩

end Process

theorem Device.said_of_register {device : Device} {p q : Process} {address : Nat} {bytes : UInt64}
    {flags : RegisterFlags}
    (h : device.register p address bytes flags = (.returned (.ok ()), q)) :
    ∃ written, p.RegisterWrites written ∧ p.Said written q := by
  cases device with
  | host policy => exact Process.said_of_lockPages h
  | dummy index =>
    have hq : p.modifyDummy index
        (fun _ => ((p.dummy index).register address bytes flags).2) = q := congrArg Prod.snd h
    subst hq
    exact ⟨[], Or.inl rfl, rfl, rfl, rfl, rfl, rfl, (List.append_nil _).symm⟩

/-! ### Opening, creating and sizing segments -/

namespace Kernel

theorem header_resize_of_le {k : Kernel} {id : SegmentId} {length : Nat}
    (h : k.segmentLength id ≤ length) (j : SegmentId) :
    (k.modifySegment id (·.resize length)).header j = k.header j := by
  by_cases hid : id = j
  · subst hid
    simp only [segmentLength] at h
    simp only [header, segment?_modifySegment, if_true]
    cases hs : k.segment? id with
    | none => rfl
    | some s =>
      rw [hs] at h
      exact Segment.header_resize_of_le h
  · exact header_modifySegment_of_ne k _ hid

theorem segmentLength_resize {k : Kernel} {id : SegmentId} (h : id < k.segments.length)
    (length : Nat) : (k.modifySegment id (·.resize length)).segmentLength id = length := by
  have hs : k.segment? id = some (k.segments.get ⟨id, h⟩) := List.getElem?_eq_getElem h
  simp [segmentLength, segment?_modifySegment, hs]

/-- What can be created at all cannot be created only where the name is bound. -/
theorem createSegment_of_unbound {k : Kernel} {name : SegmentName}
    (hregular : name.isDirectory = false) (hfree : k.names.get? name = none) (mode : UInt32) :
    ∃ created, k.createSegment name mode = .ok created := by
  have hcontains : k.names.contains name = false := Table.contains_eq_false_iff.mpr hfree
  unfold createSegment
  rw [dif_neg (by simp [hregular, hcontains])]
  exact ⟨_, rfl⟩

end Kernel

namespace Site

variable {s : Site} {name : SegmentName}

/-- What is not found is not bound. -/
theorem unbound_of_openSegment (h : s.openSegment name = .error .notFound) :
    s.kernel.names.get? name = none := by
  unfold openSegment Kernel.openSegment at h
  split at h
  · cases h
  · split at h
    · cases h
    · split at h
      · assumption
      · split at h <;> cases h

theorem isDirectory_of_openSegment (h : s.openSegment name = .error .notFound) :
    name.isDirectory = false := by
  unfold openSegment Kernel.openSegment at h
  split at h
  · cases h
  · split at h
    · cases h
    case isFalse hregular => exact Bool.not_eq_true _ ▸ hregular

theorem createSegment_ne_alreadyExists (hregular : name.isDirectory = false)
    (hfree : s.kernel.names.get? name = none) (mode : UInt32) :
    s.createSegment name mode ≠ .error .alreadyExists := by
  obtain ⟨⟨id, created⟩, hcreated⟩ := Kernel.createSegment_of_unbound hregular hfree mode
  unfold createSegment
  split
  · decide
  · rw [hcreated]
    simp

end Site

/-! ### The next leader -/

namespace Attach

/-- Something other than the name being taken keeps the call from a block. -/
def hinders : Phase → Bool
  | .fail (.nameTaken _) => false
  | .fail _ | .discard _ | .undo _ _ => true
  | _ => false

end Attach

def Progress.hindered : Progress Call Reply → Bool
  | .running (.attach _ phase) => Attach.hinders phase
  | _ => false

namespace Attach

/-- Alone in the site, the call can open, create, size and map whatever it tries to, and register
its payload. -/
def Unhindered (a : Attach) (s : Site) : Prop :=
  ∀ steps, (runAlone steps (a.resource.beginAllocate a.bytes s)).1.hindered = false

def farewell (a : Attach) (s : Site) : List Output :=
  match s.kernel.names.get? a.config.segment with
  | some _ => s.process.notice ⟨.staleRemoved, some ("segment " ++ a.config.segment.text)⟩
  | none => []

def success (a : Attach) (m : Mapping) : Output :=
  .logged ⟨.debug, "rank " ++ toString a.config.rank ++ " attached " ++ Size.render a.bytes ++ " (" ++
    Size.render (.ofNat m.length) ++ " mapped) of segment " ++ a.config.segment.text⟩

structure Stands (a : Attach) (k : Kernel) (id : SegmentId) (header : Header) (length : Nat)
    (k' : Kernel) : Prop where
  building : a.Building k id k'
  header_eq : k'.header id = header
  length_eq : k'.segmentLength id = length

structure Equipped (a : Attach) (s : Site) (m : Mapping) (header : Header) (t : Site) : Prop where
  stands : a.Stands s.kernel m.segment header a.total t.kernel
  length_eq : m.length = a.total
  placed : m.Placed t.process.space
  said : ∃ written, s.process.RegisterWrites written ∧
    s.process.Said (a.farewell s ++ written) t.process

def Recovering (a : Attach) (s t : Site) : Phase → Prop
  | .findLeftover => t.kernel = s.kernel ∧ s.process.Said [] t.process
  | .measureLeftover id => t.kernel = s.kernel ∧ s.process.Said [] t.process ∧
      s.kernel.names.get? a.config.segment = some id
  | .mapLeftover id => t.kernel = s.kernel ∧ s.process.Said [] t.process ∧
      s.kernel.names.get? a.config.segment = some id ∧
      Page.headerLength ≤ s.kernel.segmentLength id
  | .checkLeftover m => t.kernel = s.kernel ∧ s.process.Said [] t.process ∧
      s.kernel.names.get? a.config.segment = some m.segment ∧
      Page.headerLength ≤ s.kernel.segmentLength m.segment
  | .retireLeftover m => t.kernel = s.kernel ∧ s.process.Said [] t.process ∧
      s.kernel.names.get? a.config.segment = some m.segment ∧
      Page.headerLength ≤ s.kernel.segmentLength m.segment ∧
      s.kernel.ownerAlive m.segment = false
  | .removeLeftover => s.process.Said [] t.process ∧ ∃ id, a.Condemned s.kernel id t.kernel
  | .reportLeftover => s.process.Said [] t.process ∧ a.Spares s.kernel t.kernel ∧
      (∃ id, s.kernel.names.get? a.config.segment = some id) ∧
      t.kernel.names.get? a.config.segment = none
  | .create => s.process.Said (a.farewell s) t.process ∧ a.Spares s.kernel t.kernel ∧
      a.config.segment.isDirectory = false ∧ t.kernel.names.get? a.config.segment = none
  | .resize id => s.process.Said (a.farewell s) t.process ∧
      a.Stands s.kernel id .blank 0 t.kernel
  | .map id => s.process.Said (a.farewell s) t.process ∧
      a.Stands s.kernel id .blank a.total t.kernel
  | .claim m => s.process.Said (a.farewell s) t.process ∧
      a.Stands s.kernel m.segment .blank a.total t.kernel ∧ m.length = a.total ∧
      m.Placed t.process.space
  | .register m => s.process.Said (a.farewell s) t.process ∧
      a.Stands s.kernel m.segment ⟨0, 0, 0, 0, s.process.pid⟩ a.total t.kernel ∧
      m.length = a.total ∧ m.Placed t.process.space
  | .publishBytes m => a.Equipped s m ⟨0, 0, 0, 0, s.process.pid⟩ t
  | .publishJoined m => a.Equipped s m ⟨0, a.bytes, 0, 0, s.process.pid⟩ t
  | .publishLive m => a.Equipped s m ⟨0, a.bytes, 1, 0, s.process.pid⟩ t
  | .publishState m => a.Equipped s m ⟨0, a.bytes, 1, 1, s.process.pid⟩ t
  | .finish m => a.Equipped s m ⟨Header.readyMark, a.bytes, 1, 1, s.process.pid⟩ t
  | _ => False

/-- How the next leader's allocation ends: with a block on a segment of its own, published under
the name, unless the account has no room for it. What stood under the name before is retired if it
has a header, and every other segment and every other name is as it was. The process has written
that it removed the leftover, if there was one, and nothing else but what registering and success
make it write. -/
structure Recovered (a : Attach) (s : Site) (m : Mapping) (o : Outcome Reply) (t : Site) :
    Prop where
  allocated : a.Fits s.process → o = .returned (.allocated (some ⟨m.payload, a.bytes⟩)) ∧
    t.mappingOf? ⟨m.payload, a.bytes⟩ = some m
  overflowed : ¬ a.Fits s.process → o = .faulted .addOverflow
  fresh : s.kernel.segments.length ≤ m.segment
  names_eq : ∀ name, t.kernel.names.get? name =
    if name = a.config.segment then some m.segment else s.kernel.names.get? name
  header_eq : t.kernel.header m.segment =
    ⟨Header.readyMark, a.bytes, 1, 1, s.process.pid⟩
  length_eq : t.kernel.segmentLength m.segment = a.total
  retired : ∀ id, s.kernel.names.get? a.config.segment = some id →
    Page.headerLength ≤ s.kernel.segmentLength id →
    t.kernel.header id = (s.kernel.header id).retire
  others : ∀ id, id < s.kernel.segments.length →
    s.kernel.names.get? a.config.segment ≠ some id →
    t.kernel.segment? id = s.kernel.segment? id
  wrote : ∃ written, s.process.RegisterWrites written ∧
    t.process.output = s.process.output ++ (a.farewell s ++ written) ++ [a.success m]

def Recovers (a : Attach) (s : Site) : Progress Phase Result → Site → Prop
  | .running phase, t => a.Recovering s t phase
  | .done o, t => ∃ m, a.Recovered s m (o.map .ofResult) t

variable {a : Attach} {s t u : Site} {m : Mapping} {k k' : Kernel} {id : SegmentId}
  {header : Header} {length : Nat}

theorem Building.lt (h : a.Building k id k') : id < k'.segments.length := by
  obtain ⟨base, -, hbuilds⟩ := h
  exact k'.names_bound a.config.segment id (by rw [hbuilds.names_eq, if_pos rfl])

theorem Stands.modifyHeader (h : a.Stands k id header length k') (f : Header → Header) :
    a.Stands k id (f header) length (k'.modifyHeader id f) where
  building := h.building.modifySegment _
  header_eq := by rw [Kernel.header_modifyHeader h.building.lt, if_pos rfl, h.header_eq]
  length_eq := by rw [Kernel.segmentLength_modifyHeader, h.length_eq]

theorem Equipped.modifyHeader (h : a.Equipped s m header t) (f : Header → Header) :
    a.Equipped s m (f header) (t.modifyHeader m f) :=
  ⟨h.stands.modifyHeader f, h.length_eq, h.placed, h.said⟩

theorem Spares.stands {created : Kernel} (h : a.Spares k k')
    (hcreated : k'.Created a.config.segment id created) :
    a.Stands k id .blank 0 created where
  building := h.building hcreated
  header_eq := by rw [Kernel.header_created hcreated, Kernel.header_of_le hcreated.length_le]
  length_eq := by
    rw [Kernel.segmentLength_created hcreated, Kernel.segmentLength,
      Kernel.segment?_eq_none_of_le hcreated.length_le]
    rfl

theorem Stands.resize (h : a.Stands k id header 0 k') (length : Nat) :
    a.Stands k id header length (k'.modifySegment id (·.resize length)) where
  building := h.building.modifySegment _
  header_eq := by
    rw [Kernel.header_resize_of_le (by rw [h.length_eq]; exact Nat.zero_le _), h.header_eq]
  length_eq := Kernel.segmentLength_resize h.building.lt length

/-- A leftover that the leader did not find is not bound afterwards either. -/
theorem Cleared.names_eq {base : Kernel} (h : a.Cleared k base)
    (hfree : base.names.get? a.config.segment = none) (name : SegmentName) :
    base.names.get? name = if name = a.config.segment then none else k.names.get? name := by
  cases h with
  | nothing =>
    split
    case isTrue heq => rw [heq, hfree]
    case isFalse => rfl
  | short | orphaned => exact Kernel.get?_names_unbind _ _ name

theorem Cleared.length_eq {base : Kernel} (h : a.Cleared k base) :
    base.segments.length = k.segments.length := by
  cases h with
  | nothing | short => rfl
  | orphaned => exact List.length_modify ..

/-- What was bound under the name and has a header is retired. -/
theorem Cleared.retired {base : Kernel} (h : a.Cleared k base)
    (hfree : base.names.get? a.config.segment = none)
    (hbound : k.names.get? a.config.segment = some id)
    (hlong : Page.headerLength ≤ k.segmentLength id) :
    base.header id = (k.header id).retire := by
  cases h with
  | nothing => cases hfree.symm.trans hbound
  | short _ hbound' hshort =>
    cases hbound.symm.trans hbound'
    omega
  | orphaned _ hbound' =>
    cases hbound.symm.trans hbound'
    have hlt := k.names_bound a.config.segment id hbound
    rw [Kernel.header_unbind, Kernel.header_modifyHeader hlt, if_pos rfl]

theorem Cleared.others {base : Kernel} (h : a.Cleared k base)
    (hother : k.names.get? a.config.segment ≠ some id) : base.segment? id = k.segment? id := by
  cases h with
  | nothing | short => rfl
  | @orphaned old _ hbound =>
    have hne : old ≠ id := by
      rintro rfl
      exact hother hbound
    rw [Kernel.segment?_unbind, Kernel.segment?_modifyHeader, if_neg hne]

/-- Success says so, and the account records it. -/
theorem output_of_succeeded {o : Outcome Result} {p : Process}
    (h : a.succeeded m s = (.done o, { s with process := p })) :
    p.output = s.process.output ++ [a.success m] := by
  have hp : (a.succeeded m s).2.process = p := by rw [h]
  subst hp
  rfl

theorem Equipped.recovered {o : Outcome Result} {p : Process}
    (h : a.Equipped s m ⟨Header.readyMark, a.bytes, 1, 1, s.process.pid⟩ t)
    (hsucceeded : a.succeeded m t = (.done o, { t with process := p })) :
    a.Recovered s m (o.map .ofResult) { t with process := p } := by
  obtain ⟨hstands, hlength, hplaced, written, hwritten, hsaid⟩ := h
  obtain ⟨hbooked, ho⟩ := succeeded_spec hsucceeded
  obtain ⟨base, hcleared, hbuilds⟩ := hstands.building
  have hbase := hcleared.length_eq
  have hroom : (t.process.account a.account).bytes.current.toNat + a.bytes.toNat <
      UInt64.size ↔ a.Fits s.process := by
    simp only [Fits, Process.account, hsaid.accounts_eq]
  refine ⟨?_, ?_, ?_, ?_, hstands.header_eq, hstands.length_eq, ?_, ?_, ?_⟩
  · intro hfits
    rw [if_pos (hroom.mpr hfits)] at ho
    subst ho
    have hspace := Memory.AddressSpace.Relocked.of_eq hbooked.space_eq
    exact ⟨rfl, (hplaced.relocked hspace).mappingOf?_eq (s := ⟨t.kernel, p⟩) hlength⟩
  · intro hfits
    rw [if_neg (mt hroom.mp hfits)] at ho
    rw [ho]
    rfl
  · have hfresh := hbuilds.fresh
    omega
  · intro name
    show t.kernel.names.get? name = _
    rw [hbuilds.names_eq, hcleared.names_eq hbuilds.unbound]
    split <;> rfl
  · intro id hbound hlong
    have hlt : id < base.segments.length := by
      rw [hbase]
      exact s.kernel.names_bound _ id hbound
    rw [← hcleared.retired hbuilds.unbound hbound hlong]
    simp only [Kernel.header, hbuilds.segment?_eq id hlt]
  · intro id hlt hother
    rw [← hcleared.others hother]
    exact hbuilds.segment?_eq id (by omega)
  · refine ⟨written, hwritten, ?_⟩
    rw [output_of_succeeded hsucceeded, hsaid.output_eq]

theorem Recovering.transition {phase : Phase} {progress : Progress Phase Result}
    (ht : Transition a phase t progress u) (hrole : a.Reclaims)
    (hdead : ∀ id, s.kernel.names.get? a.config.segment = some id →
      s.kernel.ownerAlive id = false)
    (hmode : s.process.readStrictMode.1 ≠ .fatalWarnings)
    (hfree : ∀ next, progress = .running next → hinders next = false)
    (h : a.Recovering s t phase) : a.Recovers s progress u := by
  cases ht with
  | leftoverFound hopen =>
    obtain ⟨hkernel, hsaid⟩ := h
    have hbound := Site.names_of_openSegment hopen
    rw [hkernel] at hbound
    exact ⟨hkernel, hsaid, hbound⟩
  | leftoverAbsent hopen =>
    obtain ⟨hkernel, hsaid⟩ := h
    have hunbound := Site.unbound_of_openSegment hopen
    have hquiet : a.farewell s = [] := by
      rw [hkernel] at hunbound
      simp only [farewell, hunbound]
    refine ⟨?_, ?_, Site.isDirectory_of_openSegment hopen, hunbound⟩
    · rw [hquiet]
      exact hsaid
    · rw [hkernel]
      exact spares_of_keeps (.refl _)
  | leftoverUnopened | leftoverUnmapped | uncreated | unresized | unmapped | unregistered
  | registerFatal => cases hfree _ rfl
  | leftoverShort hshort =>
    obtain ⟨hkernel, hsaid, hbound⟩ := h
    rw [hkernel] at hshort
    refine ⟨hsaid, _, hbound, Or.inl ⟨hshort, ?_⟩⟩
    rw [hkernel]
    exact .refl _
  | leftoverLong hlong =>
    obtain ⟨hkernel, hsaid, hbound⟩ := h
    rw [hkernel] at hlong
    exact ⟨hkernel, hsaid, hbound, hlong⟩
  | leftoverMapped hmap =>
    obtain ⟨hkernel, hsaid, hbound, hlong⟩ := h
    obtain ⟨rfl, -, hu, -⟩ := Site.mapped_of_mapSegment hmap
    rw [hu]
    exact ⟨hkernel, hsaid.remapped _, hbound, hlong⟩
  | leftoverOwned howned =>
    obtain ⟨hkernel, -, hbound, -⟩ := h
    rw [hkernel] at howned
    cases howned.symm.trans (hdead _ hbound)
  | leftoverOrphaned horphaned =>
    obtain ⟨hkernel, hsaid, hbound, hlong⟩ := h
    rw [hkernel] at horphaned
    exact ⟨hkernel, hsaid, hbound, hlong, horphaned⟩
  | leftoverRetired =>
    obtain ⟨hkernel, hsaid, hbound, hlong, horphaned⟩ := h
    refine ⟨hsaid.remapped _, _, hbound, Or.inr ⟨⟨hlong, horphaned⟩, ?_⟩⟩
    show (s.kernel.modifyHeader _ .retire).Keeps (t.kernel.modifyHeader _ .retire)
    rw [hkernel]
    exact .refl _
  | leftoverRemoved =>
    obtain ⟨hsaid, id, hcondemned⟩ := h
    refine ⟨hsaid, condemned_unbind hrole hcondemned, ⟨id, hcondemned.1⟩, ?_⟩
    show (t.kernel.unbind a.config.segment).names.get? a.config.segment = none
    rw [Kernel.get?_names_unbind, if_pos rfl]
  | leftoverGone hgone =>
    obtain ⟨-, id, hcondemned⟩ := h
    cases hgone.symm.trans hcondemned.bound
  | @leftoverReported _ p hemit =>
    obtain ⟨hsaid, hspares, ⟨id, hbound⟩, hunbound⟩ := h
    have hreport := hsaid.trans (t.process.said_emit .staleRemoved
      ("segment " ++ a.config.segment.text))
    rw [hsaid.notice_eq, List.nil_append, hemit] at hreport
    refine ⟨?_, hspares, s.kernel.names_regular _ id hbound, hunbound⟩
    simp only [farewell, hbound]
    exact hreport
  | leftoverFatal hemit =>
    obtain ⟨hsaid, -⟩ := h
    have hreturned := Process.emit_warning (p := t.process) (d := .staleRemoved) rfl
      (by rw [hsaid.mode_eq]; exact hmode) ("segment " ++ a.config.segment.text)
    rw [hemit] at hreturned
    cases hreturned
  | created hcreate =>
    obtain ⟨hsaid, hspares, -, -⟩ := h
    obtain ⟨hcreated, hprocess⟩ := Site.created_of_createSegment hcreate
    refine ⟨?_, hspares.stands hcreated⟩
    rw [hprocess]
    exact hsaid
  | nameTaken hcreate =>
    obtain ⟨-, -, hregular, hunbound⟩ := h
    exact absurd hcreate (Site.createSegment_ne_alreadyExists hregular hunbound _)
  | resized hresize =>
    obtain ⟨hsaid, hstands⟩ := h
    rw [Site.of_resizeSegment hresize]
    exact ⟨hsaid, hstands.resize a.total⟩
  | mapped hmap =>
    obtain ⟨hsaid, hstands⟩ := h
    obtain ⟨hid, hlength, hu, hmapped⟩ := Site.mapped_of_mapSegment hmap
    rw [← hid] at hstands hmapped
    rw [← hlength] at hmapped
    refine ⟨?_, ?_, hlength, .of_mapped hmapped⟩
    · rw [hu]
      exact hsaid.remapped _
    · rw [hu]
      exact hstands
  | claimed =>
    obtain ⟨hsaid, hstands, hlength, hplaced⟩ := h
    have hclaimed := hstands.modifyHeader (·.claim t.process.pid)
    rw [hsaid.pid_eq] at hclaimed
    refine ⟨hsaid, ?_, hlength, hplaced⟩
    show a.Stands _ _ _ _ (t.kernel.modifyHeader _ (·.claim t.process.pid))
    rw [hsaid.pid_eq]
    exact hclaimed
  | registered hregister =>
    obtain ⟨hsaid, hstands, hlength, hplaced⟩ := h
    obtain ⟨written, hwritten, hregistered⟩ := Device.said_of_register hregister
    have hkept := (Device.kept_of_register hregister).relocked
    rw [if_pos hrole.1]
    refine ⟨hstands, hlength, hplaced.relocked hkept, written, ?_, hsaid.trans hregistered⟩
    simpa only [Process.RegisterWrites, hsaid.notice_eq] using hwritten
  | bytesPublished => exact Equipped.modifyHeader h (·.setBytes a.bytes)
  | joinedPublished => exact Equipped.modifyHeader h (·.setJoined 1)
  | livePublished => exact Equipped.modifyHeader h (·.setLive 1)
  | statePublished => exact Equipped.modifyHeader h (·.setState Header.readyMark)
  | finished hsucceeded => exact ⟨_, Equipped.recovered h hsucceeded⟩
  | _ => exact h.elim

/-- The call is the next leader's allocation, and was run so far with nobody else about. -/
def Pursues (a : Attach) (s : Site) (c : Call) (t : Site) : Prop :=
  (∃ steps, runAlone steps (a.resource.beginAllocate a.bytes s) = (.running c, t)) ∧
    ∃ phase, c = .attach a phase ∧ a.Recovering s t phase

theorem Pursues.advance {c : Call} (hrole : a.Reclaims)
    (hdead : ∀ id, s.kernel.names.get? a.config.segment = some id →
      s.kernel.ownerAlive id = false)
    (hmode : s.process.readStrictMode.1 ≠ .fatalWarnings) (hfree : a.Unhindered s)
    (h : a.Pursues s c t) :
    Reached (a.Pursues s) (fun o u => ∃ m, a.Recovered s m o u) (c.advance t) := by
  obtain ⟨⟨steps, hcourse⟩, phase, rfl, hrecovering⟩ := h
  have hawake : (Call.attach a phase).wakeUp t = t := by
    cases phase with
    | pause => exact hrecovering.elim
    | _ => rfl
  have hsucc := runAlone_succ hcourse
  have hahead := hfree (steps + 1)
  rw [hsucc] at hahead
  rw [Call.advance_eq, hawake] at hahead hsucc ⊢
  have ht := a.step_transition phase t
  cases hstep : a.step phase t with
  | mk progress u =>
    rw [hstep] at ht
    simp only [Call.step, Call.ofAttach, hstep] at hahead hsucc ⊢
    have hrecovers := hrecovering.transition ht hrole hdead hmode (by
      intro next hnext
      subst hnext
      exact hahead)
    cases progress with
    | running next => exact ⟨⟨steps + 1, hsucc⟩, next, rfl, hrecovers⟩
    | done o => exact hrecovers

/-- Where nobody alive owns what is bound under the name, the next leader that removes leftovers
and that nothing else hinders gets its segment. -/
theorem recovers (hrole : a.Reclaims) (hbytes : a.bytes ≠ 0)
    (hdead : ∀ id, s.kernel.names.get? a.config.segment = some id →
      s.kernel.ownerAlive id = false)
    (hmode : s.process.readStrictMode.1 ≠ .fatalWarnings) (hfree : a.Unhindered s) :
    ∃ m o t, a.resource.allocate a.bytes s = (.done o, t) ∧ a.Recovered s m o t := by
  have hbegun : a.resource.beginAllocate a.bytes s = Call.ofAttach a (a.begin s) := by
    simp only [resource, Resource.beginAllocate, if_neg hbytes]
  have hbegin : a.begin s = (.running .findLeftover, s) := by
    have hsize := hfree 0
    unfold begin at hbegun ⊢
    split at hbegun
    · rw [hbegun] at hsize
      cases hsize
    case isFalse hfits =>
      rw [if_neg hfits, if_pos hrole.1, if_pos hrole.2]
  rw [hbegin] at hbegun
  have hfirst : a.Pursues s (.attach a .findLeftover) s :=
    ⟨⟨0, hbegun⟩, .findLeftover, rfl, rfl, .refl _⟩
  obtain ⟨o, t, hrun, m, hrecovered⟩ := runAlone_rule (a.Pursues s) _
    (fun _ _ => Pursues.advance hrole hdead hmode hfree) _ s _ (budget_begin hbegin) hfirst
  refine ⟨m, o, t, ?_, hrecovered⟩
  rw [allocate_of_ne_zero hbytes, hbegin]
  exact hrun

end Attach

/-! ### Followers -/

namespace Attach

def outside : Phase → Bool
  | .find _ | .measure _ _ | .mapFound _ _ _ | .checkReady _ _ | .checkOwner _ _ | .missed _
  | .pause _ _ | .fail _ => true
  | _ => false

end Attach

namespace Stage

def outside : Stage → Bool
  | idle | halted => true
  | calling (.attach _ phase) => Attach.outside phase
  | _ => false

end Stage

namespace Attach.Transition

variable {a : Attach} {phase : Phase} {s t : Site} {progress : Progress Phase Result}

/-- Where what a follower found belongs to nobody alive, it does not get past the check. -/
theorem outside (h : Transition a phase s progress t)
    (hdead : ∀ id, segment? phase = some id → s.kernel.ownerAlive id = false)
    (houtside : Attach.outside phase = true) :
    (Stage.after (progress.map (.attach a) .ofResult)).outside = true := by
  cases h with
  | @owned _ _ m howned => cases howned.symm.trans (hdead m.segment rfl)
  | failed h => rcases (failed_spec h).2 with rfl | ⟨_, _, _, rfl⟩ <;> rfl
  | _ => first | rfl | cases houtside

/-- The owner on record changes where a leader signs its segment, and nowhere else. -/
theorem owner_cases (h : Transition a phase s progress t) (hsuits : a.Suits phase)
    (hrules : a.config.isLeader = true → a.Rules s phase) (id : SegmentId) :
    (t.kernel.header id).owner = (s.kernel.header id).owner ∨
      a.config.isLeader = true ∧ (t.kernel.header id).owner = s.process.pid := by
  by_cases hwritten : written? phase = some id
  · cases h with
    | resized hresize =>
      cases hwritten
      have hdeed := hrules hsuits
      left
      rw [Site.of_resizeSegment hresize]
      show ((s.kernel.modifySegment id (·.resize a.total)).header id).owner = _
      rw [Kernel.header_resize_of_le (by rw [hdeed.length_eq]; exact Nat.zero_le _)]
    | @claimed _ m =>
      cases hwritten
      have hdeed := hrules hsuits.1
      right
      refine ⟨hsuits.1, ?_⟩
      show ((s.kernel.modifyHeader m.segment (·.claim s.process.pid)).header m.segment).owner = _
      rw [Kernel.header_modifyHeader hdeed.lt, if_pos rfl]
      rfl
    | leftoverRetired | bytesPublished | joinedPublished | livePublished | statePublished =>
      exact Or.inl (s.kernel.word_modifyHeader Header.owner _ id fun _ => rfl)
    | unresized => exact Or.inl rfl
    | _ => cases hwritten
  · exact Or.inl (congrArg Record.owner (h.record_eq hwritten))

end Attach.Transition

theorem Detach.Transition.owner_eq {d : Detach} {phase : Detach.Phase} {s t : Site}
    {progress : Progress Detach.Phase Unit} (h : Detach.Transition d phase s progress t)
    (id : SegmentId) : (t.kernel.header id).owner = (s.kernel.header id).owner := by
  cases h with
  | retired | left => exact s.kernel.word_modifyHeader Header.owner _ id fun _ => rfl
  | _ => rfl

theorem Call.owner_cases {c : Call} {config : SharingConfig} {s : Site}
    (hsuits : (Stage.calling c).Suits config s)
    (hrules : config.isLeader = true → (Stage.calling c).Rules config.segment s) (id : SegmentId) :
    ((c.step s).2.kernel.header id).owner = (s.kernel.header id).owner ∨
      config.isLeader = true ∧ ((c.step s).2.kernel.header id).owner = s.process.pid := by
  cases c with
  | attach a phase =>
    obtain ⟨rfl, hsuits⟩ := hsuits
    exact (a.step_transition phase s).owner_cases hsuits hrules id
  | detach d phase => exact Or.inl ((d.step_transition phase s).owner_eq id)

/-- The segment was never signed, or by a process that is gone. -/
def Kernel.Abandoned (k : Kernel) (gone : List UInt32) (id : SegmentId) : Prop :=
  (k.header id).owner = 0 ∨ (k.header id).owner ∈ gone

namespace Machine

variable {κ : Type u} {ι : Type v} {m next : Machine κ ι} {roster : ι → Member κ}
  {name : SegmentName} {gone : List UInt32}

def Gone (gone : List UInt32) (m : Machine κ ι) : Prop :=
  ∀ pid ∈ gone, m.kernel.processAlive pid = false

instance : DecidablePred (Gone (κ := κ) (ι := ι) gone) := fun m =>
  inferInstanceAs (Decidable (∀ pid ∈ gone, m.kernel.processAlive pid = false))

/-- Whatever is bound under the name, and whatever the group deals with, is abandoned. -/
structure Bereft (m : Machine κ ι) (roster : ι → Member κ) (name : SegmentName)
    (gone : List UInt32) : Prop where
  sound : m.Sound roster
  ruled : m.Ruled roster
  leads : ∀ i, (roster i).config.isLeader = true → (m.process (roster i).home).pid ∈ gone
  bound : ∀ id, m.kernel.names.get? name = some id → m.kernel.Abandoned gone id
  dealt : ∀ i id, (roster i).config.segment = name → m.segment? roster i = some id →
    m.kernel.Abandoned gone id

theorem Gone.ownerAlive (h : m.Gone gone) {id : SegmentId}
    (habandoned : m.kernel.Abandoned gone id) : m.kernel.ownerAlive id = false := by
  unfold Kernel.ownerAlive
  rcases habandoned with hzero | howner
  · rw [hzero]
    rfl
  · exact h _ howner

theorem abandoned_of_le {id : SegmentId} (h : m.kernel.segments.length ≤ id) :
    m.kernel.Abandoned gone id := by
  left
  rw [Kernel.header_of_le h]
  rfl

theorem bereft_of_idle (hidle : ∀ i, m.stage i = .idle)
    (hleads : ∀ i, (roster i).config.isLeader = true → (m.process (roster i).home).pid ∈ gone)
    (hbound : ∀ id, m.kernel.names.get? name = some id → m.kernel.Abandoned gone id) :
    m.Bereft roster name gone := by
  refine ⟨sound_of_idle hidle, ruled_of_idle hidle, hleads, hbound, ?_⟩
  intro i id _ hid
  rw [segment?, hidle i] at hid
  cases hid

variable [DecidableEq κ] [DecidableEq ι] {access : Option (Access ι)}

theorem owner_of_step (hsound : m.Sound roster) (hruled : m.Ruled roster)
    (hstep : Step roster m access next) (id : SegmentId) :
    (next.kernel.header id).owner = (m.kernel.header id).owner ∨
      ∃ i, (roster i).config.isLeader = true ∧
        (next.kernel.header id).owner = (m.process (roster i).home).pid := by
  cases hstep with
  | allocate i bytes hidle =>
    rw [settle, Member.beginAllocate_site]
    exact Or.inl rfl
  | access i c hcalling =>
    have hsuits := hsound.suits i
    have hrules := hruled.rules i
    rw [hcalling] at hsuits hrules
    rcases Call.owner_cases hsuits hrules id with hsame | ⟨hrole, howner⟩
    · exact Or.inl hsame
    · exact Or.inr ⟨i, hrole, howner⟩
  | release | elapse | populate | move => exact Or.inl rfl

theorem Bereft.abandoned_step (h : m.Bereft roster name gone)
    (hstep : Step roster m access next) {id : SegmentId} (hid : m.kernel.Abandoned gone id) :
    next.kernel.Abandoned gone id := by
  unfold Kernel.Abandoned
  rcases owner_of_step h.sound h.ruled hstep id with hsame | ⟨i, hrole, howner⟩
  · rw [hsame]
    exact hid
  · rw [howner]
    exact Or.inr (h.leads i hrole)

theorem Bereft.step (h : m.Bereft roster name gone) {leader : ι}
    (hone : ∀ i, (roster i).config.isLeader = true ↔ i = leader)
    (hstep : Step roster m access next) : next.Bereft roster name gone where
  sound := sound_step h.sound hstep
  ruled := h.ruled.step h.sound (spares_of_one hone h.sound hstep) hstep
  leads i hrole := by
    rw [pid_step hstep]
    exact h.leads i hrole
  bound id hbound := by
    apply h.abandoned_step hstep
    rcases names_before hstep hbound with hbefore | ⟨_, _, _, _, hcreated⟩
    · exact h.bound id hbefore
    · exact abandoned_of_le hcreated.length_le
  dealt i id hname hid := by
    apply h.abandoned_step hstep
    rcases segment_before h.sound hstep hid with hbefore | hbound | hnew
    · exact h.dealt i id hname hbefore
    · exact h.bound id (hname ▸ hbound)
    · exact abandoned_of_le hnew

theorem Bereft.run {Allowed : Machine κ ι → Prop} {later : List (Access ι)} {last : Machine κ ι}
    (h : m.Bereft roster name gone) {leader : ι}
    (hone : ∀ i, (roster i).config.isLeader = true ↔ i = leader)
    (hrun : Run roster Allowed m later last) : last.Bereft roster name gone := by
  induction hrun with
  | start => exact h
  | step _ hstep _ ih => exact ih.step hone hstep

/-- Who has not passed the check of the owner does not pass it. -/
theorem Bereft.outside_step (h : m.Bereft roster name gone) (hgone : m.Gone gone) {i : ι}
    (hrole : (roster i).config.isLeader = false) (hname : (roster i).config.segment = name)
    {leader : ι} (hone : ∀ i, (roster i).config.isLeader = true ↔ i = leader)
    (hstep : Step roster m access next) (houtside : (m.stage i).outside = true) :
    (next.stage i).outside = true := by
  rcases stage_cases hstep i with hsame | ⟨-, a, phase, hfirst, hbegun⟩ | ⟨d, hholding, -⟩ |
    ⟨c, -, hcalling, hstepped⟩
  · rw [hsame]
    exact houtside
  · have hsuits := (h.step hone hstep).sound.suits i
    rw [hbegun] at hsuits ⊢
    have hfollows : a.config.isLeader = false := hsuits.1 ▸ hrole
    cases hfirst with
    | findLeftover hleads | create hleads => cases hleads.symm.trans hfollows
    | find | fail => rfl
  · rw [hholding] at houtside
    cases houtside
  · rw [hcalling] at houtside
    rw [hstepped]
    cases c with
    | detach => cases houtside
    | attach a phase =>
      refine (a.step_transition phase (m.site (roster i).home)).outside ?_ houtside
      intro id hid
      exact hgone.ownerAlive (h.dealt i id hname (by rw [segment?, hcalling]; exact hid))

theorem Bereft.outside_run {later : List (Access ι)} {last : Machine κ ι}
    (h : m.Bereft roster name gone) {i : ι} (hrole : (roster i).config.isLeader = false)
    (hname : (roster i).config.segment = name) {leader : ι}
    (hone : ∀ i, (roster i).config.isLeader = true ↔ i = leader)
    (hrun : Run roster (Gone gone) m later last) (houtside : (m.stage i).outside = true) :
    (last.stage i).outside = true := by
  induction hrun with
  | start => exact houtside
  | step hrun hstep _ ih =>
    exact (h.run hone hrun).outside_step hrun.allowed hrole hname hone hstep ih

/-- The leader's process died, wherever its calls were, and whatever it may have found under its
name was abandoned as well. As long as nobody takes its place, no follower that has not passed the
check of the owner comes to a block. And the next leader that removes leftovers, in any process
below the strictest mode, and that nothing but a taken name could hinder, gets a segment of its own,
published under the name. -/
theorem recovery_exact {leader : ι} (hone : ∀ i, (roster i).config.isLeader = true ↔ i = leader)
    {m₀ : Machine κ ι} {history : List (Access ι)} (hidle : ∀ i, m₀.stage i = .idle)
    (hleft : ∀ id, m₀.kernel.names.get? (roster leader).config.segment = some id →
      m₀.kernel.Abandoned gone id)
    (hdies : (m₀.process (roster leader).home).pid ∈ gone)
    (hrun : Run roster (fun _ => True) m₀ history m) (hgone : m.Gone gone) :
    (∀ i, i ≠ leader → (roster i).config.segment = (roster leader).config.segment →
      (m.stage i).outside = true → ∀ later last, Run roster (Gone gone) m later last →
        (last.stage i).outside = true) ∧
    ∀ (a : Attach) (p : Process), a.config.segment = (roster leader).config.segment →
      a.Reclaims → a.bytes ≠ 0 → p.readStrictMode.1 ≠ .fatalWarnings →
      a.Unhindered ⟨m.kernel, p⟩ →
      ∃ mapping o t, a.resource.allocate a.bytes ⟨m.kernel, p⟩ = (.done o, t) ∧
        a.Recovered ⟨m.kernel, p⟩ mapping o t := by
  have hstart : m₀.Bereft roster (roster leader).config.segment gone := by
    apply bereft_of_idle hidle _ hleft
    intro i hrole
    rw [(hone i).mp hrole]
    exact hdies
  have hbereft := hstart.run hone hrun
  constructor
  · intro i hi hname houtside later last hlater
    have hrole : (roster i).config.isLeader = false :=
      Bool.eq_false_iff.mpr fun hrole => hi ((hone i).mp hrole)
    exact hbereft.outside_run hrole hname hone hlater houtside
  · intro a p hname hrole hbytes hmode hfree
    refine Attach.recovers hrole hbytes ?_ hmode hfree
    intro id hbound
    exact hgone.ownerAlive (hbereft.bound id (hname ▸ hbound))

end Machine

/-- Where the call has ended after so many steps, only these need to be looked at. -/
theorem Attach.unhindered_of_lt {a : Attach} {s : Site} {steps : Nat} {o : Outcome Reply}
    (hdone : (runAlone steps (a.resource.beginAllocate a.bytes s)).1 = .done o)
    (h : ∀ n < steps, (runAlone n (a.resource.beginAllocate a.bytes s)).1.hindered = false) :
    a.Unhindered s := by
  intro n
  by_cases hlt : n < steps
  · exact h n hlt
  · rw [runAlone_of_le (Prod.ext hdone rfl) (Nat.le_of_not_lt hlt)]
    rfl

namespace Machine

def successor : Attach :=
  ⟨{ (pair false).config with reclaimStale := true }, .host .disabled, 0, 8192⟩

/-- The leader has published and dies; another one gets its segment in the process of the follower,
which does not attach to what was left. -/
theorem recovery_exact_published : ∃ (history : List (Access Bool)) (m : Machine Bool Bool)
    (mapping : Mapping) (t : Site),
    Run pair (fun _ => True) (fresh (fun follows => if follows then 2 else 1) [1, 2]) history m ∧
      m.Gone [1] ∧ m.kernel.names.get? successor.config.segment = some 0 ∧
      (∀ later last, Run pair (Gone [1]) m later last → (last.stage true).outside = true) ∧
      successor.resource.allocate successor.bytes (m.site true) =
        (.done (.returned (.allocated (some ⟨mapping.payload, 8192⟩))), t) ∧
      t.kernel.names.get? successor.config.segment = some mapping.segment ∧
      t.kernel.header mapping.segment = ⟨Header.readyMark, 8192, 1, 1, 2⟩ ∧
      (t.kernel.header 0).state = Header.retiredMark := by
  obtain ⟨⟨history, m⟩, hplay, hreached⟩ := Option.map_eq_some_iff.mp
    (by decide +kernel :
      (play pair (fun _ => True) (.allocate false 4096 :: List.replicate 10 (.access false))
        ([], fresh (fun follows => if follows then 2 else 1) [1, 2])).map (fun (_, m) =>
          let s : Site := ⟨{ m.kernel with alive := [2] }, m.process true⟩
          let begun := successor.resource.beginAllocate successor.bytes s
          (decide ((m.stage true).outside = true ∧
              s.kernel.names.get? successor.config.segment = some 0 ∧
              Page.headerLength ≤ s.kernel.segmentLength 0 ∧ s.process.pid = 2),
            decide ((s.process.account 0).bytes.current.toNat + 8192 < UInt64.size ∧
              s.process.readStrictMode.1 ≠ .fatalWarnings),
            (List.range 17).all fun n => !(runAlone n begun).1.hindered,
            match (runAlone 17 begun).1 with
            | .done _ => true
            | .running _ => false)) =
      some (true, true, true, true))
  simp only [Prod.mk.injEq, decide_eq_true_eq, List.all_eq_true, List.mem_range,
    Bool.not_eq_true'] at hreached
  obtain ⟨⟨houtside, hbound, hlong, hpid⟩, ⟨hfits, hmode⟩, hsmooth, hended⟩ := hreached
  have hdone : ∃ o, (runAlone 17 (successor.resource.beginAllocate successor.bytes
      ⟨{ m.kernel with alive := [2] }, m.process true⟩)).1 = .done o := by
    split at hended
    case h_1 o ho => exact ⟨o, ho⟩
    case h_2 => cases hended
  obtain ⟨o, hdone⟩ := hdone
  have hone : ∀ i, (pair i).config.isLeader = true ↔ i = false := by decide
  have hrun : Run pair (fun _ => True) (fresh (fun follows => if follows then 2 else 1) [1, 2])
      history { m with kernel := { m.kernel with alive := [2] } } :=
    (run_of_play (.start trivial) _ hplay).step (.populate [2]) trivial
  have hgone : Gone [1] ({ m with kernel := { m.kernel with alive := [2] } } :
      Machine Bool Bool) := by
    intro pid hmem
    obtain rfl := List.mem_singleton.mp hmem
    rfl
  obtain ⟨hshut, hrecovers⟩ := recovery_exact hone (fun _ => rfl)
    (by intro id h; cases h) (List.mem_singleton.mpr rfl) hrun hgone
  obtain ⟨mapping, o, t, hallocate, hrecovered⟩ := hrecovers successor (m.process true) rfl
    ⟨rfl, rfl⟩ (by decide) hmode (Attach.unhindered_of_lt hdone hsmooth)
  obtain ⟨rfl, -⟩ := hrecovered.allocated hfits
  refine ⟨history, _, mapping, t, hrun, hgone, hbound, hshut true (by decide) rfl houtside,
    hallocate, ?_, ?_, ?_⟩
  · rw [hrecovered.names_eq, if_pos rfl]
  · rw [hrecovered.header_eq]
    show (⟨_, _, _, _, (m.process true).pid⟩ : Header) = _
    rw [hpid]
    rfl
  · rw [hrecovered.retired 0 hbound hlong]
    rfl

end Machine
end StagingMemory
