import StagingMemory.Proofs.Atomicity
import StagingMemory.Proofs.Course
import StagingMemory.Proofs.Publication
/-!
Followers never alter the namespace. Whatever goes on elsewhere between its steps, each step of a
follower's call leaves the names, the lengths and what the headers say of state, length and owner
as they are. It changes counts only: an allocation that hands out a block has added one to both
counts of one segment, one that fails at most one to its joined count, and a release has taken one
from the live count of the block's segment. Main statement: `follower_frame`.
-/
namespace StagingMemory

/-- The kernels differ in the counts of headers at most. -/
structure Kernel.Recounted (k k' : Kernel) : Prop where
  names_eq : k'.names = k.names
  segments_eq : k'.segments.length = k.segments.length
  length_eq : ∀ id, k'.segmentLength id = k.segmentLength id
  state_eq : ∀ id, (k'.header id).state = (k.header id).state
  bytes_eq : ∀ id, (k'.header id).bytes = (k.header id).bytes
  owner_eq : ∀ id, (k'.header id).owner = (k.header id).owner

namespace Kernel

/-- Only counts of headers differ: the live counts by so much, and the joined counts by so much. -/
structure Adds (k k' : Kernel) (live joined : SegmentId → UInt32) : Prop
    extends k.Recounted k' where
  live_eq : k.gain Header.live k' = live
  joined_eq : k.gain Header.joined k' = joined

theorem adds_of_eq {k k' : Kernel} (h : k' = k) : k.Adds k' 0 0 := by
  subst h
  exact ⟨⟨rfl, rfl, fun _ => rfl, fun _ => rfl, fun _ => rfl, fun _ => rfl⟩, gain_self _ _,
    gain_self _ _⟩

theorem adds_modifyHeader {k : Kernel} {id : SegmentId} (h : id < k.segments.length)
    {f : Header → Header} (live joined : UInt32)
    (hf : ∀ header, f header =
      { header with live := header.live + live, joined := header.joined + joined }) :
    k.Adds (k.modifyHeader id f) (Pi.single id live) (Pi.single id joined) where
  names_eq := rfl
  segments_eq := List.length_modify ..
  length_eq j := segmentLength_modifyHeader k id j f
  state_eq j := word_modifyHeader Header.state k id j fun header => by rw [hf]
  bytes_eq j := word_modifyHeader Header.bytes k id j fun header => by rw [hf]
  owner_eq j := word_modifyHeader Header.owner k id j fun header => by rw [hf]
  live_eq := gain_modifyHeader _ h fun header => by rw [hf]
  joined_eq := gain_modifyHeader _ h fun header => by rw [hf]

theorem adds_raiseLive {k : Kernel} {id : SegmentId} (h : id < k.segments.length) :
    k.Adds (k.modifyHeader id .raiseLive) (Pi.single id 1) 0 := by
  simpa using adds_modifyHeader h 1 0 fun header => by
    simp [Header.raiseLive]

theorem adds_lowerLive {k : Kernel} {id : SegmentId} (h : id < k.segments.length) :
    k.Adds (k.modifyHeader id .lowerLive) (Pi.single id (-1)) 0 := by
  simpa using adds_modifyHeader h (-1) 0 fun header => by
    simp [Header.lowerLive, sub_eq_add_neg]

theorem adds_raiseJoined {k : Kernel} {id : SegmentId} (h : id < k.segments.length) :
    k.Adds (k.modifyHeader id .raiseJoined) 0 (Pi.single id 1) := by
  simpa using adds_modifyHeader h 0 1 fun header => by
    simp [Header.raiseJoined]

end Kernel

/-- Every one of the call's own steps left all but the counts as it was. -/
def Framed (steps : List (Call × Site)) : Prop :=
  ∀ own ∈ steps, own.2.kernel.Recounted (own.1.step own.2).2.kernel

theorem framed_nil : Framed [] := fun _ hmem => nomatch hmem

theorem Framed.cons {steps : List (Call × Site)} {c : Call} {s : Site} (h : Framed steps)
    (hstep : s.kernel.Recounted (c.step s).2.kernel) : Framed ((c, s) :: steps) := by
  rintro own (_ | ⟨_, hmem⟩)
  · exact hstep
  · exact h own hmem

namespace Attach

def one : Option SegmentId → SegmentId → UInt32
  | none => 0
  | some id => Pi.single id 1

def standing? : Phase → Option SegmentId
  | .recheck _ m | .withdraw _ m | .raiseJoined m | .register m | .undo m _ | .finish m =>
    some m.segment
  | _ => none

/-- Where the follower has joined. A call that is about to fail may have joined anywhere. -/
def Joined : Phase → Option SegmentId → Prop
  | .register m, id? | .undo m _, id? | .finish m, id? => id? = some m.segment
  | .fail _, _ => True
  | _, id? => id? = none

def followers : Phase → Bool
  | .findLeftover | .measureLeftover _ | .mapLeftover _ | .checkLeftover _ | .retireLeftover _
  | .removeLeftover | .reportLeftover | .create | .resize _ | .map _ | .discard _ | .claim _
  | .publishBytes _ | .publishJoined _ | .publishLive _ | .publishState _ => false
  | _ => true

/-- What is undone is undone because registering failed. -/
def EndsRegistration : Phase → Prop
  | .undo _ ending => RegistrationEnding ending
  | _ => True

structure Tallied (steps : List (Call × Site)) (phase : Phase) (k : Kernel) : Prop where
  framed : Framed steps
  role : followers phase = true
  ending : EndsRegistration phase
  known : ∀ id, segment? phase = some id → id < k.segments.length
  live_eq : gained Header.live steps = one (standing? phase)
  joined_eq : ∃ id?, Joined phase id? ∧ gained Header.joined steps = one id?

def Accounted (steps : List (Call × Site)) : Outcome Reply → Prop
  | .returned (.allocated none) =>
    gained Header.live steps = 0 ∧ gained Header.joined steps = 0
  | .returned (.allocated (some _)) | .faulted .addOverflow =>
    ∃ id, gained Header.live steps = Pi.single id 1 ∧ gained Header.joined steps = Pi.single id 1
  | _ =>
    gained Header.live steps = 0 ∧
      (gained Header.joined steps = 0 ∨ ∃ id, gained Header.joined steps = Pi.single id 1)

def Tallies (steps : List (Call × Site)) : Progress Phase Result → Site → Prop
  | .running next, t => Tallied steps next t.kernel
  | .done o, _ => Framed steps ∧ Accounted steps (o.map .ofResult)

section

variable {a : Attach} {phase next : Phase} {s t : Site} {steps : List (Call × Site)}
  {live joined : SegmentId → UInt32}

theorem Transition.endsRegistration (h : Transition a phase s (.running next) t) :
    EndsRegistration next := by
  cases h with
  | unregistered => exact Or.inl ⟨_, rfl⟩
  | registerFatal h =>
    obtain ⟨context, rfl⟩ := Device.fault_of_register h
    exact Or.inr ⟨context, rfl⟩
  | registered => split <;> trivial
  | _ => trivial

/-- What the counts come to by a step. -/
theorem Tallied.added {progress : Progress Phase Result} (h : Tallied steps phase s.kernel)
    (hstep : a.step phase s = (progress, t)) (hadds : s.kernel.Adds t.kernel live joined) :
    Framed ((.attach a phase, s) :: steps) ∧
      gained Header.live ((.attach a phase, s) :: steps) = one (standing? phase) + live ∧
      ∃ id?, Joined phase id? ∧
        gained Header.joined ((.attach a phase, s) :: steps) = one id? + joined := by
  have hafter : ((Call.attach a phase).step s).2 = t := by
    rw [Call.step, hstep]
    rfl
  rw [← hafter] at hadds
  obtain ⟨id?, hid, hjoined⟩ := h.joined_eq
  refine ⟨h.framed.cons hadds.toRecounted, ?_, id?, hid, ?_⟩
  · rw [← h.live_eq, ← hadds.live_eq]
    rfl
  · rw [← hjoined, ← hadds.joined_eq]
    rfl

/-- A step that changes the counts by as much as its phases say keeps the tally. -/
theorem Tallied.step (h : Tallied steps phase s.kernel) (hstep : a.step phase s = (.running next, t))
    (hadds : s.kernel.Adds t.kernel live joined) (hrole : followers next = true)
    (hknown : ∀ id, segment? next = some id → id < s.kernel.segments.length)
    (hlive : one (standing? phase) + live = one (standing? next))
    (hjoined : ∀ id?, Joined phase id? → ∃ after, Joined next after ∧ one id? + joined = one after) :
    Tallied ((.attach a phase, s) :: steps) next t.kernel := by
  have hending := a.step_transition phase s
  rw [hstep] at hending
  obtain ⟨hframed, hgained, id?, hid, hgained'⟩ := h.added hstep hadds
  obtain ⟨after, hafter, hone⟩ := hjoined id? hid
  refine ⟨hframed, hrole, hending.endsRegistration, ?_, hgained.trans hlive, after, hafter,
    hgained'.trans hone⟩
  intro id hsegment
  rw [hadds.segments_eq]
  exact hknown id hsegment

/-- A step that touches no header keeps the tally. -/
theorem Tallied.look (h : Tallied steps phase s.kernel) (hstep : a.step phase s = (.running next, t))
    (hkernel : t.kernel = s.kernel) (hrole : followers next = true)
    (hknown : ∀ id, segment? next = some id → id < s.kernel.segments.length)
    (hlive : standing? next = standing? phase)
    (hjoined : ∀ id?, Joined phase id? → Joined next id?) :
    Tallied ((.attach a phase, s) :: steps) next t.kernel := by
  refine h.step hstep (Kernel.adds_of_eq hkernel) hrole hknown ?_ ?_
  · rw [hlive, add_zero]
  · exact fun id? hid => ⟨id?, hjoined id? hid, add_zero _⟩

theorem one_add_lower (id : SegmentId) : one (some id) + Pi.single id (-1) = 0 := by
  rw [one, ← Pi.single_add, add_neg_cancel, Pi.single_zero]

/-- A follower undoes its join by leaving. -/
theorem adds_undone (hrole : a.config.isLeader = false) {m : Mapping}
    (h : m.segment < s.kernel.segments.length) :
    s.kernel.Adds (a.undone s m).kernel (Pi.single m.segment (-1)) 0 := by
  rw [undone, if_neg (by simp [hrole])]
  exact Kernel.adds_lowerLive h

theorem accounted_of_failed {o : Outcome Reply} {id? : Option SegmentId}
    (hrefused : ∀ block?, o ≠ .returned (.allocated block?)) (hfault : o ≠ .faulted .addOverflow)
    (hlive : gained Header.live steps = 0) (hjoined : gained Header.joined steps = one id?) :
    Accounted steps o := by
  have hone : gained Header.joined steps = 0 ∨
      ∃ id, gained Header.joined steps = Pi.single id 1 := by
    cases id? with
    | none => exact Or.inl hjoined
    | some id => exact Or.inr ⟨id, hjoined⟩
  unfold Accounted
  split
  · exact absurd rfl (hrefused _)
  · exact absurd rfl (hrefused _)
  · exact absurd rfl hfault
  · exact ⟨hlive, hone⟩

theorem Transition.tallies {progress : Progress Phase Result} (h : Transition a phase s progress t)
    (hrole : a.config.isLeader = false) (hstep : a.step phase s = (progress, t))
    (htallied : Tallied steps phase s.kernel) :
    Tallies ((.attach a phase, s) :: steps) progress t := by
  have hphase := htallied.role
  have hknown := htallied.known
  cases h with
  | found h =>
    refine htallied.look hstep rfl rfl ?_ rfl fun _ hid => hid
    intro id hid
    cases hid
    exact s.kernel.names_bound _ _ (Site.names_of_openSegment h)
  | sized | ready | owned | matched | confirmed | refused =>
    exact htallied.look hstep rfl rfl hknown rfl fun _ hid => hid
  | absent | short | unready | orphaned | waiting | woken | asleep =>
    exact htallied.look hstep rfl rfl (fun _ hid => by cases hid) rfl fun _ hid => hid
  | unopened | foundUnmapped | mismatched | expired =>
    exact htallied.look hstep rfl rfl (fun _ hid => by cases hid) rfl fun _ _ => trivial
  | foundMapped h =>
    obtain ⟨hid, -, ht, -⟩ := Site.mapped_of_mapSegment h
    refine htallied.look hstep (by rw [ht]) rfl ?_ rfl fun _ hid => hid
    intro id heq
    cases heq
    rw [hid]
    exact hknown _ rfl
  | @raised _ _ m =>
    refine htallied.step hstep (Kernel.adds_raiseLive (hknown _ rfl)) rfl hknown (zero_add _) ?_
    exact fun id? hid => ⟨id?, hid, add_zero _⟩
  | @withdrawn _ _ m =>
    refine htallied.step hstep (Kernel.adds_lowerLive (hknown _ rfl)) rfl (fun _ hid => by cases hid)
      (one_add_lower _) ?_
    exact fun id? hid => ⟨id?, hid, add_zero _⟩
  | @joined _ m =>
    refine htallied.step hstep (Kernel.adds_raiseJoined (hknown _ rfl)) rfl hknown (add_zero _) ?_
    rintro id? rfl
    exact ⟨some m.segment, rfl, zero_add _⟩
  | registered =>
    rw [if_neg (by simp [hrole])] at hstep ⊢
    exact htallied.look hstep rfl rfl hknown rfl fun _ hid => hid
  | unregistered | registerFatal =>
    exact htallied.look hstep rfl rfl hknown rfl fun _ hid => hid
  | undoneError =>
    refine htallied.step hstep (adds_undone hrole (hknown _ rfl)) rfl (fun _ hid => by cases hid)
      (one_add_lower _) ?_
    exact fun id? _ => ⟨id?, trivial, add_zero _⟩
  | undoneFault =>
    obtain ⟨hframed, hlive, id?, -, hjoined⟩ :=
      htallied.added hstep (adds_undone hrole (hknown _ rfl))
    obtain ⟨e, he⟩ | ⟨context, he⟩ := htallied.ending
    · cases he
    · cases he
      exact ⟨hframed, accounted_of_failed (by simp) (by simp [Process.strictFault])
        (hlive.trans (one_add_lower _)) (hjoined.trans (add_zero _))⟩
  | undoneAbort => rcases htallied.ending with ⟨e, he⟩ | ⟨context, he⟩ <;> cases he
  | @finished _ m o p h =>
    obtain ⟨hframed, hlive, id?, rfl, hjoined⟩ := htallied.added hstep (Kernel.adds_of_eq rfl)
    have hboth : ∃ id, gained Header.live ((.attach a (.finish m), s) :: steps) = Pi.single id 1 ∧
        gained Header.joined ((.attach a (.finish m), s) :: steps) = Pi.single id 1 :=
      ⟨m.segment, hlive.trans (add_zero _), hjoined.trans (add_zero _)⟩
    have ho := (succeeded_spec h).2
    split at ho
    · subst ho
      exact ⟨hframed, hboth⟩
    · subst ho
      exact ⟨hframed, hboth⟩
  | failed h =>
    obtain ⟨hframed, hlive, id?, -, hjoined⟩ := htallied.added hstep (Kernel.adds_of_eq rfl)
    have hlive := hlive.trans (add_zero _)
    have hjoined := hjoined.trans (add_zero _)
    rcases (failed_spec h).2 with rfl | ⟨d, context, -, rfl⟩
    · exact ⟨hframed, accounted_of_failed (by simp [Reply.ofResult]) (by simp) hlive hjoined⟩
    · exact ⟨hframed, accounted_of_failed (by simp) (by simp [Process.strictFault]) hlive hjoined⟩
  | _ => cases hphase

end

end Attach

namespace Detach

def Tallied (d : Detach) (its : Option Mapping) (steps : List (Call × Site)) (s : Site) :
    Phase → Prop
  | .unregister =>
    s.mappingOf? d.block = its ∧ gained Header.live steps = 0 ∧ gained Header.joined steps = 0
  | .leave m _ _ =>
    its = some m ∧ gained Header.live steps = 0 ∧ gained Header.joined steps = 0
  | .close m _ _ =>
    its = some m ∧ gained Header.live steps = Pi.single m.segment (-1) ∧
      gained Header.joined steps = 0
  | _ => False

def Accounted (its : Option Mapping) (steps : List (Call × Site)) (o : Outcome Reply) : Prop :=
  gained Header.joined steps = 0 ∧
    (o = .aborted ∧ gained Header.live steps = 0 ∨
      ∃ m, its = some m ∧ gained Header.live steps = Pi.single m.segment (-1))

def Tallies (d : Detach) (its : Option Mapping) (steps : List (Call × Site)) :
    Progress Phase Unit → Site → Prop
  | .running next, t => Framed steps ∧ d.Tallied its steps t next
  | .done o, _ => Framed steps ∧ Accounted its steps (o.map fun _ => .released)

section

variable {d : Detach} {its : Option Mapping} {phase : Phase} {s t : Site}
  {steps : List (Call × Site)} {live joined : SegmentId → UInt32} {progress : Progress Phase Unit}

/-- What the counts come to by a step. -/
theorem added (hframed : Framed steps) (hstep : d.step phase s = (progress, t))
    (hadds : s.kernel.Adds t.kernel live joined) :
    Framed ((.detach d phase, s) :: steps) ∧
      gained Header.live ((.detach d phase, s) :: steps) = gained Header.live steps + live ∧
      gained Header.joined ((.detach d phase, s) :: steps) = gained Header.joined steps + joined := by
  have hafter : ((Call.detach d phase).step s).2 = t := by
    rw [Call.step, hstep]
    rfl
  rw [← hafter] at hadds
  refine ⟨hframed.cons hadds.toRecounted, ?_, ?_⟩
  · rw [← hadds.live_eq]
    rfl
  · rw [← hadds.joined_eq]
    rfl

theorem added_of_eq (hframed : Framed steps) (hstep : d.step phase s = (progress, t))
    (hkernel : t.kernel = s.kernel) :
    Framed ((.detach d phase, s) :: steps) ∧
      gained Header.live ((.detach d phase, s) :: steps) = gained Header.live steps ∧
      gained Header.joined ((.detach d phase, s) :: steps) = gained Header.joined steps := by
  simpa using added hframed hstep (Kernel.adds_of_eq hkernel)

theorem Transition.tallies (h : Transition d phase s progress t)
    (hrole : d.config.isLeader = false) (hstep : d.step phase s = (progress, t))
    (hframed : Framed steps) (hknown : ∀ m, its = some m → m.segment < s.kernel.segments.length)
    (htallied : d.Tallied its steps s phase) :
    d.Tallies its ((.detach d phase, s) :: steps) progress t := by
  cases h with
  | refused | lost =>
    obtain ⟨-, hlive, hjoined⟩ := htallied
    obtain ⟨hframed, hlive', hjoined'⟩ := added_of_eq hframed hstep rfl
    exact ⟨hframed, hjoined'.trans hjoined, Or.inl ⟨rfl, hlive'.trans hlive⟩⟩
  | @unregistered _ p m h hm =>
    obtain ⟨hits, hlive, hjoined⟩ := htallied
    obtain ⟨hframed, hlive', hjoined'⟩ := added_of_eq hframed hstep rfl
    have hkept := (Device.kept_of_unregister h).relocked
    have hsame := Site.mappingOf?_relocked (s := s) (t := ⟨s.kernel, p⟩) hkept d.block
    rw [if_neg (by simp [hrole])] at *
    exact ⟨hframed, by rw [← hits, ← hsame, hm], hlive'.trans hlive, hjoined'.trans hjoined⟩
  | @left _ m =>
    obtain ⟨hits, hlive, hjoined⟩ := htallied
    obtain ⟨hframed, hlive', hjoined'⟩ :=
      added hframed hstep (Kernel.adds_lowerLive (hknown m hits))
    rw [hlive, zero_add] at hlive'
    rw [hjoined, add_zero] at hjoined'
    exact ⟨hframed, hits, hlive', hjoined'⟩
  | @closed _ m =>
    obtain ⟨hits, hlive, hjoined⟩ := htallied
    obtain ⟨hframed, hlive', hjoined'⟩ := added_of_eq hframed hstep rfl
    exact ⟨hframed, hjoined'.trans hjoined, Or.inr ⟨m, hits, hlive'.trans hlive⟩⟩
  | _ => exact htallied.elim

end

end Detach

/-! ### Whole calls -/

/-- Elsewhere no segment was lost; anything else may have changed. -/
def Site.Grows (s t : Site) : Prop := s.kernel.segments.length ≤ t.kernel.segments.length

structure Site.GrowsAround (block : Block) (s t : Site) : Prop where
  grows : s.Grows t
  mapping_eq : t.mappingOf? block = s.mappingOf? block

namespace Attach

variable {a : Attach} {steps : List (Call × Site)}

theorem Tallies.reached {result : Progress Phase Result × Site}
    (h : Tallies steps result.1 result.2) :
    Reached (fun c s => ∃ phase, c = .attach a phase ∧ Tallied steps phase s.kernel)
      (fun o _ => Framed steps ∧ Accounted steps o) (Call.ofAttach a result) := by
  obtain ⟨progress, s⟩ := result
  cases progress with
  | running phase => exact ⟨phase, rfl, h⟩
  | done o => exact h

theorem tallies_begin (hrole : a.config.isLeader = false) (s : Site) :
    Tallies [] (a.begin s).1 (a.begin s).2 := by
  unfold begin
  split
  · exact ⟨framed_nil, rfl, trivial, nofun, rfl, none, trivial, rfl⟩
  · split
    case isTrue hleads => cases hrole.symm.trans hleads
    case isFalse =>
      split
      · exact ⟨framed_nil, rfl, trivial, nofun, rfl, none, rfl, rfl⟩
      · exact ⟨framed_nil, rfl, Or.inl rfl⟩

theorem accounted_of_course (hrole : a.config.isLeader = false) {s t : Site}
    {progress : Progress Call Reply}
    (h : Course Site.Grows (Call.ofAttach a (a.begin s)) steps (progress, t)) :
    Framed steps ∧ ∀ o, progress = .done o → Accounted steps o := by
  have hreached := h.rule
    (fun steps c s => ∃ phase, c = .attach a phase ∧ Tallied steps phase s.kernel)
    (fun steps o _ => Framed steps ∧ Accounted steps o) (tallies_begin hrole s).reached
    (fun steps c u v hkeeps hgrows => by
      obtain ⟨phase, rfl, htallied⟩ := hkeeps
      refine ⟨phase, rfl, { htallied with known := ?_ }⟩
      exact fun id hid => Nat.lt_of_lt_of_le (htallied.known id hid) hgrows)
    (fun steps c u hkeeps => by
      obtain ⟨phase, rfl, htallied⟩ := hkeeps
      exact ((a.step_transition phase u).tallies hrole rfl htallied).reached)
  cases progress with
  | running c =>
    obtain ⟨phase, -, htallied⟩ := hreached
    exact ⟨htallied.framed, nofun⟩
  | done o =>
    refine ⟨hreached.1, ?_⟩
    rintro _ ⟨⟩
    exact hreached.2

end Attach

namespace Detach

variable {d : Detach} {its : Option Mapping} {steps : List (Call × Site)}

theorem Tallies.reached {result : Progress Phase Unit × Site}
    (h : d.Tallies its steps result.1 result.2)
    (hknown : ∀ m, its = some m → m.segment < result.2.kernel.segments.length) :
    Reached (fun c s => ∃ phase, c = .detach d phase ∧ Framed steps ∧ d.Tallied its steps s phase ∧
        ∀ m, its = some m → m.segment < s.kernel.segments.length)
      (fun o _ => Framed steps ∧ Accounted its steps o) (Call.ofDetach d result) := by
  obtain ⟨progress, s⟩ := result
  cases progress with
  | running phase => exact ⟨phase, rfl, h.1, h.2, hknown⟩
  | done o => exact h

theorem accounted_of_course (hrole : d.config.isLeader = false) {s t : Site}
    {progress : Progress Call Reply}
    (hknown : ∀ m, s.mappingOf? d.block = some m → m.segment < s.kernel.segments.length)
    (h : Course (Site.GrowsAround d.block) (Call.ofDetach d (d.begin s)) steps (progress, t)) :
    Framed steps ∧ ∀ o, progress = .done o → Accounted (s.mappingOf? d.block) steps o := by
  have hbegin : d.Tallies (s.mappingOf? d.block) [] (d.begin s).1 (d.begin s).2 :=
    ⟨framed_nil, rfl, rfl, rfl⟩
  have hreached := h.rule
    (fun steps c u => ∃ phase, c = .detach d phase ∧ Framed steps ∧
      d.Tallied (s.mappingOf? d.block) steps u phase ∧
        ∀ m, s.mappingOf? d.block = some m → m.segment < u.kernel.segments.length)
    (fun steps o _ => Framed steps ∧ Accounted (s.mappingOf? d.block) steps o)
    (hbegin.reached hknown)
    (fun steps c u v hkeeps haround => by
      obtain ⟨phase, rfl, hframed, htallied, hknown⟩ := hkeeps
      refine ⟨phase, rfl, hframed, ?_, fun m hm => Nat.lt_of_lt_of_le (hknown m hm) haround.grows⟩
      cases phase with
      | unregister => exact ⟨haround.mapping_eq.trans htallied.1, htallied.2⟩
      | _ => exact htallied)
    (fun steps c u hkeeps => by
      obtain ⟨phase, rfl, hframed, htallied, hknown⟩ := hkeeps
      have ht := d.step_transition phase u
      refine (ht.tallies hrole rfl hframed hknown htallied).reached fun m hm => ?_
      rw [ht.segments_length_eq]
      exact hknown m hm)
  cases progress with
  | running c =>
    obtain ⟨phase, -, hframed, -⟩ := hreached
    exact ⟨hframed, nofun⟩
  | done o =>
    refine ⟨hreached.1, ?_⟩
    rintro _ ⟨⟩
    exact hreached.2

end Detach

/-- Followers never alter the namespace, whatever the others do between two steps of theirs: every
step of a follower's allocation or release changes at most counts. All steps together raise both
counts of one segment by one if the allocation hands out a block, and at most the joined count of
one by one if it fails; those of a release lower the live count of the block's segment by one. -/
theorem follower_frame (config : SharingConfig) (hrole : 0 < config.rank) (device : Device)
    (account : Nat) :
    (∀ bytes s steps progress t,
      Course Site.Grows ((⟨.shared config, device, account⟩ : Resource).beginAllocate bytes s)
        steps (progress, t) →
      Framed steps ∧ ∀ o, progress = .done o → Attach.Accounted steps o) ∧
    ∀ block s steps progress t,
      (∀ m, s.mappingOf? block = some m → m.segment < s.kernel.segments.length) →
      Course (Site.GrowsAround block)
        ((⟨.shared config, device, account⟩ : Resource).beginRelease block s)
        steps (progress, t) →
      Framed steps ∧ ∀ o, progress = .done o →
        Detach.Accounted (s.mappingOf? block) steps o := by
  have hfollows : config.isLeader = false := by
    have hne : config.rank ≠ 0 := fun h => by simp [h] at hrole
    simpa [SharingConfig.isLeader] using hne
  refine ⟨?_, ?_⟩
  · intro bytes s steps progress t hcourse
    by_cases hzero : bytes = 0
    · subst hzero
      obtain ⟨rfl, heq⟩ := Course.eq_of_done hcourse
      cases heq
      refine ⟨framed_nil, ?_⟩
      rintro _ ⟨⟩
      exact ⟨rfl, rfl⟩
    · rw [Resource.beginAllocate, if_neg hzero] at hcourse
      exact Attach.accounted_of_course (a := ⟨config, device, account, bytes⟩) hfollows hcourse
  · intro block s steps progress t hknown hcourse
    exact Detach.accounted_of_course (d := ⟨config, device, account, block⟩) hfollows hknown hcourse

/-! ### A follower beside its leader -/

def joining : Resource :=
  ⟨.shared { (Machine.sample () id).config with rank := 1 }, .host .disabled, 0⟩

def joinedBlock : Block := ⟨(Memory.AddressSpace.firstPage + 4) * Page.size, 4096⟩

/-- Nobody else about, the follower joins its leader's segment and leaves it again. -/
theorem follower_frame_joining : ∃ steps later t u,
    Course Site.Grows (joining.beginAllocate 4096 publishedSite) steps
      (.done (.returned (.allocated (some joinedBlock))), t) ∧
    Framed steps ∧ Attach.Accounted steps (.returned (.allocated (some joinedBlock))) ∧
    Course (Site.GrowsAround joinedBlock) (joining.beginRelease joinedBlock t) later
      (.done (.returned .released), u) ∧
    Framed later ∧
      Detach.Accounted (t.mappingOf? joinedBlock) later (.returned .released) := by
  have hlater : ∀ (c : Call) (s : Site), s.GrowsAround joinedBlock (c.wakeUp s) := by
    intro c s
    obtain ⟨clock, heq, -⟩ := c.wakeUp_spec s
    rw [heq]
    exact ⟨Nat.le_refl _, rfl⟩
  obtain ⟨hallocates, hreleases⟩ := follower_frame
    { (Machine.sample () id).config with rank := 1 } (by decide) (.host .disabled) 0
  have hallocate : joining.allocate 4096 publishedSite =
      (.done (.returned (.allocated (some joinedBlock))), (joining.allocate 4096 publishedSite).2) :=
    Prod.ext (by decide +kernel) rfl
  have hrelease : joining.release joinedBlock (joining.allocate 4096 publishedSite).2 =
      (.done (.returned .released),
        (joining.release joinedBlock (joining.allocate 4096 publishedSite).2).2) :=
    Prod.ext (by decide +kernel) rfl
  have hknown : ∀ m, (joining.allocate 4096 publishedSite).2.mappingOf? joinedBlock = some m →
      m.segment < (joining.allocate 4096 publishedSite).2.kernel.segments.length := by
    decide +kernel
  have hcourse := joining.course_allocate (fun c s => (hlater c s).grows) 4096 publishedSite
  have hcourse' :=
    joining.course_release hlater joinedBlock (joining.allocate 4096 publishedSite).2
  rw [hallocate] at hcourse
  rw [hrelease] at hcourse'
  obtain ⟨hframed, haccounted⟩ := hallocates 4096 _ _ _ _ hcourse
  obtain ⟨hframed', haccounted'⟩ := hreleases joinedBlock _ _ _ _ hknown hcourse'
  exact ⟨_, _, _, _, hcourse, hframed, haccounted _ rfl, hcourse', hframed', haccounted' _ rfl⟩

end StagingMemory
