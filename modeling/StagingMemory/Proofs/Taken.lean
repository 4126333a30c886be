import StagingMemory.Proofs.Custody
import StagingMemory.Proofs.Recovery
/-!
Whether a name is taken. A process learns it in three ways: by looking, by opening what is bound,
and by creating what must not be. With a descriptor to be had, all three agree with the names, also
where the segment may not be opened; without one, a look finds every name taken. Main statement: a
look tells that a name is bound or that no descriptor can be had, so that after a creation it tells
of the name until the removal (`Site.told_exact`).
-/
namespace StagingMemory

namespace Site

variable {s : Site} {name : SegmentName}

/-! ### Looking, opening and creating -/

theorem exists?_of_exhausted (h : s.process.descriptorsExhausted = true) :
    s.exists? name = true := by
  unfold exists?
  rw [if_pos h]
  rfl

/-- What may not be opened exists as well. -/
theorem exists?_eq_contains (hregular : name.isDirectory = false)
    (h : s.process.descriptorsExhausted = false) :
    s.exists? name = s.kernel.names.contains name := by
  have hnever : ¬ name.isDirectory = true := Bool.not_eq_true _ ▸ hregular
  have havailable : ¬ s.process.descriptorsExhausted = true := Bool.not_eq_true _ ▸ h
  unfold exists? Kernel.probe Table.contains
  rw [if_neg havailable, if_neg hnever]
  cases s.kernel.names.get? name with
  | none => rfl
  | some id =>
    dsimp only
    cases s.kernel.grants id Kernel.ownerRead <;> rfl

theorem exists?_iff (hregular : name.isDirectory = false) :
    s.exists? name = true ↔
      s.kernel.names.contains name = true ∨ s.process.descriptorsExhausted = true := by
  cases h : s.process.descriptorsExhausted with
  | true => simp [exists?_of_exhausted h]
  | false => simp [exists?_eq_contains hregular h]

theorem createSegment_eq_alreadyExists_iff (hregular : name.isDirectory = false)
    (h : s.process.descriptorsExhausted = false) (mode : UInt32) :
    s.createSegment name mode = .error .alreadyExists ↔ s.kernel.names.contains name = true := by
  constructor
  · intro hrefused
    by_contra hfree
    exact createSegment_ne_alreadyExists hregular
      (Table.contains_eq_false_iff.mp (Bool.not_eq_true _ ▸ hfree)) mode hrefused
  · intro hbound
    simp [createSegment, Kernel.createSegment, h, hbound]

theorem openSegment_eq_notFound_iff (hregular : name.isDirectory = false)
    (h : s.process.descriptorsExhausted = false) :
    s.openSegment name = .error .notFound ↔ s.kernel.names.contains name = false := by
  constructor
  · intro hmissing
    exact Table.contains_eq_false_iff.mpr (unbound_of_openSegment hmissing)
  · intro hfree
    simp [openSegment, Kernel.openSegment, h, hregular, Table.contains_eq_false_iff.mp hfree]

end Site

/-! ### What becomes of the names -/

inductive NameEvent where
  | created (name : SegmentName)
  | removed (name : SegmentName)
  deriving DecidableEq

def Call.nameEvent? (c : Call) (s : Site) : Option NameEvent :=
  if c.unbinds then some (.removed c.config.segment)
  else match c.creates? (.after (c.step s).1) with
    | some _ => some (.created c.config.segment)
    | none => none

namespace Kernel

/-- One thing that happens to the kernel, from whatever process, and what is noted of it. -/
inductive Step : Kernel → Option NameEvent → Kernel → Prop
  | create {s t : Site} {name : SegmentName} {mode : UInt32} {id : SegmentId}
      (h : s.createSegment name mode = .ok (id, t)) :
      Step s.kernel (some (.created name)) t.kernel
  | unlink (s : Site) (name : SegmentName) :
      Step s.kernel (some (.removed name)) (s.unlink name).2.kernel
  | resize {s t : Site} {id : SegmentId} {length : Nat} (h : s.resizeSegment id length = .ok t) :
      Step s.kernel none t.kernel
  | header (s : Site) (m : Mapping) (f : Header → Header) :
      Step s.kernel none (s.modifyHeader m f).kernel
  | store (s : Site) (address : Nat) (bytes : Array UInt8) :
      Step s.kernel none (s.store address bytes).kernel
  | call (s : Site) (c : Call) : Step s.kernel (c.nameEvent? s) (c.step s).2.kernel
  | populate (k : Kernel) (alive : List UInt32) : Step k none { k with alive }
  | elapse (k : Kernel) (clock : Nat) : Step k none { k with clock }

inductive Run (k₀ : Kernel) : List NameEvent → Kernel → Prop
  | start : Run k₀ [] k₀
  | step {past : List NameEvent} {k next : Kernel} {event : Option NameEvent}
      (hrun : Run k₀ past k) (hstep : Step k event next) : Run k₀ (event.toList ++ past) next

/-- Whether a name is taken, by what was noted last of it. -/
def takenAfter (taken : Bool) (name : SegmentName) : List NameEvent → Bool
  | [] => taken
  | .created other :: past => other = name || takenAfter taken name past
  | .removed other :: past => other ≠ name && takenAfter taken name past

variable {k next : Kernel} {name other : SegmentName} {id : SegmentId} {taken : Bool}
  {past later : List NameEvent}

theorem contains_created (h : k.Created name id next) :
    next.names.contains other = (name = other || k.names.contains other) := by
  simp only [Table.contains, h.names_eq]
  by_cases hname : other = name
  · simp [hname]
  · simp [hname, Ne.symm hname]

theorem contains_unbind :
    (k.unbind name).names.contains other = (name ≠ other && k.names.contains other) := by
  simp only [Table.contains, get?_names_unbind]
  by_cases hname : other = name
  · simp [hname]
  · simp [hname, Ne.symm hname]

theorem contains_call (s : Site) (c : Call) (name : SegmentName) :
    (c.step s).2.kernel.names.contains name =
      takenAfter (s.kernel.names.contains name) name (c.nameEvent? s).toList := by
  unfold Call.nameEvent?
  cases hunbinds : c.unbinds with
  | true =>
    rw [Call.kernel_of_unbinds hunbinds]
    exact contains_unbind
  | false =>
    cases hcreates : c.creates? (.after (c.step s).1) with
    | some id =>
      obtain ⟨a, rfl, -, hcreated⟩ := Call.created_of_creates? hcreates
      exact contains_created hcreated
    | none =>
      cases c.names_step s with
      | keeps hsame => exact congrArg Option.isSome (hsame name)
      | binds hc hnext _ =>
        rw [hc] at hcreates hnext
        rw [hnext] at hcreates
        cases hcreates
      | unbinds hc _ => cases hunbinds.symm.trans hc

/-- One thing that happens does to the names what is noted of it. -/
theorem Step.contains_eq {event : Option NameEvent} (h : Step k event next) (name : SegmentName) :
    next.names.contains name = takenAfter (k.names.contains name) name event.toList := by
  cases h with
  | create h => exact contains_created (Site.created_of_createSegment h).1
  | unlink s name =>
    rw [Site.unlink_snd]
    exact contains_unbind
  | resize h =>
    rw [Site.of_resizeSegment h]
    rfl
  | store s address bytes =>
    unfold Site.store
    split <;> rfl
  | call s c => exact contains_call s c name
  | header | populate | elapse => rfl

theorem takenAfter_append :
    takenAfter taken name (later ++ past) = takenAfter (takenAfter taken name past) name later := by
  induction later with
  | nil => rfl
  | cons event later ih => cases event <;> simp [takenAfter, ih]

theorem Run.contains_eq {k₀ : Kernel} (hrun : Run k₀ past k) (name : SegmentName) :
    k.names.contains name = takenAfter (k₀.names.contains name) name past := by
  induction hrun with
  | start => rfl
  | step _ hstep ih => rw [hstep.contains_eq, ih, ← takenAfter_append]

theorem takenAfter_of_not_removed (h : .removed name ∉ later) : takenAfter true name later = true := by
  induction later with
  | nil => rfl
  | cons event later ih =>
    have hbefore := ih fun hmem => h (List.mem_cons_of_mem _ hmem)
    cases event with
    | created other => simp [takenAfter, hbefore]
    | removed other =>
      have hother : other ≠ name := by
        rintro rfl
        exact h List.mem_cons_self
      simp [takenAfter, hbefore, hother]

theorem takenAfter_of_not_created (h : .created name ∉ later) :
    takenAfter false name later = false := by
  induction later with
  | nil => rfl
  | cons event later ih =>
    have hbefore := ih fun hmem => h (List.mem_cons_of_mem _ hmem)
    cases event with
    | created other =>
      have hother : other ≠ name := by
        rintro rfl
        exact h List.mem_cons_self
      simp [takenAfter, hbefore, hother]
    | removed other => simp [takenAfter, hbefore]

end Kernel

namespace Site

/-- What a process is told of a name after a run of whatever processes. -/
structure Told (past : List NameEvent) (s : Site) (name : SegmentName) : Prop where
  exists_iff : s.exists? name = true ↔
    s.kernel.names.contains name = true ∨ s.process.descriptorsExhausted = true
  /-- A name that was created is taken until it is removed. -/
  created : ∀ later earlier, past = later ++ .created name :: earlier → .removed name ∉ later →
    s.exists? name = true
  /-- A name that was removed is free until it is created, which is seen if a descriptor can be had.
  -/
  removed : ∀ later earlier, past = later ++ .removed name :: earlier → .created name ∉ later →
    s.kernel.names.contains name = false ∧
      (s.exists? name = true ↔ s.process.descriptorsExhausted = true)
  create_iff : s.process.descriptorsExhausted = false → ∀ mode,
    (s.createSegment name mode = .error .alreadyExists ↔ s.exists? name = true)
  open_iff : s.process.descriptorsExhausted = false →
    (s.openSegment name = .error .notFound ↔ s.exists? name = false)

theorem told_exact {k₀ : Kernel} {past : List NameEvent} {s : Site} {name : SegmentName}
    (hrun : Kernel.Run k₀ past s.kernel) (hregular : name.isDirectory = false) :
    Told past s name where
  exists_iff := exists?_iff hregular
  created later earlier hpast hkept := by
    rw [exists?_iff hregular, hrun.contains_eq, hpast, Kernel.takenAfter_append]
    left
    simpa [Kernel.takenAfter] using Kernel.takenAfter_of_not_removed hkept
  removed later earlier hpast hfree := by
    have hgone : s.kernel.names.contains name = false := by
      rw [hrun.contains_eq, hpast, Kernel.takenAfter_append]
      simpa [Kernel.takenAfter] using Kernel.takenAfter_of_not_created hfree
    exact ⟨hgone, by simp [exists?_iff hregular, hgone]⟩
  create_iff havailable mode := by
    rw [createSegment_eq_alreadyExists_iff hregular havailable,
      exists?_eq_contains hregular havailable]
  open_iff havailable := by
    rw [openSegment_eq_notFound_iff hregular havailable, exists?_eq_contains hregular havailable]

/-! ### Looking without a descriptor, and at what may not be opened -/

def sampleName : SegmentName := ⟨"/group", rfl⟩

def bare (descriptorsExhausted : Bool) : Site :=
  ⟨.initial [1] 0, { Process.fresh 1 with descriptorsExhausted }⟩

def locked : Site :=
  match (bare false).createSegment sampleName 0 with
  | .ok (_, s) => s
  | .error _ => bare false

theorem told_exact_locked : Kernel.Run (bare false).kernel [.created sampleName] locked.kernel ∧
    sampleName.isDirectory = false ∧
    locked.openSegment sampleName = .error .permissionDenied ∧
    Told [.created sampleName] locked sampleName :=
  have hcreate : (bare false).createSegment sampleName 0 = .ok (0, locked) := by decide +kernel
  have hrun : Kernel.Run (bare false).kernel [.created sampleName] locked.kernel :=
    .step .start (.create hcreate)
  have hregular : sampleName.isDirectory = false := by decide +kernel
  ⟨hrun, hregular, by decide +kernel, told_exact hrun hregular⟩

/-- Without a descriptor to be had, a name that is not bound seems taken. -/
theorem exhausted_finds_taken : sampleName.isDirectory = false ∧
    (bare true).kernel.names.contains sampleName = false ∧
    (bare true).exists? sampleName = true := by
  decide +kernel

end Site
end StagingMemory
