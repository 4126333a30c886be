import StagingMemory.Memory.Contents
import StagingMemory.Memory.PageSet
import StagingMemory.Page
import StagingMemory.SystemError
/-!
The address space of one process: which pages are mapped to what, and which are locked. A mapping
needs room in one of the two stretches around the program. Locking is limited in whole pages, each
counted once, and unmapping unlocks. Addresses are never used again, only their room is; they lie
beyond the words that a request can hold, because only the system says where a mapping is.
-/
namespace StagingMemory.Memory

/-- What stands behind mapped pages: a shared segment by its number, or memory of the process's own
by its number. -/
inductive Backing where
  | segment (id : Nat)
  | own (id : Nat)
  deriving DecidableEq, Repr

/-- Where mappings lie: above the program, or below it. -/
inductive Stretch where
  | upper
  | lower
  deriving DecidableEq, Repr

/-- How many pages fit the stretch: the program lies at two thirds of the address space, and the
stack and the variation of both take a part of what is above it. -/
def Stretch.pages : Stretch → Nat
  | upper => 0x290000000
  | lower => 0x555555554

/-- Consecutive mapped pages. The backing's first byte lies, or would lie, at page `origin`. -/
structure Region where
  span : Span
  origin : Nat
  stretch : Stretch
  backing : Backing
  deriving DecidableEq, Repr

structure AddressSpace where
  regions : List Region
  /-- The process's own memory, by number. -/
  memories : List Contents
  locked : PageSet
  /-- How many bytes may be locked. -/
  lockLimit : Nat
  /-- The first page that was never mapped. -/
  nextPage : Nat
  regions_below : ∀ r ∈ regions, r.span.stop ≤ nextPage
  locked_below : ∀ page ∈ locked, page < nextPage
  deriving DecidableEq, Repr

namespace AddressSpace

def lengthLimit : Nat := 0x800000000000

/-- An address that a request writes out is a word, so its page is below this one. -/
def wordPages : Nat := 0x10000000000000

/-- A range that a request writes out lies in the address space if it ends here or before. -/
def addressLimit : Nat := 0x7ffffffff000

/-- Mappings begin at this page: high in the address space, counted from the end of the words, so
that no request can write out the address of a mapping. -/
def firstPage : Nat := 0x100007e0000000

def defaultLockLimit : Nat := 65536

def fresh : AddressSpace where
  regions := []
  memories := []
  locked := .empty
  lockLimit := defaultLockLimit
  nextPage := firstPage
  regions_below := by simp
  locked_below page h := absurd h (PageSet.not_mem_empty page)

instance : Inhabited AddressSpace := ⟨fresh⟩

def pagesFor (length : Nat) : Nat := (length + Page.size - 1) / Page.size

def occupied (a : AddressSpace) (stretch : Stretch) : Nat :=
  a.regions.foldl (fun n r => if r.stretch = stretch then n + r.span.size else n) 0

/-- The stretch that takes the next mapping of so many pages: the upper one while it has room. -/
def stretchFor? (a : AddressSpace) (pages : Nat) : Option Stretch :=
  [Stretch.upper, .lower].find? fun stretch => a.occupied stretch + pages ≤ stretch.pages

/-- Maps fresh pages for `length` bytes, and one page as a gap behind them, if there is room. -/
def place? (a : AddressSpace) (length : Nat) (backing : Backing) : Option (Nat × AddressSpace) :=
  (a.stretchFor? (pagesFor length)).map fun stretch =>
    let stop := a.nextPage + pagesFor length
    (a.nextPage * Page.size,
      { a with
        regions := ⟨⟨a.nextPage, stop⟩, a.nextPage, stretch, backing⟩ :: a.regions
        nextPage := stop + 1
        regions_below := by
          intro r hr
          rcases List.mem_cons.mp hr with rfl | hr
          · exact Nat.le_succ stop
          · have hold := a.regions_below r hr
            omega
        locked_below := by
          intro page hp
          have hold := a.locked_below page hp
          omega })

def map (a : AddressSpace) (length : Nat) (backing : Backing) :
    Except SystemError (Nat × AddressSpace) :=
  if length = 0 then .error .invalidArgument
  else match a.place? length backing with
  | some mapped => .ok mapped
  | none => .error .outOfMemory

def mapSegment (a : AddressSpace) (id length : Nat) : Except SystemError (Nat × AddressSpace) :=
  a.map length (.segment id)

/-- The address space with one more memory of the process's own, all zero and not yet mapped, and
the backing it makes. -/
def withMemory (a : AddressSpace) : Backing × AddressSpace :=
  (.own a.memories.length, { a with memories := a.memories ++ [Contents.zeros] })

def mapOwn (a : AddressSpace) (length : Nat) : Except SystemError (Nat × AddressSpace) :=
  let (backing, a) := a.withMemory
  a.map length backing

/-- Fresh memory of the process's own for a block that may be empty, if there is room. -/
def grow? (a : AddressSpace) (length : Nat) : Option (Nat × AddressSpace) :=
  let (backing, a) := a.withMemory
  a.place? length backing

def Region.outside (r : Region) (span : Span) : List Region :=
  (r.span.minus span).map fun s => { r with span := s }

def drop (a : AddressSpace) (span : Span) : AddressSpace :=
  { a with
    regions := a.regions.flatMap fun r => Region.outside r span
    locked := a.locked.remove span
    regions_below := by
      intro r hr
      obtain ⟨r', hr', hpart⟩ := List.mem_flatMap.mp hr
      obtain ⟨s, hs, rfl⟩ := List.mem_map.mp hpart
      exact Nat.le_trans (Span.stop_le_of_mem_minus hs) (a.regions_below r' hr')
    locked_below := by
      intro page hp
      exact a.locked_below page ((PageSet.mem_remove _ _ _).mp hp).1 }

def mappingSpan (address length : Nat) : Span :=
  ⟨address / Page.size, address / Page.size + pagesFor length⟩

def release (a : AddressSpace) (address length : Nat) : AddressSpace :=
  a.drop (mappingSpan address length)

def admits (address length : Nat) : Bool :=
  length < lengthLimit && (wordPages ≤ address / Page.size || address + length ≤ addressLimit)

/-- Unmaps `length` bytes from an address on. Nothing need be mapped there. -/
def unmap (a : AddressSpace) (address length : Nat) : Except SystemError AddressSpace :=
  if address % Page.size ≠ 0 ∨ length = 0 ∨ !admits address length then .error .invalidArgument
  else .ok (a.release address length)

/-- The pages touched by a range of bytes. Requests are made in words, so the number of pages
wraps. -/
def touched (address length : Nat) : Span :=
  let first := address / Page.size
  ⟨first, first + pagesFor (address % Page.size + length) % wordPages⟩

/-- The end of the pages, as a word, lies before their start. -/
def wraps (span : Span) : Bool := span.start / wordPages != span.stop / wordPages

def mapped (a : AddressSpace) : PageSet := ⟨a.regions.map Region.span⟩

theorem mapped_below (a : AddressSpace) : ∀ page ∈ a.mapped, page < a.nextPage := by
  rintro page ⟨s, hs, hp⟩
  obtain ⟨r, hr, rfl⟩ := List.mem_map.mp hs
  have hstop := a.regions_below r hr
  have hlt := (Span.mem_def.mp hp).2
  omega

/-- Locks the pages of a range, all or none. -/
def lock (a : AddressSpace) (address length : Nat) : Except SystemError AddressSpace :=
  let span := touched address length
  if a.lockLimit = 0 then .error .notPermitted
  else if a.lockLimit / Page.size < (a.locked.insert span).count then .error .outOfMemory
  else if wraps span then .error .invalidArgument
  else if h : a.mapped.covers span then
    .ok { a with
      locked := a.locked.insert span
      locked_below := by
        intro page hp
        rcases (PageSet.mem_insert _ _ _).mp hp with hs | hold
        · exact a.mapped_below page (PageSet.mem_of_covers h hs)
        · exact a.locked_below page hold }
  else .error .outOfMemory

def unlock (a : AddressSpace) (address length : Nat) : Except SystemError AddressSpace :=
  let span := touched address length
  if wraps span then .error .invalidArgument
  else if a.mapped.covers span then
    .ok { a with
      locked := a.locked.remove span
      locked_below := by
        intro page hp
        exact a.locked_below page ((PageSet.mem_remove _ _ _).mp hp).1 }
  else .error .outOfMemory

def region? (a : AddressSpace) (address : Nat) : Option Region :=
  a.regions.find? fun r => address / Page.size ∈ r.span

def segmentAt? (a : AddressSpace) (address : Nat) : Option Nat :=
  match a.region? address with
  | some ⟨_, _, _, .segment id⟩ => some id
  | _ => none

def resolve? (a : AddressSpace) (address : Nat) : Option (Backing × Nat) :=
  (a.region? address).map fun r => (r.backing, address - r.origin * Page.size)

def memory (a : AddressSpace) (id : Nat) : Contents := a.memories[id]?.getD .zeros

def modifyMemory (a : AddressSpace) (id : Nat) (f : Contents → Contents) : AddressSpace :=
  { a with memories := a.memories.modify id f }

/-! ### Pages -/

/-- What a page is mapped to: a backing, and the page at which the backing's first byte lies. -/
def page? (a : AddressSpace) (page : Nat) : Option (Backing × Nat) :=
  (a.regions.find? fun r => page ∈ r.span).map fun r => (r.backing, r.origin)

theorem segmentAt?_eq_some_iff {a : AddressSpace} {address id : Nat} :
    a.segmentAt? address = some id ↔
      ∃ origin, a.page? (address / Page.size) = some (.segment id, origin) := by
  unfold segmentAt? region? page?
  cases h : a.regions.find? fun r => address / Page.size ∈ r.span with
  | none => simp
  | some r =>
    obtain ⟨span, origin, stretch, backing⟩ := r
    cases backing <;> simp

theorem mem_mapped_of_page?_eq_some {a : AddressSpace} {page : Nat} {content : Backing × Nat}
    (h : a.page? page = some content) : page ∈ a.mapped := by
  obtain ⟨r, hr, -⟩ := Option.map_eq_some_iff.mp h
  have hp := List.find?_some hr
  exact ⟨r.span, List.mem_map_of_mem (List.mem_of_find?_eq_some hr), of_decide_eq_true hp⟩

/-- Pages that were never mapped are not mapped. -/
theorem page?_eq_none_of_le {a : AddressSpace} {page : Nat} (h : a.nextPage ≤ page) :
    a.page? page = none := by
  simp only [page?, Option.map_eq_none_iff, List.find?_eq_none, decide_eq_true_eq]
  intro r hr hp
  have hstop := a.regions_below r hr
  have hlt := (Span.mem_def.mp hp).2
  omega

theorem find?_outside (r : Region) (span : Span) (page : Nat) :
    ((Region.outside r span).find? fun part => page ∈ part.span).map
        (fun part => (part.backing, part.origin)) =
      if page ∈ r.span ∧ page ∉ span then some (r.backing, r.origin) else none := by
  have hmem := Span.mem_minus_iff r.span span page
  split
  case isTrue h =>
    obtain ⟨s, hs, hp⟩ := hmem.mpr h
    cases hfind : (Region.outside r span).find? fun part => page ∈ part.span with
    | none =>
      have hno := List.find?_eq_none.mp hfind { r with span := s } (List.mem_map.mpr ⟨s, hs, rfl⟩)
      simp [hp] at hno
    | some part =>
      obtain ⟨t, _, rfl⟩ := List.mem_map.mp (List.mem_of_find?_eq_some hfind)
      rfl
  case isFalse h =>
    rw [Option.map_eq_none_iff, List.find?_eq_none]
    intro part hpart hp
    obtain ⟨t, ht, rfl⟩ := List.mem_map.mp hpart
    exact h (hmem.mp ⟨t, ht, of_decide_eq_true hp⟩)

theorem page?_drop (a : AddressSpace) (span : Span) (page : Nat) :
    (a.drop span).page? page = if page ∈ span then none else a.page? page := by
  simp only [page?, drop]
  induction a.regions with
  | nil => simp
  | cons r rest ih =>
    rw [List.flatMap_cons, List.find?_append, Option.map_or, ih, find?_outside, List.find?_cons]
    by_cases hspan : page ∈ span
    · simp [hspan]
    · by_cases hr : page ∈ r.span <;> simp [hspan, hr]

theorem mem_locked_release (a : AddressSpace) (address length page : Nat) :
    page ∈ (a.release address length).locked ↔
      page ∈ a.locked ∧ page ∉ mappingSpan address length :=
  PageSet.mem_remove a.locked _ page

theorem page?_release (a : AddressSpace) (address length page : Nat) :
    (a.release address length).page? page =
      if page ∈ mappingSpan address length then none else a.page? page :=
  page?_drop a _ page

/-- What mapping changes: the pages of the mapping, which begin where nothing was ever mapped. -/
structure Mapped (a : AddressSpace) (length : Nat) (backing : Backing) (base : Nat)
    (mapped : AddressSpace) : Prop where
  length_pos : 0 < length
  base_eq : base = a.nextPage * Page.size
  nextPage_eq : mapped.nextPage = a.nextPage + pagesFor length + 1
  locked_eq : mapped.locked = a.locked
  lockLimit_eq : mapped.lockLimit = a.lockLimit
  page?_eq : ∀ page, mapped.page? page =
    if page ∈ mappingSpan base length then some (backing, a.nextPage) else a.page? page

theorem mappingSpan_page (page length : Nat) :
    mappingSpan (page * Page.size) length = ⟨page, page + pagesFor length⟩ := by
  have hdiv : page * Page.size / Page.size = page := Nat.mul_div_cancel page (by decide)
  simp [mappingSpan, hdiv]

theorem mapped_of_map_eq_ok {a mapped : AddressSpace} {length base : Nat} {backing : Backing}
    (h : a.map length backing = .ok (base, mapped)) : a.Mapped length backing base mapped := by
  unfold map place? at h
  split at h
  · cases h
  · cases hs : a.stretchFor? (pagesFor length) with
    | none => simp [hs] at h
    | some stretch =>
      simp only [hs, Option.map_some] at h
      cases h
      refine ⟨by omega, rfl, rfl, rfl, rfl, fun page => ?_⟩
      rw [mappingSpan_page]
      by_cases hp : page ∈ (⟨a.nextPage, a.nextPage + pagesFor length⟩ : Span) <;>
        simp [page?, hp]

namespace Mapped

variable {a mapped : AddressSpace} {length base : Nat} {backing : Backing}

theorem le_of_mem (h : a.Mapped length backing base mapped) {page : Nat}
    (hp : page ∈ mappingSpan base length) : a.nextPage ≤ page := by
  rw [h.base_eq, mappingSpan_page] at hp
  exact hp.1

theorem lt_of_mem (h : a.Mapped length backing base mapped) {page : Nat}
    (hp : page ∈ mappingSpan base length) : page < mapped.nextPage := by
  rw [h.base_eq, mappingSpan_page] at hp
  have hstop := hp.2
  simp only at hstop
  rw [h.nextPage_eq]
  omega

/-- Unmapping again leaves every page as it was. -/
theorem page?_release (h : a.Mapped length backing base mapped) (page : Nat) :
    (mapped.release base length).page? page = a.page? page := by
  rw [AddressSpace.page?_release, h.page?_eq]
  split
  case isTrue hp => exact (page?_eq_none_of_le (h.le_of_mem hp)).symm
  case isFalse => rfl

theorem mem_locked_release (h : a.Mapped length backing base mapped) (page : Nat) :
    page ∈ (mapped.release base length).locked ↔ page ∈ a.locked := by
  rw [AddressSpace.mem_locked_release, h.locked_eq]
  refine ⟨And.left, fun hp => ⟨hp, fun hs => ?_⟩⟩
  have hlt := a.locked_below page hp
  have hle := h.le_of_mem hs
  omega

end Mapped

end AddressSpace
end StagingMemory.Memory
