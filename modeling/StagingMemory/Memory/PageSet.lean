/-!
Sets of pages, kept as spans of consecutive pages that do not overlap. Main statements: what is in
a span without another (`mem_minus_iff`), and in a set after a span was added to or taken from it
(`mem_insert`, `mem_remove`).
-/
namespace StagingMemory.Memory

/-- The pages from `start` up to but not including `stop`. -/
structure Span where
  start : Nat
  stop : Nat
  deriving DecidableEq, Repr

namespace Span

instance : Membership Nat Span := ⟨fun s p => s.start ≤ p ∧ p < s.stop⟩

theorem mem_def {p : Nat} {s : Span} : p ∈ s ↔ s.start ≤ p ∧ p < s.stop := Iff.rfl

instance (p : Nat) (s : Span) : Decidable (p ∈ s) :=
  inferInstanceAs (Decidable (s.start ≤ p ∧ p < s.stop))

def size (s : Span) : Nat := s.stop - s.start

def isEmpty (s : Span) : Bool := s.stop ≤ s.start

/-- The pages of `a` that are not in `b`: those before it and those behind it. -/
def minus (a b : Span) : List Span :=
  [⟨a.start, min a.stop b.start⟩, ⟨max a.start b.stop, a.stop⟩].filter (!·.isEmpty)

theorem stop_le_of_mem_minus {a b s : Span} (h : s ∈ a.minus b) : s.stop ≤ a.stop := by
  simp only [minus, List.mem_filter, List.mem_cons, List.not_mem_nil, or_false] at h
  rcases h.1 with rfl | rfl
  · exact Nat.min_le_left _ _
  · exact Nat.le_refl _

theorem isEmpty_of_mem_minus {a b s : Span} (h : s ∈ a.minus b) : s.isEmpty = false := by
  simpa using (List.mem_filter.mp h).2

theorem mem_minus_iff (a b : Span) (p : Nat) :
    (∃ s ∈ a.minus b, p ∈ s) ↔ p ∈ a ∧ p ∉ b := by
  simp only [minus, List.mem_filter, List.mem_cons, List.not_mem_nil, or_false, isEmpty, mem_def]
  constructor
  · rintro ⟨s, ⟨rfl | rfl, _⟩, h⟩
    · simp only at h
      omega
    · simp only at h
      omega
  · intro h
    by_cases hlow : p < b.start
    · refine ⟨⟨a.start, min a.stop b.start⟩, ⟨Or.inl rfl, ?_⟩, ?_⟩
      · simp only [Bool.not_eq_true', decide_eq_false_iff_not]
        omega
      · simp only
        omega
    · refine ⟨⟨max a.start b.stop, a.stop⟩, ⟨Or.inr rfl, ?_⟩, ?_⟩
      · simp only [Bool.not_eq_true', decide_eq_false_iff_not]
        omega
      · simp only
        omega

end Span

structure PageSet where
  spans : List Span
  deriving DecidableEq, Repr

namespace PageSet

def empty : PageSet := ⟨[]⟩

instance : Inhabited PageSet := ⟨empty⟩

instance : Membership Nat PageSet := ⟨fun set p => ∃ s ∈ set.spans, p ∈ s⟩

theorem mem_def {p : Nat} {set : PageSet} : p ∈ set ↔ ∃ s ∈ set.spans, p ∈ s := Iff.rfl

instance (p : Nat) (set : PageSet) : Decidable (p ∈ set) :=
  inferInstanceAs (Decidable (∃ s ∈ set.spans, p ∈ s))

def remove (set : PageSet) (span : Span) : PageSet :=
  ⟨set.spans.flatMap (·.minus span)⟩

def insert (set : PageSet) (span : Span) : PageSet :=
  ⟨span :: (set.remove span).spans⟩

def count (set : PageSet) : Nat := set.spans.foldl (fun n s => n + s.size) 0

def covers (set : PageSet) (span : Span) : Bool :=
  (set.spans.foldl (fun rest s => rest.remove s) (⟨[span].filter (!·.isEmpty)⟩ : PageSet)).spans.isEmpty

theorem not_mem_empty (p : Nat) : p ∉ empty := by
  simp [mem_def, empty]

theorem mem_remove (set : PageSet) (span : Span) (p : Nat) :
    p ∈ set.remove span ↔ p ∈ set ∧ p ∉ span := by
  simp only [mem_def, remove, List.mem_flatMap]
  constructor
  · rintro ⟨s, ⟨a, ha, hs⟩, hp⟩
    have hmem := (Span.mem_minus_iff a span p).1 ⟨s, hs, hp⟩
    exact ⟨⟨a, ha, hmem.1⟩, hmem.2⟩
  · rintro ⟨⟨a, ha, hp⟩, hn⟩
    obtain ⟨s, hs, hps⟩ := (Span.mem_minus_iff a span p).2 ⟨hp, hn⟩
    exact ⟨s, ⟨a, ha, hs⟩, hps⟩

theorem mem_insert (set : PageSet) (span : Span) (p : Nat) :
    p ∈ set.insert span ↔ p ∈ span ∨ p ∈ set := by
  have hr := mem_remove set span p
  simp only [mem_def] at hr
  by_cases hp : p ∈ span
  · simp [mem_def, insert, hp]
  · simp only [mem_def, insert, List.mem_cons, exists_eq_or_imp, hr, hp, not_false_iff, and_true,
      false_or]

theorem mem_foldl_remove (spans : List Span) (set : PageSet) (p : Nat) :
    p ∈ spans.foldl (fun rest s => rest.remove s) set ↔ p ∈ set ∧ ∀ s ∈ spans, p ∉ s := by
  induction spans generalizing set with
  | nil => simp
  | cons s rest ih =>
    rw [List.foldl_cons, ih, mem_remove]
    simp only [List.mem_cons, forall_eq_or_imp]
    exact and_assoc

theorem mem_of_covers {set : PageSet} {span : Span} (h : set.covers span = true) {p : Nat}
    (hp : p ∈ span) : p ∈ set := by
  have hlow := (Span.mem_def.mp hp).1
  have hhigh := (Span.mem_def.mp hp).2
  have hempty : span.isEmpty = false := by
    simp only [Span.isEmpty, decide_eq_false_iff_not]
    omega
  have hnone := List.isEmpty_iff.mp h
  refine Decidable.byContradiction fun hn => ?_
  have hrest : p ∈ set.spans.foldl (fun rest s => rest.remove s)
      (⟨[span].filter (!·.isEmpty)⟩ : PageSet) := by
    refine (mem_foldl_remove _ _ _).mpr ⟨?_, fun s hs hps => hn ⟨s, hs, hps⟩⟩
    simp [mem_def, hempty, hp]
  rw [mem_def, hnone] at hrest
  simp at hrest

theorem isEmpty_of_mem_foldl_remove {spans : List Span} {set : PageSet}
    (h : ∀ s ∈ set.spans, s.isEmpty = false) :
    ∀ s ∈ (spans.foldl (fun rest s => rest.remove s) set).spans, s.isEmpty = false := by
  induction spans generalizing set with
  | nil => exact h
  | cons t rest ih =>
    refine ih fun s hs => ?_
    obtain ⟨r, -, hr⟩ := List.mem_flatMap.mp hs
    exact Span.isEmpty_of_mem_minus hr

theorem covers_of_forall_mem {set : PageSet} {span : Span} (h : ∀ p ∈ span, p ∈ set) :
    set.covers span = true := by
  rw [covers, List.isEmpty_iff, List.eq_nil_iff_forall_not_mem]
  intro s hs
  -- what is left of the span is a span with a page in it, and that page is in the set
  have hfull : s.isEmpty = false := by
    refine isEmpty_of_mem_foldl_remove (fun r hr => ?_) s hs
    simpa using (List.mem_filter.mp hr).2
  have hstart : s.start ∈ s := by
    simpa [Span.isEmpty, Span.mem_def] using hfull
  obtain ⟨⟨r, hr, hp⟩, hout⟩ := (mem_foldl_remove _ _ _).mp ⟨s, hs, hstart⟩
  obtain rfl : r = span := by simpa using (List.mem_filter.mp hr).1
  obtain ⟨t, ht, hpt⟩ := h _ hp
  exact hout t ht hpt

end PageSet
end StagingMemory.Memory
