/-!
Finite tables from keys to values. Inserting a key replaces what was there; looking up, inserting
and erasing obey `get?_insert` and `get?_erase`.
-/
namespace StagingMemory

structure Table (κ : Type u) (ν : Type v) where
  entries : List (κ × ν)
  deriving DecidableEq, Repr

namespace Table

variable {κ : Type u} {ν : Type v} [DecidableEq κ]

def empty : Table κ ν := ⟨[]⟩

instance : Inhabited (Table κ ν) := ⟨empty⟩

def get? (t : Table κ ν) (k : κ) : Option ν :=
  (t.entries.find? fun e => e.1 = k).map Prod.snd

def erase (t : Table κ ν) (k : κ) : Table κ ν :=
  ⟨t.entries.filter fun e => e.1 ≠ k⟩

def insert (t : Table κ ν) (k : κ) (v : ν) : Table κ ν :=
  ⟨(k, v) :: (t.erase k).entries⟩

def contains (t : Table κ ν) (k : κ) : Bool := (t.get? k).isSome

def size (t : Table κ ν) : Nat := t.entries.length

@[simp] theorem get?_empty (k : κ) : (empty : Table κ ν).get? k = none := rfl

theorem get?_erase (t : Table κ ν) (k j : κ) :
    (t.erase k).get? j = if j = k then none else t.get? j := by
  simp only [get?, erase]
  rw [List.find?_filter]
  by_cases hj : j = k
  · subst hj
    simp
  · have htest : ∀ e : κ × ν, (e.1 ≠ k ∧ e.1 = j) ↔ e.1 = j := by
      intro e
      constructor
      · exact And.right
      · intro he
        exact ⟨fun hk => hj (he.symm.trans hk), he⟩
    simp [htest, hj]

theorem get?_erase_of_ne (t : Table κ ν) {k j : κ} (h : j ≠ k) :
    (t.erase k).get? j = t.get? j := by
  simp [get?_erase, h]

theorem get?_eq_none_iff {t : Table κ ν} {k : κ} : t.get? k = none ↔ ∀ e ∈ t.entries, e.1 ≠ k := by
  simp [get?, List.find?_eq_none]

theorem erase_of_get?_eq_none {t : Table κ ν} {k : κ} (h : t.get? k = none) : t.erase k = t := by
  have hall : t.entries.filter (fun e => e.1 ≠ k) = t.entries := by
    refine List.filter_eq_self.mpr fun e he => ?_
    simpa using get?_eq_none_iff.mp h e he
  simp only [erase, hall]

theorem contains_eq_false_iff {t : Table κ ν} {k : κ} : t.contains k = false ↔ t.get? k = none := by
  simp [contains]

theorem get?_insert (t : Table κ ν) (k j : κ) (v : ν) :
    (t.insert k v).get? j = if j = k then some v else t.get? j := by
  by_cases hj : j = k
  · subst hj
    simp [insert, get?]
  · have hkj : ¬ k = j := fun h => hj h.symm
    have h := get?_erase_of_ne t (j := j) (k := k) hj
    simp only [get?, insert, List.find?_cons, hkj, hj, decide_false, if_false] at h ⊢
    exact h

end Table
end StagingMemory
