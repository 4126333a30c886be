import Mathlib.Data.List.Basic
import StagingMemory.Proofs.Effects
/-!
Guards of the strict mode that overlap. A guard remembers the mode that it found, and brings that
one back when it ends, whoever has set the mode since. Where every guard ends as the latest alive,
the mode is the one that the latest guard alive asks for, and without any the one from before them
all. A guard that ends earlier takes the mode from a later one, which in turn brings back a mode that
no guard asks for any more. Main statement: the guards are honoured, whatever modes they set,
exactly where they end in the reverse of the order in which they were made
(`StrictGuard.honoured_exact`).
-/
namespace StagingMemory.StrictGuard

/-! ### Guards made and ended -/

/-- What is done with guards, which are numbered in the order in which they are made. -/
inductive Event where
  | made
  | ended (i : ℕ)
  /-- The mode is read in passing. -/
  | read
  deriving DecidableEq

def count : List Event → ℕ
  | [] => 0
  | .made :: past => count past + 1
  | _ :: past => count past

def alive : List Event → List ℕ
  | [] => []
  | .made :: past => count past :: alive past
  | .ended i :: past => (alive past).erase i
  | .read :: past => alive past

/-- A guard ends while it is alive. -/
def Proper : List Event → Prop
  | [] => True
  | .ended i :: past => i ∈ alive past ∧ Proper past
  | _ :: past => Proper past

/-- A guard ends as the latest of those alive. -/
def Nested : List Event → Prop
  | [] => True
  | .ended i :: past => (alive past).head? = some i ∧ Nested past
  | _ :: past => Nested past

theorem count_pos_of_suffix {past earlier : List Event} (h : .made :: earlier <:+ past) :
    count earlier < count past := by
  induction past with
  | nil => simp at h
  | cons event past ih =>
    rcases List.suffix_cons_iff.mp h with heq | hsuffix
    · cases heq
      exact Nat.lt_succ_self _
    · have hlt := ih hsuffix
      cases event with
      | made => exact Nat.lt_succ_of_lt hlt
      | ended _ | read => exact hlt

theorem lt_count_of_mem_alive {past : List Event} {i : ℕ} (h : i ∈ alive past) : i < count past := by
  induction past with
  | nil => cases h
  | cons event past ih =>
    cases event with
    | made =>
      rcases List.mem_cons.mp h with rfl | hold
      · exact Nat.lt_succ_self _
      · exact Nat.lt_succ_of_lt (ih hold)
    | ended j => exact ih (List.mem_of_mem_erase h)
    | read => exact ih h

theorem nodup_alive (past : List Event) : (alive past).Nodup := by
  induction past with
  | nil => exact List.nodup_nil
  | cons event past ih =>
    cases event with
    | made => exact List.nodup_cons.mpr ⟨fun h => Nat.lt_irrefl _ (lt_count_of_mem_alive h), ih⟩
    | ended j => exact ih.erase j
    | read => exact ih

/-! ### The mode in force -/

structure Scene where
  cell : StrictCell
  guards : List StrictGuard

variable (value : Option String) (modes : ℕ → StrictMode) (start : StrictCell)

def scene : List Event → Scene
  | [] => ⟨start, []⟩
  | .made :: past =>
    let before := scene past
    let (guard, cell) := enter before.cell value (modes (count past))
    ⟨cell, before.guards ++ [guard]⟩
  | .ended i :: past =>
    let before := scene past
    match before.guards[i]? with
    | some guard => { before with cell := guard.leave before.cell }
    | none => before
  | .read :: past =>
    let before := scene past
    { before with cell := (before.cell.read value).2 }

def inForce (past : List Event) : StrictMode := ((scene value modes start past).cell.read value).1

/-- The mode that the latest of these guards asks for, and without one the mode at the start. -/
def asked (guards : List ℕ) : StrictMode := (guards.head?.map modes).getD (start.read value).1

def Honoured (past : List Event) : Prop :=
  inForce value modes start past = asked value modes start (alive past)

theorem length_guards (past : List Event) :
    (scene value modes start past).guards.length = count past := by
  induction past with
  | nil => rfl
  | cons event past ih =>
    cases event with
    | made => simp [scene, count, ih]
    | ended i =>
      simp only [scene, count]
      split <;> exact ih
    | read => exact ih

variable {value : Option String} {modes : ℕ → StrictMode} {start : StrictCell} {past : List Event}

theorem read_set (cell : StrictCell) (mode : StrictMode) :
    ((cell.set mode).read value).1 = mode := by
  simp [StrictCell.read]

theorem inForce_made : inForce value modes start (.made :: past) = modes (count past) := by
  simp [inForce, scene, enter, read_set]

theorem inForce_read : inForce value modes start (.read :: past) = inForce value modes start past :=
  StrictCell.read_read _ value

theorem inForce_ended {i : ℕ} {mode : StrictMode}
    (h : (scene value modes start past).guards[i]? = some ⟨mode⟩) :
    inForce value modes start (.ended i :: past) = mode := by
  simp [inForce, scene, h, leave, read_set]

/-- A guard that was made is not changed by what comes later. -/
theorem getElem?_guards_cons {event : Event} {i : ℕ} (h : i < count past) :
    (scene value modes start (event :: past)).guards[i]? =
      (scene value modes start past).guards[i]? := by
  cases event with
  | made =>
    rw [← length_guards value modes start past] at h
    simp only [scene]
    rw [List.getElem?_append_left h]
  | ended j =>
    simp only [scene]
    split <;> rfl
  | read => rfl

theorem getElem?_guards_made :
    (scene value modes start (.made :: past)).guards[count past]? =
      some ⟨inForce value modes start past⟩ := by
  simp only [scene]
  rw [← length_guards value modes start past, List.getElem?_concat_length]
  rfl

/-- A guard found the mode that was in force before it was made. -/
theorem getElem?_guards {earlier : List Event} (h : .made :: earlier <:+ past) :
    (scene value modes start past).guards[count earlier]? =
      some ⟨inForce value modes start earlier⟩ := by
  induction past with
  | nil => simp at h
  | cons event past ih =>
    rcases List.suffix_cons_iff.mp h with heq | hsuffix
    · cases heq
      exact getElem?_guards_made
    · rw [getElem?_guards_cons (count_pos_of_suffix hsuffix)]
      exact ih hsuffix

/-! ### Guards that end in reverse order -/

/-- Each guard alive found the mode that those made before it and still alive ask for. -/
def Stacked (value : Option String) (modes : ℕ → StrictMode) (start : StrictCell)
    (past : List Event) : Prop :=
  ∀ later i rest, alive past = later ++ i :: rest →
    (scene value modes start past).guards[i]? = some ⟨asked value modes start rest⟩

namespace Stacked

theorem made (h : Stacked value modes start past) (hnow : Honoured value modes start past) :
    Stacked value modes start (.made :: past) := by
  intro later i rest halive
  cases later with
  | nil =>
    cases halive
    rw [getElem?_guards_made, hnow]
  | cons j later =>
    have hrest : alive past = later ++ i :: rest := (List.cons.inj halive).2
    have hi : i ∈ alive past := by simp [hrest]
    rw [getElem?_guards_cons (lt_count_of_mem_alive hi)]
    exact h later i rest hrest

theorem ended (h : Stacked value modes start past) {i : ℕ} {rest : List ℕ}
    (hlatest : alive past = i :: rest) :
    Stacked value modes start (.ended i :: past) ∧ Honoured value modes start (.ended i :: past) := by
  have halive : alive (.ended i :: past) = rest := by simp [alive, hlatest]
  constructor
  · intro later j earlier hsplit
    rw [halive] at hsplit
    have hj : j ∈ alive past := by simp [hlatest, hsplit]
    rw [getElem?_guards_cons (lt_count_of_mem_alive hj)]
    exact h (i :: later) j earlier (by rw [hlatest, hsplit, List.cons_append])
  · rw [Honoured, halive, inForce_ended (h [] i rest hlatest)]

end Stacked

/-- Guards that end in reverse order are honoured. -/
theorem stacked_of_nested (h : Nested past) :
    Stacked value modes start past ∧ Honoured value modes start past := by
  induction past with
  | nil => exact ⟨fun later i rest halive => by simp [alive] at halive, rfl⟩
  | cons event past ih =>
    cases event with
    | made =>
      obtain ⟨hstacked, hnow⟩ := ih h
      exact ⟨hstacked.made hnow, inForce_made⟩
    | ended i =>
      obtain ⟨rest, hlatest⟩ := List.head?_eq_some_iff.mp h.1
      exact (ih h.2).1.ended hlatest
    | read =>
      obtain ⟨hstacked, hnow⟩ := ih h
      exact ⟨hstacked, inForce_read.trans hnow⟩

theorem nested_of_suffix {earlier : List Event} (h : Nested past) (hsuffix : earlier <:+ past) :
    Nested earlier := by
  induction past with
  | nil => rwa [List.suffix_nil.mp hsuffix]
  | cons event past ih =>
    rcases List.suffix_cons_iff.mp hsuffix with rfl | hearlier
    · exact h
    · cases event with
      | made | read => exact ih h hearlier
      | ended i => exact ih h.2 hearlier

/-! ### Guards that do not -/

theorem exists_ne (mode : StrictMode) : ∃ other, other ≠ mode := by
  cases mode with
  | warn => exact ⟨.fatalErrors, by decide⟩
  | fatalErrors | fatalWarnings => exact ⟨.warn, by decide⟩

/-- A guard that ends before a later one takes the mode from it, if only the later one sets another
mode than there was at the start. -/
theorem not_honoured_of_overtaken (value : Option String) (start : StrictCell) {i j : ℕ}
    {below : List ℕ} (hnested : Nested past) (hlatest : alive past = j :: below) (hi : i ∈ below)
    (hne : i ≠ j) : ∃ modes, ¬ Honoured value modes start (.ended i :: past) := by
  obtain ⟨other, hother⟩ := exists_ne (start.read value).1
  obtain ⟨between, rest, rfl⟩ := List.append_of_mem hi
  let modes : ℕ → StrictMode := fun k => if k = j then other else (start.read value).1
  -- The guard found the mode from the start, since nobody below it set another.
  have hfound : asked value modes start rest = (start.read value).1 := by
    cases rest with
    | nil => rfl
    | cons k rest =>
      have hk : k ≠ j := by
        rintro rfl
        have hnodup := nodup_alive past
        rw [hlatest] at hnodup
        simp at hnodup
      exact if_neg hk
  have hstays : asked value modes start (alive (.ended i :: past)) = other := by
    rw [alive, hlatest, List.erase_cons_tail (by simpa using Ne.symm hne)]
    exact if_pos rfl
  have hended : inForce value modes start (.ended i :: past) = asked value modes start rest :=
    inForce_ended ((stacked_of_nested hnested).1 (j :: between) i rest hlatest)
  refine ⟨modes, fun hnow => hother ?_⟩
  rw [Honoured, hstays, hended] at hnow
  rw [← hnow, hfound]

theorem nested_of_honoured (hproper : Proper past)
    (h : ∀ modes earlier, earlier <:+ past → Honoured value modes start earlier) : Nested past := by
  induction past with
  | nil => trivial
  | cons event past ih =>
    have hbefore : ∀ modes earlier, earlier <:+ past → Honoured value modes start earlier :=
      fun modes earlier hsuffix => h modes earlier (hsuffix.trans (List.suffix_cons ..))
    cases event with
    | made | read => exact ih hproper hbefore
    | ended i =>
      obtain ⟨hi, hpast⟩ := hproper
      have hnested := ih hpast hbefore
      obtain ⟨j, below, hlatest⟩ := List.exists_cons_of_ne_nil (List.ne_nil_of_mem hi)
      refine ⟨?_, hnested⟩
      rw [hlatest, List.head?_cons, Option.some_inj]
      by_contra hne
      have hbelow : i ∈ below := (List.mem_cons.mp (hlatest ▸ hi)).resolve_left (Ne.symm hne)
      obtain ⟨modes, hnot⟩ :=
        not_honoured_of_overtaken value start hnested hlatest hbelow (Ne.symm hne)
      exact hnot (h modes _ List.suffix_rfl)

/-- What guards do to the mode, in whatever order they end. -/
structure Exact (value : Option String) (start : StrictCell) (past : List Event) : Prop where
  /-- The latest guard sets the mode. -/
  made : ∀ modes, inForce value modes start (.made :: past) = modes (count past)
  /-- A guard that ends brings back the mode from before it was made. -/
  ended : ∀ modes later earlier, past = later ++ .made :: earlier →
    inForce value modes start (.ended (count earlier) :: past) = inForce value modes start earlier
  read : ∀ modes, inForce value modes start (.read :: past) = inForce value modes start past
  /-- The mode was always the one of the latest guard alive, and without one that from before the
  first, whatever modes the guards set, if and only if each ended as the latest alive. -/
  honoured_iff : (∀ modes earlier, earlier <:+ past → Honoured value modes start earlier) ↔
    Nested past

theorem honoured_exact (value : Option String) (start : StrictCell) (hproper : Proper past) :
    Exact value start past where
  made _ := inForce_made
  ended _ later _ hpast := inForce_ended (getElem?_guards ⟨later, hpast.symm⟩)
  read _ := inForce_read
  honoured_iff :=
    ⟨nested_of_honoured hproper, fun hnested _ _ hsuffix =>
      (stacked_of_nested (nested_of_suffix hnested hsuffix)).2⟩

def crossed : List Event := [.ended 1, .ended 0, .made, .made]

def crossedModes (i : ℕ) : StrictMode := if i = 0 then .fatalErrors else .fatalWarnings

theorem honoured_exact_crossed : Proper crossed ∧ ¬ Nested crossed ∧
    Exact none (StrictCell.fresh.set .warn) crossed :=
  have hproper : Proper crossed := by simp [Proper, crossed, alive, count]
  ⟨hproper, by simp [Nested, crossed, alive, count], honoured_exact none _ hproper⟩

/-- Where the first of two guards ends first, the second loses its mode, and leaves the first one's
behind when both are gone. -/
theorem crossed_guards_outlive :
    Proper crossed ∧
      alive crossed.tail = [1] ∧
      inForce none crossedModes (StrictCell.fresh.set .warn) crossed.tail ≠ crossedModes 1 ∧
      alive crossed = [] ∧
      inForce none crossedModes (StrictCell.fresh.set .warn) crossed = crossedModes 0 ∧
      inForce none crossedModes (StrictCell.fresh.set .warn) crossed ≠
        inForce none crossedModes (StrictCell.fresh.set .warn) [] := by
  refine ⟨by simp [Proper, crossed, alive, count], ?_⟩
  decide

end StagingMemory.StrictGuard
