import Mathlib.Data.Fintype.Basic
import StagingMemory.Account.Gauge
import StagingMemory.Proofs.Crowd
/-!
The peak of a gauge that several threads add to and subtract from at a time. An addition is two
accesses, so for a while the reading may be above the peak. What carries the proof is that each
reading there ever was is at most the peak, or at most the reading with which an addition under way
is about to raise the peak. Main statement: when no call is in progress, the peak is the highest
reading since the gauge was made (`Gauge.faithful_of_run`).
-/
namespace StagingMemory.Gauge

open Crowd

/-! ### What one access does to reading and peak -/

section

variable {g : Gauge} {n reading : UInt64}

theorem overflows_iff : overflows g.current n = true ↔ UInt64.size ≤ g.current.toNat + n.toNat :=
  decide_eq_true_iff

/-- A sum that leaves the words wraps to less than there was. -/
theorem current_addCurrent_le (h : overflows g.current n = true) :
    (g.addCurrent n).current ≤ g.current := by
  have hover : UInt64.size ≤ g.current.toNat + n.toNat := overflows_iff.mp h
  have hg : g.current.toNat < UInt64.size := g.current.toNat_lt
  have hn : n.toNat < UInt64.size := n.toNat_lt
  rw [UInt64.le_iff_toNat_le]
  show (g.current + n).toNat ≤ _
  rw [UInt64.toNat_add]
  have hmod : (g.current.toNat + n.toNat) % UInt64.size =
      g.current.toNat + n.toNat - UInt64.size := by
    rw [Nat.mod_eq_sub_mod hover, Nat.mod_eq_of_lt (by omega)]
  have : (g.current.toNat + n.toNat) % UInt64.size ≤ g.current.toNat := by omega
  exact this

theorem current_subtractCurrent_le (g : Gauge) (n : UInt64) :
    (g.subtractCurrent n).current ≤ g.current := by
  have hsub : (g.subtractCurrent n).current = .ofNat (g.current.toNat - n.toNat) := g.current_sub n
  have hlt : g.current.toNat - n.toNat < UInt64.size :=
    Nat.lt_of_le_of_lt (Nat.sub_le ..) g.current.toNat_lt
  rw [UInt64.le_iff_toNat_le, hsub, UInt64.toNat_ofNat_of_lt' hlt]
  exact Nat.sub_le ..

theorem peak_raisePeak (g : Gauge) (reading : UInt64) :
    (g.raisePeak reading).peak = if g.peak ≤ reading then reading else g.peak := rfl

theorem peak_le_raisePeak (g : Gauge) (reading : UInt64) : g.peak ≤ (g.raisePeak reading).peak := by
  rw [peak_raisePeak]
  split
  case isTrue h => exact h
  case isFalse => exact UInt64.le_refl _

theorem le_peak_raisePeak (g : Gauge) (reading : UInt64) :
    reading ≤ (g.raisePeak reading).peak := by
  rw [peak_raisePeak]
  split
  case isTrue => exact UInt64.le_refl _
  case isFalse h => exact UInt64.le_of_lt (UInt64.not_le.mp h)

theorem peak_le_step (access : Access) (g : Gauge) : g.peak ≤ (access.step g).2.peak := by
  cases access with
  | add n | sub n => exact UInt64.le_refl _
  | raise reading => exact g.peak_le_raisePeak reading

end

/-! ### Readings and the peak -/

variable {ι : Type v} {past : Past ι Gauge Access} {m : Crowd ι Gauge Access Unit} {i : ι}

def readings (past : Past ι Gauge Access) (m : Crowd ι Gauge Access Unit) : List UInt64 :=
  (m.states past).map current

/-- The reading is at most the peak, or what an addition under way is about to raise the peak to. -/
def Covers (m : Crowd ι Gauge Access Unit) (reading : UInt64) : Prop :=
  reading ≤ m.object.peak ∨
    ∃ i raised, m.call? i = some (.running (.raise raised)) ∧ reading ≤ raised

structure Watermark (past : Past ι Gauge Access) (m : Crowd ι Gauge Access Unit) : Prop where
  peak_mem : m.object.peak ∈ readings past m
  raise_mem : ∀ i raised, m.call? i = some (.running (.raise raised)) → raised ∈ readings past m
  covers : ∀ reading ∈ readings past m, Covers m reading

theorem Covers.le {low high : UInt64} (h : Covers m high) (hle : low ≤ high) : Covers m low := by
  rcases h with hpeak | ⟨i, raised, hcall, hraised⟩
  · exact Or.inl (UInt64.le_trans hle hpeak)
  · exact Or.inr ⟨i, raised, hcall, UInt64.le_trans hle hraised⟩

/-- When no call is in progress, only the peak is left to cover a reading. -/
theorem Covers.le_peak {reading : UInt64} (h : Covers m reading) (hquiet : m.Quiet) :
    reading ≤ m.object.peak := by
  rcases h with hpeak | ⟨i, raised, hcall, -⟩
  · exact hpeak
  · exact absurd hcall (hquiet i _)

theorem watermark_start : Watermark [] (Crowd.fresh zero : Crowd ι Gauge Access Unit) where
  peak_mem := List.mem_cons_self
  raise_mem _ _ hcall := by cases hcall
  covers reading hreading := by
    rw [List.mem_singleton.mp hreading]
    exact Or.inl (UInt64.le_refl _)

variable [DecidableEq ι] {requests : ι → Request}

theorem Covers.begin {reading : UInt64} (h : Covers m reading) (hnew : m.call? i = none) :
    Covers (m.begin protocol requests i) reading := by
  rcases h with hpeak | ⟨j, raised, hcall, hraised⟩
  · exact Or.inl hpeak
  · have hj : j ≠ i := by
      rintro rfl
      rw [hnew] at hcall
      cases hcall
    exact Or.inr ⟨j, raised, (call?_begin_of_ne hj).trans hcall, hraised⟩

/-- An addition that raises the peak covers in its place what it covered before. -/
theorem Covers.act {reading : UInt64} {access : Access} (h : Covers m reading)
    (hrunning : m.call? i = some (.running access)) : Covers (m.act protocol i access) reading := by
  rcases h with hpeak | ⟨j, raised, hcall, hraised⟩
  · exact Or.inl (UInt64.le_trans hpeak (peak_le_step access m.object))
  · by_cases hj : j = i
    · subst hj
      rw [hrunning] at hcall
      cases hcall
      exact Or.inl (UInt64.le_trans hraised (le_peak_raisePeak m.object raised))
    · exact Or.inr ⟨j, raised, (call?_act_of_ne hj).trans hcall, hraised⟩

theorem Watermark.begin (h : Watermark past m) (hnew : m.call? i = none) :
    Watermark ((.began i, m.object) :: past) (m.begin protocol requests i) where
  peak_mem := List.mem_cons_of_mem _ h.peak_mem
  raise_mem j raised hcall := by
    rcases call?_begin_cases hcall with hbefore | ⟨-, hfirst⟩
    · exact List.mem_cons_of_mem _ (h.raise_mem j raised hbefore)
    · cases hrequest : requests i <;> simp [protocol, Request.first, hrequest] at hfirst
  covers reading hreading := by
    have hbefore : reading ∈ readings past m := by
      rcases List.mem_cons.mp hreading with rfl | hreading
      · exact List.mem_cons_self
      · exact hreading
    exact (h.covers reading hbefore).begin hnew

/-- The reading after an access is covered: an addition is about to raise the peak to it, or it is
no higher than the one before. -/
theorem Watermark.covers_act (h : Watermark past m) {access : Access}
    (hrunning : m.call? i = some (.running access)) :
    Covers (m.act protocol i access) (access.step m.object).2.current := by
  have hcurrent : Covers (m.act protocol i access) m.object.current :=
    (h.covers _ List.mem_cons_self).act hrunning
  cases access with
  | add n =>
    cases hover : overflows m.object.current n with
    | true => exact hcurrent.le (current_addCurrent_le hover)
    | false =>
      refine Or.inr ⟨i, m.object.current + n, ?_, UInt64.le_refl _⟩
      rw [call?_act_self]
      simp [protocol, Access.step, hover]
  | raise raised => exact hcurrent
  | sub n => exact hcurrent.le (current_subtractCurrent_le m.object n)

theorem Watermark.act (h : Watermark past m) {access : Access}
    (hrunning : m.call? i = some (.running access)) :
    Watermark ((.stepped i access, m.object) :: past) (m.act protocol i access) where
  peak_mem := by
    cases access with
    | add n | sub n => exact List.mem_cons_of_mem _ h.peak_mem
    | raise raised =>
      apply List.mem_cons_of_mem
      show (m.object.raisePeak raised).peak ∈ readings past m
      rw [peak_raisePeak]
      split
      · exact h.raise_mem i raised hrunning
      · exact h.peak_mem
  raise_mem j raised hcall := by
    rcases call?_act_cases hcall with ⟨-, hbefore⟩ | ⟨-, hnow⟩
    · exact List.mem_cons_of_mem _ (h.raise_mem j raised hbefore)
    · cases access with
      | add n =>
        simp only [protocol, Access.step] at hnow
        split at hnow <;> cases hnow
        exact List.mem_cons_self
      | raise _ | sub _ => cases hnow
  covers reading hreading := by
    rcases List.mem_cons.mp hreading with rfl | hreading
    · exact h.covers_act hrunning
    · exact (h.covers reading hreading).act hrunning

theorem watermark_of_run (hrun : Run protocol requests zero past m) : Watermark past m := by
  induction hrun with
  | start => exact watermark_start
  | begin i _ hnew ih => exact ih.begin hnew
  | act i access _ hrunning ih => exact ih.act hrunning

/-! ### How calls end -/

/-- The course of an addition: one access if the sum leaves the words, two if not. -/
inductive Adds (n : UInt64) : List (Access × Gauge) → Progress Access Unit → Prop
  | begun : Adds n [] (.running (.add n))
  | overflowed (found : Gauge) (h : overflows found.current n = true) :
      Adds n [(.add n, found)] (.done (.faulted .addOverflow))
  | added (found : Gauge) (h : overflows found.current n = false) :
      Adds n [(.add n, found)] (.running (.raise (found.current + n)))
  | raised (found g : Gauge) (h : overflows found.current n = false) :
      Adds n [(.raise (found.current + n), g), (.add n, found)] (.done (.returned ()))

theorem adds_of_course {n : UInt64} {steps : List (Access × Gauge)}
    {progress : Progress Access Unit} (h : protocol.Course (.add n) steps progress) :
    Adds n steps progress := by
  induction h with
  | begin => exact .begun
  | step s _ hbefore =>
    cases hbefore with
    | begun =>
      simp only [protocol, Access.step]
      cases hover : overflows s.current n with
      | true => exact .overflowed s hover
      | false => exact .added s hover
    | added found hover => exact .raised found s hover

theorem course_sub {n : UInt64} {steps : List (Access × Gauge)} {progress : Progress Access Unit}
    (h : protocol.Course (.sub n) steps progress) :
    progress = .running (.sub n) ∨ progress = .done (.returned ()) := by
  induction h with
  | begin => exact Or.inl rfl
  | step s _ ih =>
    rcases ih with hbefore | hbefore <;> cases hbefore
    exact Or.inr rfl

def Access.following : Access → Nat
  | add _ => 1
  | raise _ | sub _ => 0

theorem following_step_lt {access next : Access} {g : Gauge}
    (h : (protocol.step access g).1 = .running next) : next.following < access.following := by
  cases access with
  | add n =>
    simp only [protocol, Access.step] at h
    split at h <;> cases h
    exact Nat.one_pos
  | raise _ | sub _ => cases h

/-- What a gauge tells of its past after any calls. -/
structure Faithful (requests : ι → Request) (past : Past ι Gauge Access)
    (m : Crowd ι Gauge Access Unit) : Prop where
  /-- When no call is in progress, the peak is the highest reading there ever was. -/
  peak_highest : m.Quiet → m.object.peak ∈ readings past m ∧
    ∀ reading ∈ readings past m, reading ≤ m.object.peak
  current_le_peak : m.Quiet → m.object.current ≤ m.object.peak
  peak_grows : (m.states past).Pairwise fun later earlier => earlier.peak ≤ later.peak
  /-- An addition found one reading, and faults exactly where the sum with it leaves the words. -/
  add_ends : ∀ i n o, requests i = .add n → m.call? i = some (.done o) →
    ∃ found, (∀ g, (.stepped i (.add n), g) ∈ past ↔ g = found) ∧
      o = if UInt64.size ≤ found.current.toNat + n.toNat then .faulted .addOverflow
        else .returned ()
  sub_ends : ∀ i n o, requests i = .sub n → m.call? i = some (.done o) → o = .returned ()
  /-- A call is over after two accesses of its own at most, whatever the others do. -/
  ends : ∀ i access, m.call? i = some (.running access) → (stepsOf i past).length < 2

theorem faithful_of_run (hrun : Run protocol requests zero past m) : Faithful requests past m where
  peak_highest hquiet :=
    have hmark := watermark_of_run hrun
    ⟨hmark.peak_mem, fun reading hreading => (hmark.covers reading hreading).le_peak hquiet⟩
  current_le_peak hquiet :=
    ((watermark_of_run hrun).covers _ List.mem_cons_self).le_peak hquiet
  peak_grows :=
    hrun.pairwise (fun _ => UInt64.le_refl _) (fun _ _ _ => UInt64.le_trans) peak_le_step
  add_ends i n o hrequest hdone := by
    have hcourse := hrun.course hdone
    rw [hrequest] at hcourse
    have hadds := adds_of_course hcourse
    simp only [← mem_stepsOf]
    generalize stepsOf i past = steps at hadds
    cases hadds with
    | overflowed found hover =>
      refine ⟨found, fun g => by simp, ?_⟩
      rw [if_pos (overflows_iff.mp hover)]
    | raised found _ hfits =>
      refine ⟨found, fun g => by simp, ?_⟩
      rw [if_neg fun hover => by simp [overflows_iff.mpr hover] at hfits]
  sub_ends i n o hrequest hdone := by
    have hcourse := hrun.course hdone
    rw [hrequest] at hcourse
    rcases course_sub hcourse with hends | hends <;> cases hends
    rfl
  ends i access hrunning := by
    have htaken := (hrun.course hrunning).length_add_le fun _ _ _ => following_step_lt
    have hfirst : (protocol.first (requests i)).following ≤ 1 := by
      cases requests i with
      | add n => exact Nat.le_refl 1
      | sub n => exact Nat.zero_le 1
    omega

/-! ### A race -/

def raceRequests : Fin 4 → Request
  | 0 => .add 100
  | 1 => .add 50
  | 2 => .add 0xFFFFFFFFFFFFFFFF
  | 3 => .sub 120

/-- The second addition raises the peak before the first does, and the subtraction and the third
addition come between. -/
def race : Past (Fin 4) Gauge Access × Crowd (Fin 4) Gauge Access Unit :=
  play protocol raceRequests [0, 1, 2, 3, 0, 1, 3, 1, 2, 0] ([], Crowd.fresh zero)

theorem faithful_of_run_race :
    Run protocol raceRequests zero race.1 race.2 ∧ race.2.Quiet ∧
      race.2.object = ⟨29, 150⟩ ∧
      readings race.1 race.2 = [29, 29, 30, 30, 150, 100, 0, 0, 0, 0, 0] ∧
      race.2.call? 2 = some (.done (.faulted .addOverflow)) ∧
      Faithful raceRequests race.1 race.2 :=
  have hrun : Run protocol raceRequests zero race.1 race.2 := Run.start.play _
  ⟨hrun, by decide +kernel, by decide +kernel, by decide +kernel, by decide +kernel,
    faithful_of_run hrun⟩

end StagingMemory.Gauge
