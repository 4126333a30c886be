import Mathlib.Algebra.Group.Pi.Lemmas
import Mathlib.Data.UInt
import StagingMemory.Proofs.Namespace
/-!
The course of one call among others. Between two of its steps anything may happen elsewhere that a
given relation admits, so every step may find another machine; the course lists the call's own
steps, each with what it found. Main statements: what the beginning gives, what goes on elsewhere
keeps and every step keeps holds of how the call ends (`Course.rule`), and a call that runs with
nobody else about is such a course (`course_runAlone`).
-/
namespace StagingMemory

/-- What a call has come to, and its own steps so far, newest first, each with what it found. -/
inductive Course (Between : Site → Site → Prop) (begun : Progress Call Reply × Site) :
    List (Call × Site) → Progress Call Reply × Site → Prop
  | begin : Course Between begun [] begun
  | step {steps : List (Call × Site)} {c : Call} {s t : Site}
      (h : Course Between begun steps (.running c, s)) (hbetween : Between s t) :
      Course Between begun ((c, t) :: steps) (c.step t)

namespace Course

variable {Between : Site → Site → Prop} {begun result : Progress Call Reply × Site}
  {steps : List (Call × Site)}

theorem rule (Keeps : List (Call × Site) → Call → Site → Prop)
    (Ends : List (Call × Site) → Outcome Reply → Site → Prop)
    (hbegin : Reached (Keeps []) (Ends []) begun)
    (hbetween : ∀ steps c s t, Keeps steps c s → Between s t → Keeps steps c t)
    (hstep : ∀ steps c s, Keeps steps c s →
      Reached (Keeps ((c, s) :: steps)) (Ends ((c, s) :: steps)) (c.step s))
    (h : Course Between begun steps result) : Reached (Keeps steps) (Ends steps) result := by
  induction h with
  | begin => exact hbegin
  | step _ hb ih => exact hstep _ _ _ (hbetween _ _ _ _ ih hb)

/-- A call that has ended takes no step. -/
theorem eq_of_done {o : Outcome Reply} {s : Site}
    (h : Course Between (.done o, s) steps result) : steps = [] ∧ result = (.done o, s) := by
  induction h with
  | begin => exact ⟨rfl, rfl⟩
  | step _ _ ih => cases ih.2

end Course

/-- The steps that a call takes with nobody else about: it finds what it left, later at most. -/
def stepsAlone : (more : Nat) → Progress Call Reply × Site → List (Call × Site) → List (Call × Site)
  | more + 1, (.running c, s), steps => stepsAlone more (c.advance s) ((c, c.wakeUp s) :: steps)
  | _, _, steps => steps

theorem course_runAlone {Between : Site → Site → Prop} {begun result : Progress Call Reply × Site}
    {steps : List (Call × Site)} (hwake : ∀ (c : Call) (s : Site), Between s (c.wakeUp s))
    (h : Course Between begun steps result) (more : Nat) :
    Course Between begun (stepsAlone more result steps) (runAlone more result) := by
  induction more generalizing steps result with
  | zero => exact h
  | succ more ih =>
    obtain ⟨progress, s⟩ := result
    cases progress with
    | done o => exact h
    | running c =>
      simp only [stepsAlone, runAlone]
      rw [Call.advance_eq]
      exact ih (.step h (hwake c s))

namespace Resource

def allocateSteps (r : Resource) (bytes : UInt64) (s : Site) : List (Call × Site) :=
  stepsAlone (stepBound (r.beginAllocate bytes s).1) (r.beginAllocate bytes s) []

def releaseSteps (r : Resource) (block : Block) (s : Site) : List (Call × Site) :=
  stepsAlone (stepBound (r.beginRelease block s).1) (r.beginRelease block s) []

variable {Between : Site → Site → Prop} (hwake : ∀ (c : Call) (s : Site), Between s (c.wakeUp s))
include hwake

theorem course_allocate (r : Resource) (bytes : UInt64) (s : Site) :
    Course Between (r.beginAllocate bytes s) (r.allocateSteps bytes s) (r.allocate bytes s) :=
  course_runAlone hwake .begin _

theorem course_release (r : Resource) (block : Block) (s : Site) :
    Course Between (r.beginRelease block s) (r.releaseSteps block s) (r.release block s) :=
  course_runAlone hwake .begin _

end Resource

def publishedSite : Site :=
  ((Machine.sample () id).resource.allocate 4096
    ((Machine.fresh (fun _ => 1) [1] : Machine Unit Unit).site ())).2

/-! ### What a call adds to a count -/

def Kernel.gain (word : Header → UInt32) (k k' : Kernel) : SegmentId → UInt32 := fun id =>
  word (k'.header id) - word (k.header id)

def gained (word : Header → UInt32) : List (Call × Site) → SegmentId → UInt32
  | [] => 0
  | (c, s) :: earlier => gained word earlier + s.kernel.gain word (c.step s).2.kernel

namespace Kernel

variable {k k' : Kernel}

@[simp] theorem gain_self (word : Header → UInt32) (k : Kernel) : k.gain word k = 0 := by
  funext id
  exact sub_self _

theorem gain_modifyHeader (word : Header → UInt32) {id : SegmentId} (h : id < k.segments.length)
    {f : Header → Header} {n : UInt32} (hf : ∀ header, word (f header) = word header + n) :
    k.gain word (k.modifyHeader id f) = Pi.single id n := by
  funext j
  simp only [gain, header_modifyHeader h, Pi.single_apply]
  split
  · rw [hf, add_sub_cancel_left]
  · exact sub_self _

end Kernel

end StagingMemory
