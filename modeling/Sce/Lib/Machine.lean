/-
# Machines and simulation

A machine takes inputs one at a time, changes its state and puts something out.  A run is a list
of inputs.  The relation of a simulation may speak of what was put out so far, since assumptions
about an oracle speak of the questions asked up to some point.

* `run_simulation`: if each step of one machine is matched by a step of another, the second puts
  out what the first does, seen through `obs`.  A step need only be matched as long as the
  outputs are those of one fixed run, so an assumption about that whole run can be used in it.
-/
import Mathlib.Data.List.Basic
import Mathlib.Tactic.Common

/-- A deterministic machine with states `σ`, inputs `ι` and outputs `ω`. -/
structure Machine (σ ι ω : Type) where
  step : σ → ι → σ × ω

namespace Machine

variable {σ τ ι ω ω' : Type}

/-! ## 1. Runs -/

/-- Take the inputs in order. -/
def run (m : Machine σ ι ω) : σ → List ι → σ × List ω
  | s, [] => (s, [])
  | s, i :: is => ((run m (m.step s i).1 is).1, (m.step s i).2 :: (run m (m.step s i).1 is).2)

@[simp] theorem run_nil (m : Machine σ ι ω) (s : σ) : m.run s [] = (s, []) := rfl

theorem run_cons (m : Machine σ ι ω) (s : σ) (i : ι) (is : List ι) :
    m.run s (i :: is)
      = ((m.run (m.step s i).1 is).1, (m.step s i).2 :: (m.run (m.step s i).1 is).2) := rfl

/-! ## 2. Simulation -/

/-- **A matched step makes a matched run.**  `R` may look at the outputs so far, and a step has to
be matched only where these lead up to `total`. -/
theorem run_simulation {m : Machine σ ι ω} {m' : Machine τ ι ω'} {obs : ω → ω'}
    {R : List ω → σ → τ → Prop} {total : List ω}
    (hstep : ∀ past s t i, R past s t → past ++ [(m.step s i).2] <+: total →
      R (past ++ [(m.step s i).2]) (m.step s i).1 (m'.step t i).1 ∧
        (m'.step t i).2 = obs (m.step s i).2)
    (is : List ι) : ∀ {past : List ω} {s : σ} {t : τ}, R past s t →
      past ++ (m.run s is).2 = total →
      (m'.run t is).2 = (m.run s is).2.map obs := by
  induction is with
  | nil =>
    intro past s t _ _
    rfl
  | cons i is ih =>
    intro past s t h htotal
    rw [run_cons, List.append_cons] at htotal
    obtain ⟨hR, hobs⟩ := hstep past s t i h ⟨_, htotal⟩
    rw [run_cons, run_cons, List.map_cons, ← hobs, ih hR htotal]

end Machine
