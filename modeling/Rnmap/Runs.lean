/-
**Runs of a transition system.**

The concurrent parts of a program are modelled as a step relation on states; a run is a chain of
steps from the initial state, one for each interleaving.  This module holds the two rules by which
statements about all runs are proved: an invariant that steps preserve holds in every reachable
state, and a system whose steps decrease a measure and that can always step until it is finished
finishes in every run.

Main definitions:

* `Runs.Reachable` — the states some run reaches.

Main results:

* `Runs.Reachable.invariant` — the invariant rule;
* `Runs.finite_runs`, `Runs.exists_finished` — the termination rule.
-/

import Mathlib.Logic.Relation
import Mathlib.Tactic

set_option relaxedAutoImplicit false
set_option autoImplicit false

universe u

namespace Runs

variable {σ : Type u} {Step : σ → σ → Prop} {start : σ}

/-- The states some run from `start` reaches. -/
def Reachable (Step : σ → σ → Prop) (start s : σ) : Prop := Relation.ReflTransGen Step start s

theorem Reachable.init : Reachable Step start start := Relation.ReflTransGen.refl

theorem Reachable.step {s t : σ} (h : Reachable Step start s) (hs : Step s t) :
    Reachable Step start t := Relation.ReflTransGen.tail h hs

theorem Reachable.trans {s t : σ} (h : Reachable Step start s) (h' : Reachable Step s t) :
    Reachable Step start t := Relation.ReflTransGen.trans h h'

/-- **The invariant rule**: what holds at the start and is preserved by every step holds in every
reachable state. -/
theorem Reachable.invariant {Inv : σ → Prop} (h0 : Inv start)
    (hstep : ∀ s t, Inv s → Step s t → Inv t) {s : σ} (h : Reachable Step start s) : Inv s := by
  induction h with
  | refl => exact h0
  | tail _ hs ih => exact hstep _ _ ih hs

/-- When an invariant makes every step decrease a measure, no run is infinite. -/
theorem finite_runs {Inv : σ → Prop} (hstep : ∀ s t, Inv s → Step s t → Inv t) (μ : σ → ℕ)
    (hdec : ∀ s t, Inv s → Step s t → μ t < μ s) {s : σ} (h : Inv s) :
    Acc (fun t s => Step s t) s := by
  induction hn : μ s using Nat.strong_induction_on generalizing s with
  | _ n ih =>
      refine Acc.intro s fun t hs => ih (μ t) ?_ (hstep s t h hs) rfl
      rw [← hn]
      exact hdec s t h hs

/-- **The termination rule**: from a state with finite runs only, in a system that can step until
it is finished, some run finishes. -/
theorem exists_finished {Inv Finished : σ → Prop} (hstep : ∀ s t, Inv s → Step s t → Inv t)
    (hprog : ∀ s, Inv s → ¬ Finished s → ∃ t, Step s t) {s : σ} (h : Inv s)
    (hacc : Acc (fun t s => Step s t) s) : ∃ t, Reachable Step s t ∧ Finished t := by
  induction hacc with
  | intro s _ ih =>
      by_cases hfin : Finished s
      · exact ⟨s, Reachable.init, hfin⟩
      · obtain ⟨t, hs⟩ := hprog s h hfin
        obtain ⟨u, hu, hfin'⟩ := ih t hs (hstep s t h hs)
        exact ⟨u, Reachable.trans (Reachable.init.step hs) hu, hfin'⟩

end Runs
