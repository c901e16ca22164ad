/-
**Runs that leave a log.**

A step of a transition system may say something: it emits a list of events, and the log of a run is
what its steps emitted, in order.  Often such a log is known before the run, up to the order of
events that stand side by side: it goes through stages, one after the other, and the events of one
stage come in any order.  What is left of the stages is a function of the state, and a step spends
some of it; then every log goes through the stages.

Main definitions:

* `Runs.Logged` — the steps of a system with its log;
* `Runs.Staged` — a log that goes through stages;
* `Runs.Spends` — how the stages that are left change.

Main results:

* `Runs.Spends.staged` — what was spent and what is left make up the stages;
* `Runs.spends_of_reachable` — **the log rule**: when every step spends what it emits, a run spends
  its log.
-/

import Mathlib.Data.List.Forall2
import Rnmap.Runs

set_option relaxedAutoImplicit false
set_option autoImplicit false

universe u v

namespace Runs

variable {σ : Type u} {α : Type v}

/-- A step of a system that emits events, with the log so far. -/
def Logged (Emits : σ → List α → σ → Prop) (x y : σ × List α) : Prop :=
  ∃ events, Emits x.1 events y.1 ∧ y.2 = x.2 ++ events

/-- A log that goes through stages, one after the other, each in some order. -/
def Staged (log : List α) (stages : List (List α)) : Prop :=
  ∃ blocks, log = blocks.flatten ∧ List.Forall₂ List.Perm blocks stages

/-- The events of a stage leave it, and an empty stage is over. -/
inductive Spends : List (List α) → List α → List (List α) → Prop
  | refl (todo : List (List α)) : Spends todo [] todo
  | emit {stage stage' events : List α} {more : List (List α)} :
      stage.Perm (events ++ stage') → Spends (stage :: more) events (stage' :: more)
  | next {more : List (List α)} : Spends ([] :: more) [] more
  | trans {todo todo' todo'' : List (List α)} {events events' : List α} :
      Spends todo events todo' → Spends todo' events' todo'' →
        Spends todo (events ++ events') todo''

theorem Staged.nil : Staged ([] : List α) [] := ⟨[], rfl, .nil⟩

theorem Staged.cons {block stage log : List α} {stages : List (List α)}
    (h : block.Perm stage) (hlog : Staged log stages) :
    Staged (block ++ log) (stage :: stages) := by
  obtain ⟨blocks, rfl, hblocks⟩ := hlog
  exact ⟨block :: blocks, rfl, .cons h hblocks⟩

theorem staged_cons_iff {log stage : List α} {stages : List (List α)} :
    Staged log (stage :: stages) ↔
      ∃ block rest, log = block ++ rest ∧ block.Perm stage ∧ Staged rest stages := by
  constructor
  · rintro ⟨blocks, rfl, hblocks⟩
    obtain ⟨block, blocks, hblock, hrest, rfl⟩ := List.forall₂_cons_right_iff.1 hblocks
    exact ⟨block, blocks.flatten, rfl, hblock, blocks, rfl, hrest⟩
  · rintro ⟨block, rest, rfl, hblock, hrest⟩
    exact hrest.cons hblock

/-- A log that goes through stages and then others is one of each. -/
theorem staged_append_iff {log : List α} {stages stages' : List (List α)} :
    Staged log (stages ++ stages') ↔
      ∃ first rest, log = first ++ rest ∧ Staged first stages ∧ Staged rest stages' := by
  induction stages generalizing log with
  | nil =>
      constructor
      · intro h
        exact ⟨[], log, rfl, Staged.nil, h⟩
      · rintro ⟨first, rest, rfl, ⟨blocks, rfl, hblocks⟩, hrest⟩
        rw [List.forall₂_nil_right_iff.1 hblocks]
        exact hrest
  | cons stage stages ih =>
      rw [List.cons_append, staged_cons_iff]
      constructor
      · rintro ⟨block, log, rfl, hblock, hlog⟩
        obtain ⟨first, rest, rfl, hfirst, hrest⟩ := ih.1 hlog
        exact ⟨block ++ first, rest, (List.append_assoc ..).symm, hfirst.cons hblock, hrest⟩
      · rintro ⟨first, rest, rfl, hfirst, hrest⟩
        obtain ⟨block, first, rfl, hblock, hfirst⟩ := staged_cons_iff.1 hfirst
        exact ⟨block, first ++ rest, List.append_assoc .., hblock,
          ih.2 ⟨first, rest, rfl, hfirst, hrest⟩⟩

/-- Some order of the stages. -/
theorem staged_flatten (stages : List (List α)) : Staged stages.flatten stages :=
  ⟨stages, rfl, List.forall₂_same.2 fun _ _ => List.Perm.refl _⟩

/-- What was spent and what is left make up the stages. -/
theorem Spends.staged {todo todo' : List (List α)} {events log : List α}
    (h : Spends todo events todo') (hlog : Staged log todo') : Staged (events ++ log) todo := by
  induction h generalizing log with
  | refl todo => exact hlog
  | emit hperm =>
      obtain ⟨block, rest, rfl, hblock, hrest⟩ := staged_cons_iff.1 hlog
      rw [← List.append_assoc]
      exact hrest.cons ((hblock.append_left _).trans hperm.symm)
  | next => exact hlog.cons (List.Perm.refl [])
  | trans _ _ ih ih' =>
      rw [List.append_assoc]
      exact ih (ih' hlog)

/-- A log that goes through stages has their events. -/
theorem Staged.perm {log : List α} {stages : List (List α)} (h : Staged log stages) :
    log.Perm stages.flatten := by
  induction stages generalizing log with
  | nil =>
      obtain ⟨blocks, rfl, hblocks⟩ := h
      rw [List.forall₂_nil_right_iff.1 hblocks]
  | cons stage stages ih =>
      obtain ⟨block, rest, rfl, hblock, hrest⟩ := staged_cons_iff.1 h
      exact hblock.append (ih hrest)

/-- What was spent and what is left. -/
theorem Spends.perm {todo todo' : List (List α)} {events : List α} (h : Spends todo events todo') :
    (events ++ todo'.flatten).Perm todo.flatten :=
  (h.staged (staged_flatten todo')).perm

/-- One event after the other. -/
theorem spends_singletons (events : List α) (more : List (List α)) :
    Spends (events.map (fun e => [e]) ++ more) events more := by
  induction events with
  | nil => exact .refl more
  | cons e events ih =>
      have hfirst : Spends ([e] :: (events.map (fun e => [e]) ++ more)) [e]
          ([] :: (events.map (fun e => [e]) ++ more)) := .emit (List.Perm.refl [e])
      exact hfirst.trans (Spends.next.trans ih)

/-- **The log rule**: when every step spends what it emits, a run spends its log. -/
theorem spends_of_reachable {Emits : σ → List α → σ → Prop} {Inv : σ → Prop}
    {todo : σ → List (List α)} {start : σ} (h0 : Inv start)
    (hinv : ∀ s events t, Inv s → Emits s events t → Inv t)
    (hstep : ∀ s events t, Inv s → Emits s events t → Spends (todo s) events (todo t))
    {x : σ × List α} (h : Reachable (Logged Emits) (start, []) x) :
    Inv x.1 ∧ Spends (todo start) x.2 (todo x.1) := by
  induction h with
  | refl => exact ⟨h0, .refl _⟩
  | tail _ hs ih =>
      obtain ⟨events, hemits, hlog⟩ := hs
      refine ⟨hinv _ _ _ ih.1 hemits, ?_⟩
      rw [hlog]
      exact ih.2.trans (hstep _ _ _ ih.1 hemits)

/-- A system that emits events takes the steps of the system without them. -/
theorem reachable_of_logged {Emits : σ → List α → σ → Prop} {Step : σ → σ → Prop} {start : σ}
    (hstep : ∀ s events t, Emits s events t → Step s t) {x : σ × List α}
    (h : Reachable (Logged Emits) (start, []) x) : Reachable Step start x.1 := by
  induction h with
  | refl => exact Reachable.init
  | tail _ hs ih =>
      obtain ⟨events, hemits, -⟩ := hs
      exact ih.step (hstep _ _ _ hemits)

/-- Every run of a system has a log, when each of its steps says something. -/
theorem exists_logged {Emits : σ → List α → σ → Prop} {Step : σ → σ → Prop} {start : σ}
    (hstep : ∀ s t, Reachable Step start s → Step s t → ∃ events, Emits s events t) {s : σ}
    (h : Reachable Step start s) : ∃ log, Reachable (Logged Emits) (start, []) (s, log) := by
  induction h with
  | refl => exact ⟨[], Reachable.init⟩
  | tail hs hst ih =>
      obtain ⟨log, hlog⟩ := ih
      obtain ⟨events, hemits⟩ := hstep _ _ hs hst
      exact ⟨log ++ events, hlog.step ⟨events, hemits, rfl⟩⟩

end Runs
