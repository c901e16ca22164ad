/-
**Ordered sets as ascending lists.**

An ordered set of the standard library is iterated in ascending order and holds each element once.
Here it is the list of its elements with the proof that it ascends strictly, so that every set
built is sorted and free of duplicates, and two sets with the same elements are equal.

Main definitions:

* `SortedSet` — the sets over a type with a decidable strict order;
* `SortedSet.insert`, `SortedSet.insertAll` — adding one element, and adding those of a list.

Main results:

* `SortedSet.mem_insert`, `SortedSet.mem_insertAll` — the elements afterwards;
* `SortedSet.ext_mem` — **a set is determined by its elements**.
-/

import Mathlib.Tactic
import Mathlib.Data.List.Sort

set_option relaxedAutoImplicit false
set_option autoImplicit false

universe u

/-- A set, as the ascending list of its elements. -/
structure SortedSet (α : Type u) [LT α] where
  toList : List α
  ascending : toList.Pairwise (· < ·)

namespace SortedSet

variable {α : Type u} [LT α]

instance : Membership α (SortedSet α) := ⟨fun s a => a ∈ s.toList⟩

/-- The set without elements. -/
def empty : SortedSet α := ⟨[], List.Pairwise.nil⟩

/-- Whether a set has no elements. -/
def isEmpty (s : SortedSet α) : Bool := s.toList.isEmpty

theorem mem_toList {s : SortedSet α} {a : α} : a ∈ s.toList ↔ a ∈ s := Iff.rfl

theorem not_mem_empty (a : α) : a ∉ (empty : SortedSet α) := List.not_mem_nil

/-- **A set is determined by its elements.** -/
theorem ext_mem [Std.Irrefl (α := α) (· < ·)] [Std.Antisymm (α := α) (· < ·)] {s t : SortedSet α}
    (h : ∀ a, a ∈ s ↔ a ∈ t) : s = t := by
  obtain ⟨xs, hxs⟩ := s
  obtain ⟨ys, hys⟩ := t
  obtain rfl : xs = ys := hxs.eq_of_mem_iff hys h
  rfl

section Insert

variable [DecidableLT α] [DecidableEq α]

instance (a : α) (s : SortedSet α) : Decidable (a ∈ s) :=
  inferInstanceAs (Decidable (a ∈ s.toList))

/-- Insert into an ascending list, unless the element is there. -/
def insertInto (a : α) : List α → List α
  | [] => [a]
  | b :: bs => if a < b then a :: b :: bs else if a = b then b :: bs else b :: insertInto a bs

theorem mem_insertInto {a c : α} {bs : List α} : c ∈ insertInto a bs ↔ c = a ∨ c ∈ bs := by
  induction bs with
  | nil => simp [insertInto]
  | cons b bs ih =>
      rw [insertInto]
      split_ifs with hlt heq
      · exact List.mem_cons
      · subst heq
        simp
      · rw [List.mem_cons, ih, List.mem_cons]
        tauto

variable [Trans (α := α) (· < ·) (· < ·) (· < ·)] [Std.Trichotomous (α := α) (· < ·)]

/-- Inserting keeps a list ascending. -/
theorem pairwise_insertInto (a : α) {bs : List α} (h : bs.Pairwise (· < ·)) :
    (insertInto a bs).Pairwise (· < ·) := by
  induction bs with
  | nil => exact List.pairwise_singleton _ _
  | cons b bs ih =>
      rw [insertInto]
      obtain ⟨hb, hbs⟩ := List.pairwise_cons.1 h
      split_ifs with hlt heq
      · refine List.pairwise_cons.2 ⟨?_, h⟩
        intro c hc
        rcases List.mem_cons.1 hc with rfl | hc
        · exact hlt
        · exact Trans.trans hlt (hb c hc)
      · exact h
      · refine List.pairwise_cons.2 ⟨?_, ih hbs⟩
        intro c hc
        rcases mem_insertInto.1 hc with rfl | hc
        · rcases Std.lt_trichotomy c b with hcb | rfl | hbc
          · exact absurd hcb hlt
          · exact absurd rfl heq
          · exact hbc
        · exact hb c hc

/-- Add an element. -/
def insert (s : SortedSet α) (a : α) : SortedSet α :=
  ⟨insertInto a s.toList, pairwise_insertInto a s.ascending⟩

theorem mem_insert {s : SortedSet α} {a b : α} : b ∈ s.insert a ↔ b = a ∨ b ∈ s := mem_insertInto

/-- Add the elements of a list, one after the other. -/
def insertAll (s : SortedSet α) (as : List α) : SortedSet α := as.foldl insert s

theorem mem_insertAll {s : SortedSet α} {as : List α} {b : α} :
    b ∈ s.insertAll as ↔ b ∈ as ∨ b ∈ s := by
  induction as generalizing s with
  | nil => simp [insertAll]
  | cons a as ih =>
      have hstep : s.insertAll (a :: as) = (s.insert a).insertAll as := rfl
      rw [hstep, ih, mem_insert, List.mem_cons]
      tauto

end Insert

end SortedSet
