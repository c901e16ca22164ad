/-
**Writes one after the other.**

A list of writes is performed on a store in its order, and the first that fails ends it.  A write
that fails may have touched its place.

Main definitions:

* `Writes.put` — a store with a new content at one place;
* `Writes.Fault`, `Writes.perform` — what can go wrong, and the writes of a list;
* `Writes.last`, `Writes.done` — what a list of writes leaves at a place, and in a store;
* `Writes.Alike` — stores with related contents.

Main results:

* `Writes.perform_of_ok` — **the last write to a place decides**;
* `Writes.put_done` — one more write behind some others;
* `Writes.perform_alike` — **writes of related contents leave related contents**.
-/

import Mathlib.Tactic

set_option relaxedAutoImplicit false
set_option autoImplicit false

namespace Writes

variable {κ ν ε : Type} [DecidableEq κ]

/-- A store with `v` at `k`. -/
def put (store : κ → Option ν) (k : κ) (v : ν) : κ → Option ν := Function.update store k (some v)

@[simp] theorem put_self (store : κ → Option ν) (k : κ) (v : ν) : put store k v k = some v := by
  simp [put]

theorem put_of_ne {store : κ → Option ν} {k k' : κ} (h : k' ≠ k) (v : ν) :
    put store k v k' = store k' := by
  simp [put, h]

/-- What goes wrong with a write: its error, and what its place holds then, if it was touched. -/
structure Fault (ν ε : Type) where
  error : ε
  left : Option ν

/-- The store behind a write to `k` that failed. -/
def Fault.leave (f : Fault ν ε) (store : κ → Option ν) (k : κ) : κ → Option ν :=
  f.left.elim store (put store k)

theorem Fault.leave_of_ne (f : Fault ν ε) {store : κ → Option ν} {k k' : κ} (h : k' ≠ k) :
    f.leave store k k' = store k' := by
  unfold Fault.leave
  cases f.left with
  | none => rfl
  | some v => exact put_of_ne h v

/-- The writes of a list, of which the first is the `n`th to be made; they end at the first that
fails. -/
def perform (fault : ℕ → Option (Fault ν ε)) :
    ℕ → List (κ × ν) → (κ → Option ν) → Except ε Unit × (κ → Option ν)
  | _, [], store => (.ok (), store)
  | n, (k, v) :: writes, store =>
      match fault n with
      | none => perform fault (n + 1) writes (put store k v)
      | some f => (.error f.error, f.leave store k)

/-- What a list of writes leaves at a place, if it writes there. -/
def last (writes : List (κ × ν)) (k : κ) : Option ν :=
  (writes.reverse.find? fun w => w.1 = k).map Prod.snd

theorem last_append (writes writes' : List (κ × ν)) (k : κ) :
    last (writes ++ writes') k = (last writes' k).or (last writes k) := by
  rw [last, List.reverse_append, List.find?_append, Option.map_or]
  rfl

theorem last_singleton (k : κ) (v : ν) (k' : κ) :
    last [(k, v)] k' = if k = k' then some v else none := by
  by_cases h : k = k' <;> simp [last, h]

theorem last_cons (k : κ) (v : ν) (writes : List (κ × ν)) (k' : κ) :
    last ((k, v) :: writes) k' = (last writes k').or (if k = k' then some v else none) := by
  rw [← last_singleton, ← last_append]
  rfl

theorem last_eq_none {writes : List (κ × ν)} {k : κ} (h : k ∉ writes.map Prod.fst) :
    last writes k = none := by
  rw [last, Option.map_eq_none_iff, List.find?_eq_none]
  intro w hw heq
  rw [List.mem_reverse] at hw
  exact h (of_decide_eq_true heq ▸ List.mem_map_of_mem hw)

/-- The store behind writes that have all succeeded. -/
def done (writes : List (κ × ν)) (store : κ → Option ν) : κ → Option ν :=
  fun k => (last writes k).or (store k)

@[simp] theorem done_nil (store : κ → Option ν) : done [] store = store := rfl

/-- One more write behind some others. -/
theorem put_done (writes : List (κ × ν)) (store : κ → Option ν) (k : κ) (v : ν) :
    put (done writes store) k v = done (writes ++ [(k, v)]) store := by
  funext k'
  rw [done, last_append, last_singleton]
  by_cases hk : k = k'
  · subst hk
    rw [put_self, if_pos rfl]
    rfl
  · rw [if_neg hk, Option.none_or, put_of_ne (Ne.symm hk)]
    rfl

/-- Whether writes succeed depends on how many there are, and not on what they write. -/
theorem perform_fst_congr (fault : ℕ → Option (Fault ν ε)) (n : ℕ) {writes writes' : List (κ × ν)}
    (h : writes.length = writes'.length) (store store' : κ → Option ν) :
    (perform fault n writes store).1 = (perform fault n writes' store').1 := by
  induction writes generalizing n writes' store store' with
  | nil =>
      obtain rfl := List.length_eq_zero_iff.1 h.symm
      rfl
  | cons w writes ih =>
      cases writes' with
      | nil => cases h
      | cons w' writes' =>
          rw [perform, perform]
          cases fault n with
          | none => exact ih (n + 1) (Nat.succ.inj h) _ _
          | some f => rfl

/-- **The last write to a place decides** what it holds, once all writes have succeeded. -/
theorem perform_of_ok {fault : ℕ → Option (Fault ν ε)} {n : ℕ} {writes : List (κ × ν)}
    {store : κ → Option ν} (h : (perform fault n writes store).1 = .ok ()) (k : κ) :
    (perform fault n writes store).2 k = (last writes k).or (store k) := by
  induction writes generalizing n store with
  | nil => rfl
  | cons w writes ih =>
      obtain ⟨k', v⟩ := w
      rw [perform] at h ⊢
      cases hfault : fault n with
      | some f =>
          rw [hfault] at h
          cases h
      | none =>
          rw [hfault] at h
          rw [ih h, last_cons, Option.or_assoc]
          congr 1
          by_cases hk : k' = k
          · subst hk
            simp
          · simp [hk, put_of_ne (Ne.symm hk)]

/-! ### Stores with related contents -/

/-- Stores whose contents are related place by place. -/
def Alike (R : ν → ν → Prop) (store store' : κ → Option ν) : Prop :=
  ∀ k, Option.Rel R (store k) (store' k)

variable {R : ν → ν → Prop}

omit [DecidableEq κ] in
theorem Alike.refl (hR : ∀ v, R v v) (store : κ → Option ν) : Alike R store store := by
  intro k
  cases store k with
  | none => exact .none
  | some v => exact .some (hR v)

theorem Alike.put {store store' : κ → Option ν} (h : Alike R store store') (k : κ) {v v' : ν}
    (hv : R v v') : Alike R (Writes.put store k v) (Writes.put store' k v') := by
  intro k'
  by_cases hk : k' = k
  · subst hk
    rw [put_self, put_self]
    exact .some hv
  · rw [put_of_ne hk, put_of_ne hk]
    exact h k'

theorem Alike.leave (hR : ∀ v, R v v) (f : Fault ν ε) {store store' : κ → Option ν}
    (h : Alike R store store') (k : κ) : Alike R (f.leave store k) (f.leave store' k) := by
  unfold Fault.leave
  cases f.left with
  | none => exact h
  | some v => exact h.put k (hR v)

/-- **Writes of related contents leave related contents**, and fail alike. -/
theorem perform_alike (hR : ∀ v, R v v) (fault : ℕ → Option (Fault ν ε)) (n : ℕ)
    {writes writes' : List (κ × ν)}
    (h : List.Forall₂ (fun a b => a.1 = b.1 ∧ R a.2 b.2) writes writes')
    {store store' : κ → Option ν} (hstore : Alike R store store') :
    (perform fault n writes store).1 = (perform fault n writes' store').1 ∧
      Alike R (perform fault n writes store).2 (perform fault n writes' store').2 := by
  induction h generalizing n store store' with
  | nil => exact ⟨rfl, hstore⟩
  | @cons a b writes writes' hab _ ih =>
      obtain ⟨k, v⟩ := a
      obtain ⟨k', v'⟩ := b
      obtain ⟨rfl, hv⟩ : k = k' ∧ R v v' := hab
      rw [perform, perform]
      cases fault n with
      | none => exact ih (n + 1) (hstore.put k hv)
      | some f => exact ⟨rfl, hstore.leave hR f k⟩

end Writes
