/-
**Reading a text by its layout.**

What is written one after the other, with a separator behind each part, is read back by splitting
at the separator: a text from the line feeds behind its lines, and lines from the empty ones behind
their groups.  Columns are read back from their widths, as long as every cell fits its column.

Main definitions:

* `Layout.parts` — the parts with a separator behind them;
* `Layout.cell` — what stands in a column.

Main results:

* `Layout.parts_written` — **parts without separators are read back**;
* `Layout.getLast?_parts` — **so is the last part**, whatever stands before it;
* `Layout.cell_padRight` — **a cell that fits its column is read back**.
-/

import Rnmap.Text

set_option relaxedAutoImplicit false
set_option autoImplicit false

namespace Layout

open Text

/-! ### Separators -/

section Parts

variable {α : Type} [BEq α] [LawfulBEq α]

/-- The parts that have a separator behind them; what stands behind the last separator is left
out. -/
def parts (sep : α) (s : List α) : List (List α) := (s.splitOn sep).dropLast

theorem splitOn_written {sep : α} {ps : List (List α)} (h : ∀ p ∈ ps, sep ∉ p) (rest : List α) :
    (ps.flatMap (fun p => p ++ [sep]) ++ rest).splitOn sep = ps ++ rest.splitOn sep := by
  induction ps with
  | nil => rfl
  | cons p ps ih =>
      obtain ⟨hp, hps⟩ := List.forall_mem_cons.1 h
      rw [List.flatMap_cons, List.append_assoc, List.append_assoc, List.singleton_append,
        List.splitOn_append_cons_self_of_not_mem hp, ih hps, List.cons_append]

/-- **Parts without separators are read back**, whatever stands behind the last one. -/
theorem parts_written {sep : α} {ps : List (List α)} (h : ∀ p ∈ ps, sep ∉ p) {rest : List α}
    (hrest : sep ∉ rest) : parts sep (ps.flatMap (fun p => p ++ [sep]) ++ rest) = ps := by
  rw [parts, splitOn_written h, List.splitOn_eq_singleton hrest, List.dropLast_concat]

/-- Behind a separator the parts begin anew. -/
theorem parts_append_cons (sep : α) (s t : List α) :
    parts sep (s ++ sep :: t) = s.splitOn sep ++ parts sep t := by
  rw [parts, List.splitOn_append_cons_self,
    List.dropLast_append_of_ne_nil (List.splitOn_ne_nil sep t), parts]

/-- **The last part is read back**, whatever stands before it. -/
theorem getLast?_parts {sep : α} {p : List α} (h : sep ∉ p) (s : List α) :
    (parts sep (s ++ sep :: (p ++ [sep]))).getLast? = some p := by
  have hlast : parts sep (p ++ [sep]) = [p] := by
    rw [parts, List.splitOn_append_cons_self, List.splitOn_nil, List.dropLast_concat,
      List.splitOn_eq_singleton h]
  rw [parts_append_cons, hlast, List.getLast?_concat]

end Parts

/-! ### Columns -/

/-- What stands in the first column of a text, which is so wide. -/
def cell (width : ℕ) (s : Text) : Text := (s.take width).rdropWhile (· = ' ')

theorem length_padRight {width : ℕ} {s : Text} (h : s.length ≤ width) :
    (padRight width s).length = width := by
  rw [padRight, List.length_append, List.length_replicate]
  omega

/-- Behind a cell that fits its column the next column begins. -/
theorem drop_padRight {width : ℕ} {s : Text} (h : s.length ≤ width) (rest : Text) :
    (padRight width s ++ rest).drop width = rest :=
  List.drop_left' (length_padRight h)

/-- **A cell that fits its column is read back**, if it does not end with a blank. -/
theorem cell_padRight {width : ℕ} {s : Text} (h : s.length ≤ width) (hlast : s.getLast? ≠ some ' ')
    (rest : Text) : cell width (padRight width s ++ rest) = s := by
  have hkept : ∀ c, s.getLast? = some c → decide (c = ' ') = false := by
    intro c hc
    refine decide_eq_false fun heq => hlast ?_
    rw [hc, heq]
  have hblanks : (List.replicate (width - s.length) ' ').rdropWhile (· = ' ') = [] := by
    rw [List.rdropWhile_eq_nil_iff]
    intro c hc
    exact decide_eq_true (List.eq_of_mem_replicate hc)
  rw [cell, List.take_left' (length_padRight h), padRight, rdropWhile_append_of_last hkept,
    hblanks, List.append_nil]

end Layout
