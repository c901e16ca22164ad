/-
**The most frequent ports.**

`top_n` walks a ranked table of ports and keeps each port the first time it meets it, until it has
enough.  Whether it has enough is asked after a port is kept, so that a request for no port at all
gets one.

Main definitions:

* `Rnmap.top` — the ranked table;
* `Rnmap.topLoop`, `Rnmap.topOf`, `Rnmap.topN` — the loop, over any table and over this one;
* `Rnmap.portSet` — the ports of a call of the command line;
* `Rnmap.FirstDistinct` — the first distinct entries of a table.

Main results:

* `Rnmap.topOf_eq` — **what the loop returns**, for every table;
* `Rnmap.first_distinct_iff` — **when these are the first distinct entries**;
* `Rnmap.nodup_portSet` — the ports of a call are distinct.
-/

import Rnmap.Ports

set_option relaxedAutoImplicit false
set_option autoImplicit false

namespace Rnmap

/-! ### The loop -/

/-- The ranked table. -/
def top : List UInt16 :=
  [80, 23, 443, 21, 22, 25, 3389, 110, 445, 139, 143, 53, 135, 3306, 8080, 1723, 111, 995, 993,
    5900, 1025, 587, 8888, 199, 1720, 465, 548, 113, 81, 6001, 10000, 514, 5060, 179, 1026, 2000,
    8443, 8000, 32768, 554, 26, 1433, 49152, 2001, 515, 8008, 49154, 1027, 5666, 646, 5000, 5631,
    631, 49153, 8081, 2049, 88, 79, 5800, 106, 2121, 1110, 49155, 6000, 513, 990, 5357, 427,
    49156, 543, 544, 5101, 144, 7, 389, 8009, 3128, 444, 9999, 5009, 7070, 5190, 3000, 5432, 1900,
    3986, 13, 1029, 9, 5051, 6646, 49157, 1028, 873, 1755, 2717, 4899, 9100, 119, 37, 1000, 3001,
    5001, 82, 10010, 1030, 9090, 2107, 1024, 2103, 6004, 1801, 5050, 19, 8031, 1041, 255, 2967,
    1049, 1048, 2105, 1053, 3703, 1056, 1065, 1064, 1054, 17, 808, 3689, 1031, 1044, 1071, 5901,
    100, 9102, 8010, 2869, 1039, 5120, 4001, 9000, 2105, 636, 1038, 2601, 1, 7000, 1066, 1069,
    625, 311, 280, 254, 4000, 5009, 800, 1033, 1040, 1059, 1066, 1067, 1068, 1043, 1070, 1062,
    1051, 1052, 1097, 1098, 1099, 8181, 8090, 8443, 9001, 9080, 9200, 27017, 27018, 28017, 6379,
    11211, 1521, 5432, 8086, 5601, 9300, 4040, 18080, 19999, 35357, 7777, 7474, 9418, 4848, 8161,
    8443]

/-- The loop over the entries that are left; `seen` is the set of the ports met, and `out` their
list. -/
def topLoop (n : ℕ) : List UInt16 → SortedSet UInt16 → List UInt16 → List UInt16
  | [], _, out => out
  | p :: ps, seen, out =>
      if p ∈ seen then topLoop n ps seen out
      else if n ≤ (out ++ [p]).length then out ++ [p]
      else topLoop n ps (insertPort seen p) (out ++ [p])

/-- The loop over a whole table. -/
def topOf (n : ℕ) (table : List UInt16) : List UInt16 := topLoop n table SortedSet.empty []

/-- `top_n`. -/
def topN (n : ℕ) : List UInt16 := topOf n top

/-- The ports of a call of the command line: those of `-p`, or else the most frequent ones, as many
as `--top-ports` asks for. -/
def portSet (ports : Option Text) (topPorts : Option ℕ) : Except Error PortSpec :=
  match ports, topPorts with
  | some p, _ => PortSpec.parse p
  | none, some n => .ok ⟨topN n⟩
  | none, none => .ok ⟨topN 100⟩

/-! ### First occurrences -/

/-- The first occurrences in a list are distinct. -/
theorem nodup_eraseDups {α : Type} [DecidableEq α] (as : List α) : as.eraseDups.Nodup := by
  induction hn : as.length using Nat.strong_induction_on generalizing as with
  | _ n ih =>
      cases as with
      | nil => exact List.nodup_nil
      | cons a as =>
          rw [List.eraseDups_cons, List.nodup_cons]
          refine ⟨fun hmem => ?_, ih _ ?_ _ rfl⟩
          · have hne := (List.mem_filter.1 (List.mem_eraseDups.1 hmem)).2
            simp at hne
          · rw [← hn, List.length_cons]
            exact Nat.lt_succ_of_le (List.length_filter_le _ as)

/-- The entries that are left once some ports are met. -/
def unseen (out ps : List UInt16) : List UInt16 := (ps.filter fun p => p ∉ out).eraseDups

theorem unseen_cons_of_mem {out ps : List UInt16} {p : UInt16} (h : p ∈ out) :
    unseen out (p :: ps) = unseen out ps := by
  rw [unseen, List.filter_cons_of_neg (by simpa using h), ← unseen]

theorem unseen_cons_of_notMem {out ps : List UInt16} {p : UInt16} (h : p ∉ out) :
    unseen out (p :: ps) = p :: unseen (out ++ [p]) ps := by
  rw [unseen, List.filter_cons_of_pos (by simpa using h), List.eraseDups_cons, List.filter_filter,
    unseen]
  congr 3
  funext q
  rw [Bool.eq_iff_iff]
  simp [and_comm]

/-- **The invariant of the loop**: `out` holds what was met, and the loop adds what is still unseen
until there are `n` ports. -/
theorem topLoop_eq {n : ℕ} (ps : List UInt16) {seen : SortedSet UInt16} {out : List UInt16}
    (hseen : ∀ p, p ∈ seen ↔ p ∈ out) (hlen : out.length < n) :
    topLoop n ps seen out = out ++ (unseen out ps).take (n - out.length) := by
  induction ps generalizing seen out with
  | nil => simp [topLoop, unseen]
  | cons p ps ih =>
      rw [topLoop]
      by_cases hp : p ∈ out
      · rw [if_pos ((hseen p).2 hp), unseen_cons_of_mem hp]
        exact ih hseen hlen
      · have hlen' : (out ++ [p]).length = out.length + 1 := by simp
        rw [if_neg (mt (hseen p).1 hp), unseen_cons_of_notMem hp,
          show n - out.length = n - (out ++ [p]).length + 1 by omega, List.take_succ_cons]
        split_ifs with henough
        · rw [show n - (out ++ [p]).length = 0 by omega, List.take_zero]
        · have hseen' : ∀ q, q ∈ insertPort seen p ↔ q ∈ out ++ [p] := by
            intro q
            rw [mem_insertPort, hseen, List.mem_append, List.mem_singleton, or_comm]
          rw [ih hseen' (by omega), List.append_assoc]
          rfl

/-- Asking for no port is asking for one. -/
theorem topLoop_zero (ps : List UInt16) (seen : SortedSet UInt16) (out : List UInt16) :
    topLoop 0 ps seen out = topLoop 1 ps seen out := by
  induction ps generalizing seen out with
  | nil => rfl
  | cons p ps ih =>
      rw [topLoop, topLoop, ih]
      by_cases hp : p ∈ seen
      · rw [if_pos hp, if_pos hp]
      · rw [if_neg hp, if_neg hp, if_pos (Nat.zero_le _), if_pos (by simp)]

/-- **What the loop returns**: the first `n` distinct entries of the table, or the first one when
`n` is zero. -/
theorem topOf_eq (n : ℕ) (table : List UInt16) :
    topOf n table = table.eraseDups.take (max n 1) := by
  have hseen : ∀ p, p ∈ (SortedSet.empty : SortedSet UInt16) ↔ p ∈ ([] : List UInt16) :=
    fun p => Iff.rfl
  have hall : unseen [] table = table.eraseDups := by simp [unseen]
  have hpos : ∀ n, 0 < n → topOf n table = table.eraseDups.take n := by
    intro n hn
    rw [topOf, topLoop_eq table hseen hn, hall]
    rfl
  rcases Nat.eq_zero_or_pos n with rfl | hn
  · rw [topOf, topLoop_zero]
    exact hpos 1 Nat.one_pos
  · rw [hpos n hn, Nat.max_eq_left hn]

/-! ### The first distinct entries -/

/-- **The loop returns the first `n` distinct entries of a table**: all distinct, those that are
left once later repetitions are removed, and less of them for a smaller `n`. -/
structure FirstDistinct (table : List UInt16) (n : ℕ) : Prop where
  nodup : (topOf n table).Nodup
  eq : topOf n table = table.eraseDups.take (min n table.eraseDups.length)
  monotone : ∀ m ≤ n, topOf m table <+: topOf n table

theorem nodup_topOf (n : ℕ) (table : List UInt16) : (topOf n table).Nodup := by
  rw [topOf_eq]
  exact (nodup_eraseDups table).sublist (List.take_sublist _ _)

theorem nodup_topN (n : ℕ) : (topN n).Nodup := nodup_topOf n top

theorem topOf_prefix {m n : ℕ} (h : m ≤ n) (table : List UInt16) :
    topOf m table <+: topOf n table := by
  rw [topOf_eq, topOf_eq]
  exact List.take_prefix_take_left (by omega)

/-- **When the loop returns the first distinct entries**: when some are asked for, or there are
none. -/
theorem first_distinct_iff (table : List UInt16) (n : ℕ) :
    FirstDistinct table n ↔ n ≠ 0 ∨ table = [] := by
  constructor
  · intro h
    by_contra hnot
    obtain ⟨hn, hne⟩ := not_or.1 hnot
    obtain rfl := not_not.1 hn
    have heq := h.eq
    obtain ⟨p, ps, rfl⟩ := List.exists_cons_of_ne_nil hne
    rw [topOf_eq, List.eraseDups_cons] at heq
    simp at heq
  · intro h
    refine ⟨nodup_topOf n table, ?_, fun m hm => topOf_prefix hm table⟩
    rw [topOf_eq, List.take_eq_take_iff]
    rcases h with hn | rfl
    · omega
    · simp

/-- `--top-ports 0` scans a port. -/
theorem top_zero_returns_port : ¬ FirstDistinct top 0 := by
  intro h
  have heq := h.eq
  rw [Nat.zero_min, List.take_zero] at heq
  exact absurd heq (by decide)

/-! ### The ports of a call -/

/-- **The ports of a call are distinct.** -/
theorem nodup_portSet {ports : Option Text} {topPorts : Option ℕ} {spec : PortSpec}
    (h : portSet ports topPorts = .ok spec) : spec.ports.Nodup := by
  unfold portSet at h
  split at h
  · obtain ⟨-, hden⟩ := parse_eq_ok_iff.1 h
    exact hden.ascending.imp fun hlt => UInt16.ne_of_lt hlt
  · obtain rfl := Except.ok.inj h
    exact nodup_topN _
  · obtain rfl := Except.ok.inj h
    dsimp only
    exact nodup_topN 100

end Rnmap
