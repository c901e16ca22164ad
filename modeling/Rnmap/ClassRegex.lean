/-
**Regular expressions of repeated classes.**

The signatures of a banner matcher are sequences of character classes, each matched once, at least
once, or any number of times, with some stretches captured in groups, and with an anchor that looks
at the character before the match.  A match is searched from left to right; at one position the
repetitions are greedy and give characters back one by one until the rest matches, so that the
match found is the one of highest preference.  For patterns of these forms, and for no others, this
is the leftmost-first semantics that Rust's `regex` documents.

Main definitions:

* `ClassRegex.Piece`, `ClassRegex.Regex` — a repeated class, and an expression;
* `ClassRegex.matchPieces`, `ClassRegex.Regex.captures` — matching at a position and searching;
* `ClassRegex.Regex.group` — the text of a group;
* `ClassRegex.Fits` — a text of the right length with all characters in the class.

Main results:

* `ClassRegex.matchPieces_isSome_iff` — **when an expression matches at a position**;
* `ClassRegex.Regex.fits_of_captures`, `ClassRegex.Regex.mem_group` — what a match found consists
  of;
* `ClassRegex.Regex.captures_of_textStart` — an expression anchored at the start of the text;
* `ClassRegex.matchPieces_last`, `ClassRegex.matchPieces_plus` — when a repetition takes all it
  can;
* `ClassRegex.Regex.group_ne_nil` — a group is not empty if one of its pieces cannot be.
-/

import Mathlib.Tactic

set_option relaxedAutoImplicit false
set_option autoImplicit false

universe u

namespace ClassRegex

variable {α : Type u}

/-- How often a class is matched: `x`, `x+` or `x*`. -/
inductive Rep
  | one
  | plus
  | star
  deriving DecidableEq, Repr

/-- A repeated class, in a group; group zero is outside all groups. -/
structure Piece (α : Type u) where
  group : ℕ
  rep : Rep
  cls : α → Bool

/-- An expression: its anchor, a test of the character before the match, and its pieces. -/
structure Regex (α : Type u) where
  anchor : Option α → Bool
  pieces : List (Piece α)

/-- The anchor that holds at the start of the text only. -/
def textStart (prev : Option α) : Bool := prev.isNone

/-- No anchor. -/
def anywhere (_prev : Option α) : Bool := true

/-! ### Matching -/

/-- The numbers of characters a piece may take, in order of preference. -/
def Piece.widths (p : Piece α) (s : List α) : List ℕ :=
  let run := (s.takeWhile p.cls).length
  match p.rep with
  | .one => if 0 < run then [1] else []
  | .plus => (List.range' 1 run).reverse
  | .star => (List.range (run + 1)).reverse

/-- Match pieces at the start of a text: what each of them takes. -/
def matchPieces : List (Piece α) → List α → Option (List (List α))
  | [], _ => some []
  | p :: ps, s =>
      (p.widths s).findSome? fun k => (matchPieces ps (s.drop k)).map fun m => s.take k :: m

namespace Regex

/-- Match at one position, after the character `prev`. -/
def matchAt (re : Regex α) (prev : Option α) (s : List α) : Option (List (List α)) :=
  if re.anchor prev then matchPieces re.pieces s else none

/-- The leftmost match, from a position after the character `prev`. -/
def search (re : Regex α) : Option α → List α → Option (List (List α))
  | prev, [] => re.matchAt prev []
  | prev, c :: s => (re.matchAt prev (c :: s)).or (re.search (some c) s)

/-- The leftmost match in a text. -/
def captures (re : Regex α) (s : List α) : Option (List (List α)) := re.search none s

/-- Whether there is a match. -/
def isMatch (re : Regex α) (s : List α) : Bool := (re.captures s).isSome

/-- The text of a group in a match. -/
def group (re : Regex α) (i : ℕ) (m : List (List α)) : List α :=
  ((re.pieces.zip m).filter fun x => x.1.group = i).flatMap fun x => x.2

end Regex

/-! ### What a match consists of -/

/-- The number of characters a repetition takes. -/
def Rep.Admits : Rep → ℕ → Prop
  | .one, k => k = 1
  | .plus, k => 1 ≤ k
  | .star, _ => True

/-- A text a piece may take. -/
def Fits (p : Piece α) (t : List α) : Prop :=
  (∀ c ∈ t, p.cls c = true) ∧ p.rep.Admits t.length

theorem fits_singleton {p : Piece α} {c : α} (hcls : p.cls c = true) (hone : p.rep.Admits 1) :
    Fits p [c] :=
  ⟨fun _ hd => List.mem_singleton.1 hd ▸ hcls, hone⟩

/-- How far a class reaches. -/
theorem le_length_takeWhile {f : α → Bool} {s : List α} {k : ℕ} :
    k ≤ (s.takeWhile f).length ↔ k ≤ s.length ∧ ∀ c ∈ s.take k, f c = true := by
  induction s generalizing k with
  | nil => simp
  | cons c s ih =>
      cases k with
      | zero => simp
      | succ k =>
          rw [List.takeWhile_cons, List.take_succ_cons, List.length_cons, List.forall_mem_cons]
          cases hc : f c with
          | true => simp [ih]
          | false => simp

/-- A piece may take the prefixes that fit it. -/
theorem mem_widths_iff {p : Piece α} {s : List α} {k : ℕ} :
    k ∈ p.widths s ↔ k ≤ s.length ∧ Fits p (s.take k) := by
  have hwidths : k ∈ p.widths s ↔ k ≤ (s.takeWhile p.cls).length ∧ p.rep.Admits k := by
    unfold Piece.widths
    cases p.rep with
    | one =>
        dsimp only [Rep.Admits]
        split_ifs with hrun
        · rw [List.mem_singleton]
          omega
        · simp only [List.not_mem_nil, false_iff]
          omega
    | plus =>
        dsimp only [Rep.Admits]
        rw [List.mem_reverse, List.mem_range'_1]
        omega
    | star =>
        dsimp only [Rep.Admits]
        rw [List.mem_reverse, List.mem_range, and_true]
        exact Nat.lt_succ_iff
  rw [hwidths, le_length_takeWhile, and_assoc, Fits]
  refine and_congr_right fun hk => ?_
  rw [List.length_take_of_le hk]

/-- What the pieces take fits them and makes up a prefix of the text. -/
theorem fits_of_matchPieces {ps : List (Piece α)} {s : List α} {m : List (List α)}
    (h : matchPieces ps s = some m) : List.Forall₂ Fits ps m ∧ m.flatten <+: s := by
  induction ps generalizing s m with
  | nil =>
      cases h
      exact ⟨.nil, List.nil_prefix⟩
  | cons p ps ih =>
      obtain ⟨k, hk, hrest⟩ := List.exists_of_findSome?_eq_some h
      obtain ⟨m', hm', rfl⟩ := Option.map_eq_some_iff.1 hrest
      obtain ⟨hfits, hpre⟩ := ih hm'
      refine ⟨.cons (mem_widths_iff.1 hk).2 hfits, ?_⟩
      rw [List.flatten_cons]
      conv_rhs => rw [← List.take_append_drop k s]
      exact (List.prefix_append_right_inj _).2 hpre

/-- Pieces match when some texts that fit them make up a prefix. -/
theorem matchPieces_isSome {ps : List (Piece α)} {s : List α} {m : List (List α)}
    (h : List.Forall₂ Fits ps m) (hpre : m.flatten <+: s) : (matchPieces ps s).isSome := by
  induction h generalizing s with
  | nil => rfl
  | @cons p t ps m hfits _ ih =>
      obtain ⟨u, rfl⟩ := hpre
      rw [List.flatten_cons, List.append_assoc, matchPieces, List.findSome?_isSome_iff]
      refine ⟨t.length, mem_widths_iff.2 ⟨by simp, ?_⟩, ?_⟩
      · rwa [List.take_left]
      · rw [Option.isSome_map, List.drop_left]
        exact ih (List.prefix_append _ _)

/-- **When an expression matches at a position**: some prefix is made up of texts that fit the
pieces. -/
theorem matchPieces_isSome_iff {ps : List (Piece α)} {s : List α} :
    (matchPieces ps s).isSome ↔ ∃ m, List.Forall₂ Fits ps m ∧ m.flatten <+: s := by
  constructor
  · intro h
    obtain ⟨m, hm⟩ := Option.isSome_iff_exists.1 h
    exact ⟨m, fits_of_matchPieces hm⟩
  · rintro ⟨m, hfits, hpre⟩
    exact matchPieces_isSome hfits hpre

/-- Pieces with larger classes match whatever the pieces match. -/
theorem matchPieces_isSome_mono {ps qs : List (Piece α)} {s : List α}
    (h : List.Forall₂ (fun p q => p.rep = q.rep ∧ ∀ c, p.cls c = true → q.cls c = true) ps qs)
    (hmatch : (matchPieces ps s).isSome) : (matchPieces qs s).isSome := by
  obtain ⟨m, hfits, hpre⟩ := matchPieces_isSome_iff.1 hmatch
  refine matchPieces_isSome ?_ hpre
  clear hmatch hpre
  -- the texts that fit the pieces fit the larger ones, piece by piece
  induction h generalizing m with
  | nil => exact hfits
  | @cons p q ps qs hpq _ ih =>
      cases hfits with
      | @cons _ t _ m ht hrest =>
          refine .cons ⟨fun c hc => hpq.2 c (ht.1 c hc), ?_⟩ (ih m hrest)
          rw [← hpq.1]
          exact ht.2

theorem take_run (f : α → Bool) (s : List α) :
    s.take (s.takeWhile f).length = s.takeWhile f :=
  (List.prefix_iff_eq_take.1 (List.takeWhile_prefix f)).symm

theorem drop_run (f : α → Bool) (s : List α) :
    s.drop (s.takeWhile f).length = s.dropWhile f := by
  calc s.drop (s.takeWhile f).length
      = (s.takeWhile f ++ s.dropWhile f).drop (s.takeWhile f).length := by
        rw [List.takeWhile_append_dropWhile]
    _ = s.dropWhile f := List.drop_left

/-- A repetition at the end takes all it can. -/
theorem matchPieces_last (p : Piece α) (hp : p.rep = .plus) {s : List α}
    (h : s.takeWhile p.cls ≠ []) : matchPieces [p] s = some [s.takeWhile p.cls] := by
  have hlen : 0 < (s.takeWhile p.cls).length := List.length_pos_iff.2 h
  obtain ⟨n, hn⟩ : ∃ n, (s.takeWhile p.cls).length = n + 1 :=
    ⟨(s.takeWhile p.cls).length - 1, by omega⟩
  have htake : s.take (n + 1) = s.takeWhile p.cls := by
    rw [← hn]
    exact take_run p.cls s
  -- the longest width is tried first, and nothing after it can fail
  simp only [matchPieces, Piece.widths, hp, hn, List.range'_concat, List.reverse_append,
    List.reverse_singleton, List.singleton_append, List.findSome?_cons, Option.map_some]
  rw [Nat.one_mul, Nat.add_comm, htake]

/-- A repetition at the end that can take nothing does not match. -/
theorem matchPieces_last_nil (p : Piece α) (hp : p.rep = .plus) {s : List α}
    (h : s.takeWhile p.cls = []) : matchPieces [p] s = none := by
  simp [matchPieces, Piece.widths, hp, h]

/-- A repetition takes all it can, when the pieces after it match what is left. -/
theorem matchPieces_star (p : Piece α) (hp : p.rep = .star) {ps : List (Piece α)} {s : List α}
    {m : List (List α)} (h : matchPieces ps (s.dropWhile p.cls) = some m) :
    matchPieces (p :: ps) s = some (s.takeWhile p.cls :: m) := by
  simp only [matchPieces, Piece.widths, hp, List.range_succ, List.reverse_append,
    List.reverse_singleton, List.singleton_append, List.findSome?_cons, drop_run, h,
    Option.map_some, take_run]

theorem matchPieces_one_nil (p : Piece α) (ps : List (Piece α)) (hp : p.rep = .one) :
    matchPieces (p :: ps) [] = none := by
  simp [matchPieces, Piece.widths, hp]

/-- A class matched once takes one character. -/
theorem matchPieces_one (p : Piece α) (ps : List (Piece α)) (hp : p.rep = .one) (c : α)
    (s : List α) :
    matchPieces (p :: ps) (c :: s) =
      if p.cls c then (matchPieces ps s).map fun m => [c] :: m else none := by
  simp only [matchPieces, Piece.widths, hp, List.takeWhile_cons]
  cases hc : p.cls c with
  | true =>
      simp only [if_true, List.length_cons, Nat.zero_lt_succ, List.findSome?_singleton,
        List.take_succ_cons, List.take_zero, List.drop_succ_cons, List.drop_zero]
  | false => simp

/-- A repetition takes all it can, when none of its characters is in the class that follows it. -/
theorem matchPieces_plus (p q : Piece α) (hp : p.rep = .plus) (hq : q.rep = .one)
    (hdisjoint : ∀ c, p.cls c = true → q.cls c = false) (ps : List (Piece α)) (s : List α) :
    matchPieces (p :: q :: ps) s =
      if s.takeWhile p.cls = [] then none
      else (matchPieces (q :: ps) (s.dropWhile p.cls)).map fun m => s.takeWhile p.cls :: m := by
  -- a shorter repetition leaves one of its characters to the class that follows
  have hshorter : ∀ k < (s.takeWhile p.cls).length, matchPieces (q :: ps) (s.drop k) = none := by
    intro k hk
    have hlen : k < s.length := hk.trans_le (List.takeWhile_prefix p.cls).length_le
    have hcls : p.cls s[k] = true := by
      refine (le_length_takeWhile.1 (Nat.succ_le_of_lt hk)).2 _ ?_
      rw [List.take_succ_eq_append_getElem hlen]
      exact List.mem_append_right _ List.mem_cons_self
    rw [List.drop_eq_getElem_cons hlen, matchPieces_one q ps hq, hdisjoint _ hcls,
      if_neg Bool.false_ne_true]
  cases hrun : (s.takeWhile p.cls).length with
  | zero =>
      have hnil : s.takeWhile p.cls = [] := List.length_eq_zero_iff.1 hrun
      simp [matchPieces, Piece.widths, hp, hnil]
  | succ n =>
      have hne : s.takeWhile p.cls ≠ [] := by
        intro hnil
        rw [hnil] at hrun
        cases hrun
      have hnone : (List.range' 1 n).reverse.findSome?
          (fun k => (matchPieces (q :: ps) (s.drop k)).map fun m => s.take k :: m) = none := by
        rw [List.findSome?_eq_none_iff]
        intro k hk
        have hbounds := List.mem_range'_1.1 (List.mem_reverse.1 hk)
        rw [hshorter k (by omega), Option.map_none]
      have htake := take_run p.cls s
      have hdrop := drop_run p.cls s
      rw [hrun] at htake hdrop
      rw [if_neg hne, matchPieces, Piece.widths, hp]
      dsimp only
      rw [hrun, List.range'_concat, List.reverse_append, List.reverse_singleton,
        List.singleton_append, List.findSome?_cons, hnone, Nat.one_mul, Nat.add_comm 1 n, htake,
        hdrop]
      split
      · rename_i m heq
        exact heq.symm
      · rename_i heq
        exact heq.symm

/-- What is left of a text behind characters of the given classes, one of each. -/
def skipClasses : List (α → Bool) → List α → Option (List α)
  | [], s => some s
  | _ :: _, [] => none
  | f :: fs, c :: s => if f c then skipClasses fs s else none

/-- What stands behind a character that no class admits is not skipped. -/
theorem skipClasses_append {fs : List (α → Bool)} {x : α} (hx : ∀ f ∈ fs, f x = false)
    (s t : List α) :
    skipClasses fs (s ++ x :: t) = (skipClasses fs s).map fun r => r ++ x :: t := by
  induction fs generalizing s with
  | nil => rfl
  | cons f fs ih =>
      obtain ⟨hf, hfs⟩ := List.forall_mem_cons.1 hx
      cases s with
      | nil => simp [skipClasses, hf]
      | cons c s =>
          rw [List.cons_append, skipClasses, skipClasses, ih hfs]
          split_ifs <;> rfl

/-! ### What a single piece takes -/

/-- The characters of a class that a text starts with, if there are any. -/
def leadingRun (f : α → Bool) (s : List α) : Option (List α) :=
  if s.takeWhile f = [] then none else some (s.takeWhile f)

/-- Behind classes matched once each. -/
theorem getD_matchPieces_ones (i : ℕ) (fs : List (α → Bool)) (ps : List (Piece α)) (k : ℕ)
    (s : List α) :
    (matchPieces (fs.map (fun f => ⟨i, .one, f⟩) ++ ps) s).map (fun m => m.getD (fs.length + k) [])
      = (skipClasses fs s).bind fun t => (matchPieces ps t).map fun m => m.getD k [] := by
  induction fs generalizing s with
  | nil => simp [skipClasses]
  | cons f fs ih =>
      cases s with
      | nil =>
          rw [List.map_cons, List.cons_append, matchPieces_one_nil _ _ rfl]
          rfl
      | cons c s =>
          rw [List.map_cons, List.cons_append, matchPieces_one _ _ rfl, skipClasses]
          split_ifs
          · rw [← ih, Option.map_map, List.length_cons, Nat.succ_add]
            rfl
          · rfl

/-- Behind a repetition in front of a class that has none of its characters. -/
theorem getD_matchPieces_plus (p : Piece α) (hp : p.rep = .plus) (j : ℕ) (f : α → Bool)
    (hdisjoint : ∀ c, p.cls c = true → f c = false) (ps : List (Piece α)) (k : ℕ) (s : List α) :
    (matchPieces (p :: ⟨j, .one, f⟩ :: ps) s).map (fun m => m.getD (k + 2) []) =
      (leadingRun p.cls s).bind fun _ => (skipClasses [f] (s.dropWhile p.cls)).bind fun t =>
        (matchPieces ps t).map fun m => m.getD k [] := by
  rw [matchPieces_plus p _ hp rfl hdisjoint, leadingRun]
  split_ifs
  · rfl
  · have hone := getD_matchPieces_ones j [f] ps k (s.dropWhile p.cls)
    rw [List.length_singleton, Nat.add_comm 1 k] at hone
    rw [Option.bind_some, ← hone, Option.map_map]
    rfl

/-- A repetition at the end. -/
theorem getD_matchPieces_last (p : Piece α) (hp : p.rep = .plus) (s : List α) :
    (matchPieces [p] s).map (fun m => m.getD 0 []) = leadingRun p.cls s := by
  rw [leadingRun]
  split_ifs with hnil
  · rw [matchPieces_last_nil p hp hnil]
    rfl
  · rw [matchPieces_last p hp hnil]
    rfl

/-! ### Searching -/

namespace Regex

variable {re : Regex α} {s : List α} {m : List (List α)}

/-- A match found is a match at some position. -/
theorem exists_of_search {prev : Option α} (h : re.search prev s = some m) :
    ∃ t, t <:+ s ∧ matchPieces re.pieces t = some m := by
  have hat : ∀ {prev s}, re.matchAt prev s = some m → matchPieces re.pieces s = some m := by
    intro prev s hmatch
    unfold matchAt at hmatch
    split_ifs at hmatch
    exact hmatch
  induction s generalizing prev with
  | nil => exact ⟨[], List.suffix_rfl, hat h⟩
  | cons c s ih =>
      rcases Option.or_eq_some_iff.1 h with hnow | ⟨-, hlater⟩
      · exact ⟨c :: s, List.suffix_rfl, hat hnow⟩
      · obtain ⟨t, ht, hm⟩ := ih hlater
        exact ⟨t, ht.trans (List.suffix_cons c s), hm⟩

/-- **What a match found consists of**: texts that fit the pieces and stand in the text one after
the other. -/
theorem fits_of_captures (h : re.captures s = some m) :
    List.Forall₂ Fits re.pieces m ∧ m.flatten <:+: s := by
  obtain ⟨t, ht, hm⟩ := exists_of_search h
  obtain ⟨hfits, hpre⟩ := fits_of_matchPieces hm
  exact ⟨hfits, hpre.isInfix.trans ht.isInfix⟩

/-- **The characters of a group** are characters of the text, in a class of the group. -/
theorem mem_group (h : re.captures s = some m) {i : ℕ} {c : α} (hc : c ∈ re.group i m) :
    c ∈ s ∧ ∃ p ∈ re.pieces, p.group = i ∧ p.cls c = true := by
  obtain ⟨hfits, hstands⟩ := fits_of_captures h
  unfold group at hc
  obtain ⟨⟨p, t⟩, hx, hct⟩ := List.mem_flatMap.1 hc
  obtain ⟨hzip, hgroup⟩ := List.mem_filter.1 hx
  have hmem := List.of_mem_zip hzip
  refine ⟨hstands.subset (List.mem_flatten.2 ⟨t, hmem.2, hct⟩), p, hmem.1,
    of_decide_eq_true hgroup, ?_⟩
  exact ((List.forall₂_iff_zip.1 hfits).2 hzip).1 c hct

/-- **A group is not empty** if one of its pieces cannot be. -/
theorem group_ne_nil (h : re.captures s = some m) {p : Piece α} (hp : p ∈ re.pieces)
    (hrep : ¬ p.rep.Admits 0) : re.group p.group m ≠ [] := by
  obtain ⟨hlen, hfits⟩ := List.forall₂_iff_zip.1 (fits_of_captures h).1
  obtain ⟨i, hi, rfl⟩ := List.mem_iff_getElem.1 hp
  have hi' : i < m.length := hlen ▸ hi
  have hzip : (re.pieces[i], m[i]) ∈ re.pieces.zip m := by
    have hlt : i < (re.pieces.zip m).length := by
      rw [List.length_zip]
      omega
    rw [← List.getElem_zip (h := hlt)]
    exact List.getElem_mem hlt
  have hne : m[i] ≠ [] := by
    intro hnil
    refine hrep ?_
    have hadmits := (hfits hzip).2
    rw [hnil] at hadmits
    exact hadmits
  intro hgroup
  refine hne (List.flatMap_eq_nil_iff.1 hgroup _ (List.mem_filter.2 ⟨hzip, ?_⟩))
  exact decide_eq_true rfl

/-- Pieces of other groups do not count for a group. -/
theorem group_append {ps qs : List (Piece α)} (hre : re.pieces = ps ++ qs) {i : ℕ}
    (hps : ∀ p ∈ ps, p.group ≠ i) {m₁ m₂ : List (List α)} (hlen : ps.length = m₁.length) :
    re.group i (m₁ ++ m₂) = ((qs.zip m₂).filter fun x => x.1.group = i).flatMap fun x => x.2 := by
  have hnone : (ps.zip m₁).filter (fun x => decide (x.1.group = i)) = [] :=
    List.filter_eq_nil_iff.2 fun x hx =>
      by simpa using hps x.1 (List.of_mem_zip hx).1
  rw [group, hre, List.zip_append hlen, List.filter_append, hnone, List.nil_append]

/-- The group of the last piece is what that piece takes. -/
theorem map_group_last {ps : List (Piece α)} {p : Piece α} (hre : re.pieces = ps ++ [p])
    (hps : ∀ q ∈ ps, q.group ≠ p.group) (s : List α) :
    (matchPieces re.pieces s).map (re.group p.group) =
      (matchPieces re.pieces s).map fun m => m.getD ps.length [] := by
  cases hm : matchPieces re.pieces s with
  | none => rfl
  | some m =>
      have hlen : m.length = ps.length + 1 := by
        rw [← (fits_of_matchPieces hm).1.length_eq, hre, List.length_append, List.length_singleton]
      obtain ⟨m₁, t, rfl⟩ : ∃ m₁ t, m = m₁ ++ [t] := by
        rcases List.eq_nil_or_concat' m with rfl | hm
        · cases hlen
        · exact hm
      have hlen₁ : ps.length = m₁.length := by
        rw [List.length_append, List.length_singleton] at hlen
        omega
      have hlast : (m₁ ++ [t]).getD m₁.length [] = t := by
        rw [List.getD_eq_getElem?_getD, List.getElem?_concat_length, Option.getD_some]
      rw [Option.map_some, Option.map_some, group_append hre hps hlen₁, hlen₁, hlast]
      simp

/-- An expression anchored at the start of the text is matched there only. -/
theorem captures_of_textStart (hre : re.anchor = textStart) :
    re.captures s = matchPieces re.pieces s := by
  have hlater : ∀ (c : α) t, re.search (some c) t = none := by
    intro c t
    induction t generalizing c with
    | nil => simp [search, matchAt, hre, textStart]
    | cons d t ih => simp [search, matchAt, hre, textStart, ih]
  cases s with
  | nil => simp [captures, search, matchAt, hre, textStart]
  | cons c s => simp [captures, search, matchAt, hre, textStart, hlater]

end Regex

end ClassRegex
