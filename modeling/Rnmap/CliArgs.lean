/-
**Rewriting Nmap-style arguments.**

The command line knows Nmap's compound flags as long options and rewrites `-sS` to `--sS` and
`-PS22` to `--PS 22` before it is parsed.  One table holds the flags that take a value and those
that do not, and arguments are sliced by byte offsets behind a test of their length in bytes.

Main definitions:

* `Rnmap.rewriteArg`, `Rnmap.rewriteNmapArgs` — the rewriting; `none` is a panic;
* `Rnmap.CutsChar` — the arguments a slice of which cuts a character;
* `Rnmap.cliCompound`, `Rnmap.NeverInvents` — the flags the command line declares, and what it means
  that rewriting makes no argument of its own;
* `Rnmap.Harmless` — the arguments of which it makes none.

Main results:

* `Rnmap.rewriteArg_eq_none_iff`, `Rnmap.rewriteArg_cases` — what becomes of an argument;
* `Rnmap.rewrite_returns_iff` — **when rewriting does not panic**;
* `Rnmap.never_invents_iff` — **when rewriting invents no argument**.
-/

import Rnmap.Text
import Rnmap.Utf8

set_option relaxedAutoImplicit false
set_option autoImplicit false

namespace Rnmap

open Utf8 String

/-! ### The rewriting -/

/-- `NMAP_FLAGS`: multi-char flags whose first letter is a "verb". -/
def nmapFlags : List Text :=
  ["Pn".toList, "PE".toList, "PS".toList, "PA".toList, "PU".toList, "PR".toList, "sS".toList,
    "sT".toList, "sU".toList, "sV".toList, "sN".toList, "sF".toList, "sX".toList, "sA".toList,
    "sW".toList, "sM".toList, "sO".toList, "sY".toList, "oN".toList, "oX".toList, "oJ".toList,
    "oG".toList, "oA".toList, "oS".toList]

/-- The argument starts with one dash and not with two. -/
def singleDash (a : Text) : Bool := ['-'].isPrefixOf a && !(['-', '-'].isPrefixOf a)

/-- One round of the loop: what is pushed for an argument, or `none` when a slice panics. -/
def rewriteArg (a : Text) : Option (List Text) :=
  if utf8Len a = 3 ∧ singleDash a then
    -- an argument that is no flag fails the next test of the length, and is pushed as it is
    (sliceEnd a 1).map fun tail => if tail ∈ nmapFlags then ["--".toList ++ tail] else [a]
  else if 3 < utf8Len a ∧ singleDash a then
    (slice a 1 3).bind fun two =>
      if two ∈ nmapFlags then (sliceEnd a 3).map fun value => ["--".toList ++ two, value]
      else some [a]
  else some [a]

/-- `rewrite_nmap_args`; `none` when it panics. -/
def rewriteNmapArgs (input : List Text) : Option (List Text) :=
  (input.mapM rewriteArg).map List.flatten

/-! ### What becomes of an argument -/

theorem singleDash_iff {a : Text} :
    singleDash a = true ↔ ∃ s, a = '-' :: s ∧ s.head? ≠ some '-' := by
  unfold singleDash
  rcases a with _ | ⟨c, s⟩
  · simp
  · by_cases hc : c = '-'
    · subst hc
      rcases s with _ | ⟨d, s⟩
      · simp [List.isPrefixOf]
      · by_cases hd : d = '-'
        · simp [List.isPrefixOf, hd]
        · simp [List.isPrefixOf, hd, Ne.symm hd]
    · simp [List.isPrefixOf, hc, Ne.symm hc]

/-- The flags are two characters of one byte, and the first is no dash. -/
theorem nmapFlags_spec : ∀ F ∈ nmapFlags, utf8Len F = 2 ∧ F.length = 2 ∧ F.head? ≠ some '-' := by
  decide +kernel

theorem utf8Len_dash (s : Text) : utf8Len ('-' :: s) = utf8Len s + 1 := rfl

theorem singleDash_flag {F : Text} (hF : F ∈ nmapFlags) (text : Text) :
    singleDash ('-' :: F ++ text) = true := by
  obtain ⟨-, hlength, hhead⟩ := nmapFlags_spec F hF
  refine singleDash_iff.2 ⟨F ++ text, rfl, ?_⟩
  cases F with
  | nil => cases hlength
  | cons c F => exact hhead

/-- A flag alone becomes the long option. -/
theorem rewriteArg_flag {F : Text} (hF : F ∈ nmapFlags) :
    rewriteArg ('-' :: F) = some ["--".toList ++ F] := by
  have hlen : utf8Len ('-' :: F) = 3 := by
    rw [utf8Len_dash, (nmapFlags_spec F hF).1]
  have hdash : singleDash ('-' :: F) = true := by
    simpa using singleDash_flag hF []
  have hslice : sliceEnd ('-' :: F) 1 = some F := sliceEnd_eq_some_iff.2 ⟨['-'], rfl, rfl⟩
  rw [rewriteArg, if_pos ⟨hlen, hdash⟩, hslice, Option.map_some, if_pos hF]

/-- **A flag with text behind it** becomes the long option and the text. -/
theorem rewriteArg_compound {F text : Text} (hF : F ∈ nmapFlags) (htext : text ≠ []) :
    rewriteArg ('-' :: F ++ text) = some ["--".toList ++ F, text] := by
  have hflag : utf8Len ('-' :: F) = 3 := by
    rw [utf8Len_dash, (nmapFlags_spec F hF).1]
  have hlen : 3 < utf8Len ('-' :: F ++ text) := by
    rw [utf8Len_append, hflag]
    have : utf8Len text ≠ 0 := fun h => htext (utf8Len_eq_zero.1 h)
    omega
  have htwo : slice ('-' :: F ++ text) 1 3 = some F :=
    slice_eq_some_iff.2 ⟨['-'], text, rfl, rfl, hflag⟩
  have hvalue : sliceEnd ('-' :: F ++ text) 3 = some text :=
    sliceEnd_eq_some_iff.2 ⟨'-' :: F, rfl, hflag⟩
  rw [rewriteArg, if_neg fun h => by omega, if_pos ⟨hlen, singleDash_flag hF text⟩, htwo,
    Option.bind_some, if_pos hF, hvalue, Option.map_some]

/-- The first byte of an argument with a dash is the dash. -/
theorem eq_dash_of_utf8Len {s p t : Text} (h : '-' :: s = p ++ t) (hlen : utf8Len p = 1) :
    p = ['-'] := by
  cases p with
  | nil => cases hlen
  | cons c p =>
      obtain ⟨rfl, -⟩ := List.cons.inj h
      rw [utf8Len_dash] at hlen
      rw [utf8Len_eq_zero.1 (by omega : utf8Len p = 0)]

/-- **What becomes of an argument**: it stays as it is, or it is a flag, alone or with text behind
it. -/
theorem rewriteArg_cases {a : Text} {part : List Text} (h : rewriteArg a = some part) :
    part = [a] ∨ (∃ F ∈ nmapFlags, a = '-' :: F ∧ part = ["--".toList ++ F]) ∨
      ∃ F ∈ nmapFlags, ∃ text, text ≠ [] ∧ a = '-' :: F ++ text ∧
        part = ["--".toList ++ F, text] := by
  unfold rewriteArg at h
  split_ifs at h with hthree hlong
  · obtain ⟨tail, hslice, hpart⟩ := Option.map_eq_some_iff.1 h
    obtain ⟨p, hp, hlen⟩ := sliceEnd_eq_some_iff.1 hslice
    obtain ⟨s, rfl, -⟩ := singleDash_iff.1 hthree.2
    obtain rfl := eq_dash_of_utf8Len hp hlen
    split_ifs at hpart with hflag
    · exact .inr (.inl ⟨tail, hflag, hp, hpart.symm⟩)
    · exact .inl hpart.symm
  · obtain ⟨two, hslice, hpart⟩ := Option.bind_eq_some_iff.1 h
    obtain ⟨p, text, hp, hlen, -⟩ := slice_eq_some_iff.1 hslice
    obtain ⟨s, rfl, -⟩ := singleDash_iff.1 hlong.2
    obtain rfl := eq_dash_of_utf8Len (hp.trans (List.append_assoc _ _ _)) hlen
    split_ifs at hpart with hflag
    · have htext : text ≠ [] := by
        rintro rfl
        have hflagLen := (nmapFlags_spec two hflag).1
        rw [hp, List.append_nil, List.singleton_append, utf8Len_dash] at hlong
        omega
      have hcompound := rewriteArg_compound hflag htext
      refine .inr (.inr ⟨two, hflag, text, htext, hp, ?_⟩)
      obtain ⟨value, hvalue, rfl⟩ := Option.map_eq_some_iff.1 hpart
      have htail : sliceEnd ('-' :: s) 3 = some text :=
        sliceEnd_eq_some_iff.2 ⟨'-' :: two, hp, by rw [utf8Len_dash, (nmapFlags_spec two hflag).1]⟩
      rw [Option.some.inj (hvalue.symm.trans htail)]
    · exact .inl (Option.some.inj hpart).symm
  · exact .inl (Option.some.inj h).symm

/-! ### Panics -/

/-- The third byte behind the dash is inside a character: the first character behind the dash has
three bytes or more, or it has one, is no dash, and the next has two or more. -/
def CutsChar (a : Text) : Prop :=
  ∃ c rest, a = '-' :: c :: rest ∧
    (3 ≤ c.utf8Size ∨
      (c ≠ '-' ∧ c.utf8Size = 1 ∧ ∃ d rest', rest = d :: rest' ∧ 2 ≤ d.utf8Size))

theorem cut_of_cutsChar {a : Text} (h : CutsChar a) :
    cut a 3 = none ∧ 3 < utf8Len a ∧ singleDash a = true := by
  obtain ⟨c, rest, rfl, hbytes⟩ := h
  have hdash : c ≠ '-' := by
    rcases hbytes with h3 | ⟨hne, -⟩
    · rintro rfl
      exact absurd h3 (by decide)
    · exact hne
  have hsingle : singleDash ('-' :: c :: rest) = true :=
    singleDash_iff.2 ⟨c :: rest, rfl, by simpa using hdash⟩
  have hfirst : cut ('-' :: c :: rest) 3 =
      (cut (c :: rest) 2).map fun p => ('-' :: p.1, p.2) := cut_cons (by decide) _
  rcases hbytes with h3 | ⟨-, h1, d, rest', rfl, h2⟩
  · rw [hfirst, cut_cons_none (by decide) (by omega)]
    refine ⟨rfl, ?_, hsingle⟩
    rw [utf8Len_dash, utf8Len_cons]
    omega
  · rw [hfirst, cut_cons (by omega), h1, cut_cons_none (by decide) (by omega)]
    refine ⟨rfl, ?_, hsingle⟩
    rw [utf8Len_dash, utf8Len_cons, utf8Len_cons]
    omega

/-- A long argument whose characters end at the third byte behind the dash is sliced there. -/
theorem slice_of_not_cutsChar {s : Text} (hlen : 3 < utf8Len ('-' :: s))
    (hhead : s.head? ≠ some '-') (h : ¬ CutsChar ('-' :: s)) :
    ∃ two, slice ('-' :: s) 1 3 = some two := by
  cases s with
  | nil => exact absurd hlen (by decide)
  | cons c rest =>
      have hc := c.utf8Size_pos
      have hdash : c ≠ '-' := by simpa using hhead
      have hlt : c.utf8Size < 3 := by
        by_contra hge
        exact h ⟨c, rest, rfl, .inl (by omega)⟩
      rcases (by omega : c.utf8Size = 2 ∨ c.utf8Size = 1) with h2 | h1
      · refine ⟨[c], slice_eq_some_iff.2 ⟨['-'], rest, rfl, rfl, ?_⟩⟩
        rw [List.singleton_append, utf8Len_dash, utf8Len_cons, utf8Len_nil, h2]
      · cases rest with
        | nil =>
            rw [utf8Len_dash, utf8Len_cons, h1] at hlen
            exact absurd hlen (by decide)
        | cons d rest' =>
            have hd := d.utf8Size_pos
            have hd1 : d.utf8Size = 1 := by
              by_contra hne
              exact h ⟨c, d :: rest', rfl, .inr ⟨hdash, h1, d, rest', rfl, by omega⟩⟩
            refine ⟨[c, d], slice_eq_some_iff.2 ⟨['-'], rest', rfl, rfl, ?_⟩⟩
            rw [List.singleton_append, utf8Len_dash, utf8Len_cons, utf8Len_cons, utf8Len_nil, h1,
              hd1]

/-- **Rewriting an argument panics** exactly when a slice cuts a character. -/
theorem rewriteArg_eq_none_iff {a : Text} : rewriteArg a = none ↔ CutsChar a := by
  constructor
  · intro h
    by_contra hcut
    unfold rewriteArg at h
    split_ifs at h with hthree hlong
    · obtain ⟨s, rfl, -⟩ := singleDash_iff.1 hthree.2
      have hslice : sliceEnd ('-' :: s) 1 = some s := sliceEnd_eq_some_iff.2 ⟨['-'], rfl, rfl⟩
      rw [hslice] at h
      cases h
    · obtain ⟨s, rfl, hhead⟩ := singleDash_iff.1 hlong.2
      obtain ⟨two, htwo⟩ := slice_of_not_cutsChar hlong.1 hhead hcut
      rw [htwo, Option.bind_some] at h
      split_ifs at h with hflag
      -- behind a flag the last slice starts at a boundary
      obtain ⟨p, q, hp, hlen, hthree'⟩ := slice_eq_some_iff.1 htwo
      rw [sliceEnd_eq_some_iff.2 ⟨p ++ two, hp, hthree'⟩] at h
      cases h
  · intro h
    obtain ⟨hcut, hlen, hdash⟩ := cut_of_cutsChar h
    rw [rewriteArg, if_neg fun h => by omega, if_pos ⟨hlen, hdash⟩, slice_eq_none_of_cut hcut]
    rfl

theorem mapM_eq_none_iff {α β : Type} {f : α → Option β} {xs : List α} :
    xs.mapM f = none ↔ ∃ x ∈ xs, f x = none := by
  induction xs with
  | nil => simp
  | cons x xs ih =>
      rw [List.mapM_cons, List.exists_mem_cons_iff, ← ih]
      cases hx : f x with
      | none => simp
      | some y =>
          cases hxs : xs.mapM f with
          | none => simp
          | some ys => simp

/-- Rewriting panics on the first argument a slice of which cuts a character. -/
theorem rewriteNmapArgs_eq_none_iff {input : List Text} :
    rewriteNmapArgs input = none ↔ ∃ a ∈ input, CutsChar a := by
  simp only [rewriteNmapArgs, Option.map_eq_none_iff, mapM_eq_none_iff, rewriteArg_eq_none_iff]

/-- **When rewriting does not panic**: when no slice of an argument cuts a character. -/
theorem rewrite_returns_iff (input : List Text) :
    (∃ out, rewriteNmapArgs input = some out) ↔ ∀ a ∈ input, ¬ CutsChar a := by
  rw [← Option.ne_none_iff_exists', Ne, rewriteNmapArgs_eq_none_iff, not_exists]
  exact forall_congr' fun a => not_and

/-- An option with an en dash in place of the second hyphen. -/
theorem rewrite_panics : rewriteNmapArgs ["rnmap".toList, "-p–100".toList] = none := by
  rw [rewriteNmapArgs_eq_none_iff]
  exact ⟨"-p–100".toList, by simp, 'p', "–100".toList, rfl,
    .inr ⟨by decide, by decide, '–', "100".toList, rfl, by decide⟩⟩

/-! ### Arguments of its own -/

/-- The compound flags the command line declares, and whether each takes a value. -/
def cliCompound : List (Text × Bool) :=
  [("sT".toList, false), ("sS".toList, false), ("sV".toList, false), ("Pn".toList, false),
    ("PS".toList, true), ("PE".toList, false), ("oN".toList, true), ("oX".toList, true),
    ("oJ".toList, true), ("oA".toList, true)]

/-- A switch without a value. -/
def IsSwitch (F : Text) : Prop := (F, false) ∈ cliCompound

/-- An option that takes a value. -/
def TakesValue (F : Text) : Prop := (F, true) ∈ cliCompound

theorem IsSwitch.mem_nmapFlags {F : Text} (h : IsSwitch F) : F ∈ nmapFlags :=
  (by decide : ∀ e ∈ cliCompound, e.1 ∈ nmapFlags) _ h

theorem IsSwitch.not_takesValue {F : Text} (h : IsSwitch F) : ¬ TakesValue F := fun hvalue =>
  absurd ((by decide : ∀ e ∈ cliCompound, ∀ e' ∈ cliCompound, e.1 = e'.1 → e.2 = e'.2) _ h _
    hvalue rfl) Bool.false_ne_true

/-- **Rewriting makes no argument of its own**: the text behind a switch is not pushed, and what is
pushed without a dash is the argument itself or the value of an option that takes one. -/
def NeverInvents (input : List Text) : Prop :=
  ∀ out, rewriteNmapArgs input = some out → ∀ a ∈ input, ∀ part, rewriteArg a = some part →
    (∀ F text, IsSwitch F → text ≠ [] → a = '-' :: F ++ text → text ∉ part) ∧
      ∀ o ∈ part, o.head? ≠ some '-' → o = a ∨ ∃ F, TakesValue F ∧ a = '-' :: F ++ o

/-- Of a compound flag with text behind it rewriting makes no argument: the flag takes a value, or
it is none of the command line's switches and the text starts with a dash. -/
def Harmless (a : Text) : Prop :=
  ∀ F ∈ nmapFlags, ∀ text, text ≠ [] → a = '-' :: F ++ text →
    TakesValue F ∨ (¬ IsSwitch F ∧ text.head? = some '-')

/-- A compound argument has one flag and one text. -/
theorem eq_of_compound {F F' text text' : Text} (hF : F ∈ nmapFlags) (hF' : F' ∈ nmapFlags)
    (h : '-' :: F ++ text = '-' :: F' ++ text') : F = F' ∧ text = text' := by
  have hlength : F.length = F'.length := by
    rw [(nmapFlags_spec F hF).2.1, (nmapFlags_spec F' hF').2.1]
  exact List.append_inj (List.cons.inj h).2 hlength

theorem TakesValue.mem_nmapFlags {F : Text} (h : TakesValue F) : F ∈ nmapFlags :=
  (by decide : ∀ e ∈ cliCompound, e.1 ∈ nmapFlags) _ h

/-- Nothing is made of a harmless argument. -/
theorem Harmless.spec {a : Text} (h : Harmless a) {part : List Text}
    (hpart : rewriteArg a = some part) :
    (∀ F text, IsSwitch F → text ≠ [] → a = '-' :: F ++ text → text ∉ part) ∧
      ∀ o ∈ part, o.head? ≠ some '-' → o = a ∨ ∃ F, TakesValue F ∧ a = '-' :: F ++ o := by
  constructor
  · intro F text hF htext ha
    rcases h F hF.mem_nmapFlags text htext ha with hvalue | ⟨hswitch, -⟩
    · exact absurd hvalue hF.not_takesValue
    · exact absurd hF hswitch
  · intro o ho hdash
    rcases rewriteArg_cases hpart with rfl | ⟨F, hF, rfl, rfl⟩ | ⟨F, hF, text, htext, rfl, rfl⟩
    · exact .inl (List.mem_singleton.1 ho)
    · obtain rfl := List.mem_singleton.1 ho
      exact absurd rfl hdash
    · rcases List.mem_cons.1 ho with rfl | ho
      · exact absurd rfl hdash
      · obtain rfl := List.mem_singleton.1 ho
        rcases h F hF o htext rfl with hvalue | ⟨-, hhead⟩
        · exact .inr ⟨F, hvalue, rfl⟩
        · exact absurd hhead hdash

/-- An argument of which nothing is made is harmless. -/
theorem harmless_of_spec {a : Text}
    (h : ∀ part, rewriteArg a = some part →
      (∀ F text, IsSwitch F → text ≠ [] → a = '-' :: F ++ text → text ∉ part) ∧
        ∀ o ∈ part, o.head? ≠ some '-' → o = a ∨ ∃ F, TakesValue F ∧ a = '-' :: F ++ o) :
    Harmless a := by
  rintro F hF text htext rfl
  obtain ⟨hswitch, htyped⟩ := h _ (rewriteArg_compound hF htext)
  have hmem : text ∈ ["--".toList ++ F, text] := by simp
  by_cases hdash : text.head? = some '-'
  · exact .inr ⟨fun hF' => hswitch F text hF' htext rfl hmem, hdash⟩
  · rcases htyped text hmem hdash with heq | ⟨F', hF', heq⟩
    · -- the argument is longer than the text behind its flag
      have hlength := congrArg List.length heq
      simp only [List.cons_append, List.length_cons, List.length_append] at hlength
      omega
    · obtain ⟨rfl, -⟩ := eq_of_compound hF hF'.mem_nmapFlags heq
      exact .inl hF'

/-- **When rewriting invents no argument**: when it panics, or of each compound flag with text
behind it either the flag takes a value, or it is no switch of the command line and the text starts
with a dash. -/
theorem never_invents_iff (input : List Text) :
    NeverInvents input ↔ (∃ a ∈ input, CutsChar a) ∨ ∀ a ∈ input, Harmless a := by
  rw [← rewriteNmapArgs_eq_none_iff]
  constructor
  · intro h
    cases hout : rewriteNmapArgs input with
    | none => exact .inl rfl
    | some out => exact .inr fun a ha => harmless_of_spec (h out hout a ha)
  · rintro (hnone | hharmless) out hout a ha part hpart
    · rw [hnone] at hout
      cases hout
    · exact (hharmless a ha).spec hpart

/-- Two scan switches in one argument make a target. -/
theorem rewriting_invents_target :
    ¬ NeverInvents ["rnmap".toList, "-sSV".toList, "10.0.0.1".toList] := by
  intro h
  have hswitch : IsSwitch "sS".toList := by
    unfold IsSwitch
    decide
  have hout : rewriteNmapArgs ["rnmap".toList, "-sSV".toList, "10.0.0.1".toList] =
      some ["rnmap".toList, "--sS".toList, "V".toList, "10.0.0.1".toList] := by decide +kernel
  have hpart : rewriteArg "-sSV".toList = some ["--sS".toList, "V".toList] := by decide +kernel
  obtain ⟨hnone, -⟩ := h _ hout "-sSV".toList (by simp) _ hpart
  exact hnone "sS".toList "V".toList hswitch (by decide) rfl (by simp)

end Rnmap
