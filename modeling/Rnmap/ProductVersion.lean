/-
**Products and versions in front of further text.**

A banner names its server as a product and a version with a slash or an underscore between them,
and often goes on with modules or the platform.  `split_product_version` looks for an underscore in
the whole text before it looks for a slash, so that an underscore anywhere behind `product/version`
moves the split there.

Main definitions:

* `Rnmap.ProductToken`, `Rnmap.VersionToken`, `Rnmap.Separator` — the parts of such a text;
* `Rnmap.detailText` — the text, with whatever follows;
* `Rnmap.SplitsAtFirst` — the product and the version are those the text begins with.

Main results:

* `Rnmap.trim_detailText` — trimming touches what follows only;
* `Rnmap.trailing_text_iff` — **when what follows does not alter them**.
-/

import Rnmap.Service

set_option relaxedAutoImplicit false
set_option autoImplicit false

namespace Rnmap

open Text

/-! ### The parts of a text -/

/-- A product: no white space and no separator in it. -/
structure ProductToken where
  text : Text
  ne_nil : text ≠ []
  solid : ∀ c ∈ text, isWhitespace c = false
  no_underscore : '_' ∉ text
  no_slash : '/' ∉ text

/-- A version: no white space in it. -/
structure VersionToken where
  text : Text
  ne_nil : text ≠ []
  solid : ∀ c ∈ text, isWhitespace c = false

/-- What stands between the two. -/
inductive Separator
  | slash
  | underscore
  deriving DecidableEq, Repr

def Separator.char : Separator → Char
  | .slash => '/'
  | .underscore => '_'

/-- A product and a version, a blank, and further text. -/
def detailText (p : ProductToken) (c : Separator) (v : VersionToken) (rest : Text) : Text :=
  p.text ++ c.char :: (v.text ++ ' ' :: rest)

/-- The product and the version are those the text begins with. -/
def SplitsAtFirst (p : ProductToken) (c : Separator) (v : VersionToken) (rest : Text) : Prop :=
  splitProductVersion (detailText p c v rest) = (some p.text, some v.text)

/-! ### Words and trimming -/

/-- The first word of a text that begins with one. -/
theorem firstWord_append {w t : Text} (hw : w ≠ []) (hsolid : ∀ c ∈ w, isWhitespace c = false)
    (ht : t = [] ∨ ∃ c s, t = c :: s ∧ isWhitespace c = true) : firstWord (w ++ t) = w := by
  unfold firstWord splitWhitespace
  rcases ht with rfl | ⟨c, s, rfl, hc⟩
  · rw [List.append_nil, List.splitOnP_eq_singleton hsolid]
    simp [hw]
  · rw [List.splitOnP_append_cons_of_forall_mem hsolid c hc]
    simp [hw]

/-- What follows a version once the text is trimmed. -/
def keptTail (rest : Text) : Text := (' ' :: rest).rdropWhile isWhitespace

theorem keptTail_eq (rest : Text) :
    keptTail rest = [] ∨ ∃ c s, keptTail rest = c :: s ∧ isWhitespace c = true := by
  obtain ⟨dropped, hdropped⟩ := List.rdropWhile_prefix isWhitespace (' ' :: rest)
  cases hkept : keptTail rest with
  | nil => exact .inl rfl
  | cons c s =>
      rw [← keptTail, hkept] at hdropped
      obtain ⟨rfl, -⟩ := List.cons.inj hdropped
      exact .inr ⟨_, s, rfl, rfl⟩

theorem underscore_mem_keptTail {rest : Text} : '_' ∈ keptTail rest ↔ '_' ∈ rest := by
  rw [keptTail, mem_rdropWhile_iff (by decide)]
  simp

/-- **Trimming touches what follows only.** -/
theorem trim_detailText (p : ProductToken) (c : Separator) (v : VersionToken) (rest : Text) :
    trim (detailText p c v rest) = p.text ++ c.char :: (v.text ++ keptTail rest) := by
  have hstart : (detailText p c v rest).dropWhile isWhitespace = detailText p c v rest := by
    obtain ⟨d, s, hp⟩ := List.exists_cons_of_ne_nil p.ne_nil
    have hd : isWhitespace d = false := p.solid d (hp ▸ List.mem_cons_self)
    rw [detailText, hp, List.cons_append, List.dropWhile_cons_of_neg (by simp [hd])]
  have hlast : ∀ d, (p.text ++ c.char :: v.text).getLast? = some d → isWhitespace d = false := by
    intro d hd
    rw [List.getLast?_append_of_ne_nil _ (List.cons_ne_nil _ _),
      List.getLast?_cons_of_ne_nil v.ne_nil] at hd
    exact v.solid d (List.mem_of_getLast? hd)
  have hsplit : detailText p c v rest = (p.text ++ c.char :: v.text) ++ ' ' :: rest := by
    simp [detailText]
  rw [trim, hstart, hsplit, rdropWhile_append_of_last hlast, ← keptTail]
  simp

/-! ### The split -/

variable (p : ProductToken) (v : VersionToken) (rest : Text)

theorem splitsAtFirst_underscore : SplitsAtFirst p .underscore v rest := by
  have hsplit : splitOnce '_' (p.text ++ '_' :: (v.text ++ keptTail rest)) =
      some (p.text, v.text ++ keptTail rest) := splitOnce_eq_some.2 ⟨rfl, p.no_underscore⟩
  unfold SplitsAtFirst splitProductVersion
  rw [trim_detailText, Separator.char]
  dsimp only
  rw [if_neg (by simp), hsplit]
  dsimp only
  rw [firstWord_append v.ne_nil v.solid (keptTail_eq rest)]

/-- Without an underscore in what follows, the slash is found. -/
theorem splitsAtFirst_slash (h : '_' ∉ v.text ∧ '_' ∉ rest) : SplitsAtFirst p .slash v rest := by
  have hnone : splitOnce '_' (p.text ++ '/' :: (v.text ++ keptTail rest)) = none := by
    rw [splitOnce_eq_none]
    simp [p.no_underscore, h.1, underscore_mem_keptTail, h.2]
  have hsplit : splitOnce '/' (p.text ++ '/' :: (v.text ++ keptTail rest)) =
      some (p.text, v.text ++ keptTail rest) := splitOnce_eq_some.2 ⟨rfl, p.no_slash⟩
  unfold SplitsAtFirst splitProductVersion
  rw [trim_detailText, Separator.char]
  dsimp only
  rw [if_neg (by simp), hnone]
  dsimp only
  rw [hsplit]
  dsimp only
  rw [firstWord_append v.ne_nil v.solid (keptTail_eq rest)]

/-- With one, the product goes on past the slash. -/
theorem not_splitsAtFirst_slash (h : '_' ∈ v.text ∨ '_' ∈ rest) :
    ¬ SplitsAtFirst p .slash v rest := by
  have hmem : '_' ∈ p.text ++ '/' :: (v.text ++ keptTail rest) := by
    simp only [List.mem_append, List.mem_cons, underscore_mem_keptTail]
    exact .inr (.inr h)
  obtain ⟨⟨q, w⟩, hsplit⟩ : ∃ parts, splitOnce '_' (p.text ++ '/' :: (v.text ++ keptTail rest)) =
      some parts := by
    rw [← Option.ne_none_iff_exists', Ne, splitOnce_eq_none, not_not]
    exact hmem
  unfold SplitsAtFirst splitProductVersion
  rw [trim_detailText, Separator.char]
  dsimp only
  rw [if_neg (by simp), hsplit]
  intro heq
  obtain rfl : q = p.text := Option.some.inj (Prod.mk.inj heq).1
  -- the same product would be followed by a slash and by an underscore
  obtain ⟨htext, -⟩ := splitOnce_eq_some.1 hsplit
  exact absurd (List.cons.inj (List.append_cancel_left htext)).1 (by decide)

/-- **When what follows does not alter product and version**: behind an underscore always, and
behind a slash when no underscore comes after it. -/
theorem trailing_text_iff (c : Separator) :
    SplitsAtFirst p c v rest ↔ c = .underscore ∨ ('_' ∉ v.text ∧ '_' ∉ rest) := by
  cases c with
  | underscore => exact iff_of_true (splitsAtFirst_underscore p v rest) (.inl rfl)
  | slash =>
      by_cases h : '_' ∉ v.text ∧ '_' ∉ rest
      · exact iff_of_true (splitsAtFirst_slash p v rest h) (.inr h)
      · refine iff_of_false (not_splitsAtFirst_slash p v rest ?_) ?_
        · by_contra hnot
          exact h (not_or.1 hnot)
        · rintro (hc | hno)
          · cases hc
          · exact h hno

/-- The module in `Apache/2.4.41 (Ubuntu) mod_ssl/2.9` becomes part of the product. -/
theorem trailing_module_in_product :
    ¬ SplitsAtFirst ⟨"Apache".toList, by decide, by decide, by decide, by decide⟩ .slash
      ⟨"2.4.41".toList, by decide, by decide⟩ "(Ubuntu) mod_ssl/2.9".toList := by
  unfold SplitsAtFirst
  decide +kernel

end Rnmap
