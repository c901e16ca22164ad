/-
**Text as the standard library handles it.**

A string is the list of its characters, so that every function below is a list function; offsets
never split a character.  The module gives the string functions the scanner calls, by their
documented behaviour, with the few facts about each that later modules use.

Main definitions:

* `Text.isWhitespace`, `Text.trim`, `Text.splitWhitespace` — white space is Unicode's
  `White_Space` property;
* `Text.splitOnce` — split at the first occurrence of a character;
* `Text.fromStr` — reading an unsigned decimal number with an upper bound;
* `Text.decimal`, `Text.hex`, `Text.padRight`, `Text.replace`, `Text.line` — formatting.

Main results:

* `Text.splitOnce_eq_some`, `Text.splitOnce_eq_none` — what splitting at a character returns;
* `Text.fromStr_eq_ok_iff` — **the accepted numbers**: an optional plus sign and a nonempty run of
  decimal digits whose value respects the bound.
-/

import Mathlib.Tactic
import Mathlib.Data.List.DropRight
import Mathlib.Data.String.Basic

set_option relaxedAutoImplicit false
set_option autoImplicit false

/-- A string, as the list of its characters. -/
abbrev Text := List Char

namespace Text

/-! ### Deciding a property of a text -/

/-- Quantifiers over a text run over its characters, not over all there are. -/
instance (priority := high) (s : Text) (p : Char → Prop) [DecidablePred p] :
    Decidable (∀ c ∈ s, p c) :=
  List.decidableBAll p s

instance (priority := high) (s : Text) (p : Char → Prop) [DecidablePred p] :
    Decidable (∃ c ∈ s, p c) :=
  List.decidableBEx p s

/-! ### White space -/

/-- `char::is_whitespace`: the Unicode property `White_Space`. -/
def isWhitespace (c : Char) : Bool :=
  (9 ≤ c.toNat && c.toNat ≤ 13) || c.toNat == 0x20 || c.toNat == 0x85 || c.toNat == 0xA0 ||
    c.toNat == 0x1680 || (0x2000 ≤ c.toNat && c.toNat ≤ 0x200A) || c.toNat == 0x2028 ||
    c.toNat == 0x2029 || c.toNat == 0x202F || c.toNat == 0x205F || c.toNat == 0x3000

/-- `str::trim`. -/
def trim (s : Text) : Text := (s.dropWhile isWhitespace).rdropWhile isWhitespace

theorem isInfix_trim (s : Text) : trim s <:+: s :=
  (List.rdropWhile_prefix _ _).isInfix.trans (List.dropWhile_suffix _).isInfix

theorem mem_of_mem_trim {s : Text} {c : Char} (h : c ∈ trim s) : c ∈ s :=
  (isInfix_trim s).subset h

/-- Trimming at the end keeps what stands before a last character to be kept. -/
theorem rdropWhile_append_of_last {p : Char → Bool} {u : Text}
    (h : ∀ c, u.getLast? = some c → p c = false) (t : Text) :
    (u ++ t).rdropWhile p = u ++ t.rdropWhile p := by
  induction t using List.reverseRecOn with
  | nil =>
      rw [List.append_nil, List.rdropWhile_nil, List.append_nil, List.rdropWhile_eq_self_iff]
      intro hne
      simp [h _ (List.getLast?_eq_some_getLast hne)]
  | append_singleton t c ih =>
      rw [← List.append_assoc, List.rdropWhile_concat, List.rdropWhile_concat]
      split_ifs
      · exact ih
      · rw [List.append_assoc]

/-- Trimming at the end loses no character to be kept. -/
theorem mem_rdropWhile_iff {p : Char → Bool} {c : Char} (h : p c = false) {s : Text} :
    c ∈ s.rdropWhile p ↔ c ∈ s := by
  refine ⟨fun hc => (List.rdropWhile_prefix p s).subset hc, fun hc => ?_⟩
  rw [← List.rdropWhile_append_rtakeWhile (p := p) (l := s)] at hc
  rcases List.mem_append.1 hc with hkept | hdropped
  · exact hkept
  · rw [List.mem_rtakeWhile_imp hdropped] at h
    cases h

/-- A text without white space is not trimmed. -/
theorem trim_eq_self {s : Text} (h : ∀ c ∈ s, isWhitespace c = false) : trim s = s := by
  have hfront : s.dropWhile isWhitespace = s := by
    rw [List.dropWhile_eq_self_iff]
    intro hpos
    rw [h _ (List.getElem_mem hpos)]
    exact Bool.false_ne_true
  rw [trim, hfront, List.rdropWhile_eq_self_iff]
  intro hne
  rw [h _ (List.getLast_mem hne)]
  exact Bool.false_ne_true

/-- A trimmed text does not start with white space. -/
theorem head_trim {s t : Text} {c : Char} (h : trim s = c :: t) : isWhitespace c = false := by
  have hne : s.dropWhile isWhitespace ≠ [] := by
    intro hnil
    rw [trim, hnil] at h
    cases h
  have hhead : (s.dropWhile isWhitespace).head? = some c := by
    obtain ⟨rest, hrest⟩ := List.rdropWhile_prefix isWhitespace (s.dropWhile isWhitespace)
    rw [← trim, h] at hrest
    rw [← hrest]
    rfl
  have hhead' := List.head_dropWhile_not isWhitespace hne
  rw [List.head?_eq_some_head hne, Option.some.injEq] at hhead
  rwa [hhead] at hhead'

/-- A trimmed text does not end with white space. -/
theorem last_trim {s : Text} (h : trim s ≠ []) : isWhitespace ((trim s).getLast h) = false := by
  have hnot : ¬ isWhitespace ((trim s).getLast h) = true :=
    List.rdropWhile_last_not isWhitespace (s.dropWhile isWhitespace) h
  simpa using hnot

/-- Trimming again changes nothing. -/
theorem trim_trim (s : Text) : trim (trim s) = trim s := by
  have hfront : (trim s).dropWhile isWhitespace = trim s := by
    cases h : trim s with
    | nil => rfl
    | cons c t => exact List.dropWhile_cons_of_neg (by simp [head_trim h])
  rw [trim, hfront, List.rdropWhile_eq_self_iff]
  intro hne
  rw [last_trim hne]
  exact Bool.false_ne_true

/-- `str::split_whitespace`: the maximal runs of characters other than white space. -/
def splitWhitespace (s : Text) : List Text :=
  (s.splitOnP isWhitespace).filter fun w => !w.isEmpty

theorem mem_of_mem_splitOnP {p : Char → Bool} {s w : Text} {c : Char} (hw : w ∈ s.splitOnP p)
    (hc : c ∈ w) : c ∈ s := by
  induction s generalizing w with
  | nil =>
      obtain rfl := List.mem_singleton.1 hw
      cases hc
  | cons d s ih =>
      rw [List.splitOnP_cons_eq_if_modifyHead] at hw
      split_ifs at hw
      · rcases List.mem_cons.1 hw with rfl | hw
        · cases hc
        · exact List.mem_cons_of_mem _ (ih hw hc)
      · cases hsplit : s.splitOnP p with
        | nil => exact absurd hsplit (List.splitOnP_ne_nil p s)
        | cons v vs =>
            rw [hsplit, List.modifyHead_cons] at hw
            rcases List.mem_cons.1 hw with rfl | hw
            · rcases List.mem_cons.1 hc with rfl | hc
              · exact List.mem_cons_self
              · exact List.mem_cons_of_mem _ (ih (hsplit ▸ List.mem_cons_self) hc)
            · exact List.mem_cons_of_mem _ (ih (hsplit ▸ List.mem_cons_of_mem _ hw) hc)

/-- No part of a split text contains the character it was split at. -/
theorem notMem_of_mem_splitOn {d : Char} {s w : Text} (hw : w ∈ s.splitOn d) : d ∉ w := by
  induction s generalizing w with
  | nil =>
      obtain rfl := List.mem_singleton.1 hw
      exact List.not_mem_nil
  | cons c s ih =>
      rw [List.splitOn_cons_eq_if_modifyHead] at hw
      split_ifs at hw with hc
      · rcases List.mem_cons.1 hw with rfl | hw
        · exact List.not_mem_nil
        · exact ih hw
      · cases hparts : s.splitOn d with
        | nil => exact absurd hparts (List.splitOn_ne_nil d s)
        | cons first parts =>
            rw [hparts, List.modifyHead_cons] at hw
            rw [hparts] at ih
            rcases List.mem_cons.1 hw with rfl | hw
            · intro hmem
              rcases List.mem_cons.1 hmem with rfl | hmem
              · exact hc (beq_self_eq_true _)
              · exact ih List.mem_cons_self hmem
            · exact ih (List.mem_cons_of_mem _ hw)

/-- The characters of parts joined by a separator. -/
theorem mem_intercalate {d c : Char} {ws : List Text} (h : c ∈ [d].intercalate ws) :
    c = d ∨ ∃ w ∈ ws, c ∈ w := by
  induction ws with
  | nil => cases h
  | cons w ws ih =>
      cases ws with
      | nil =>
          rw [List.intercalate_singleton] at h
          exact .inr ⟨w, List.mem_cons_self, h⟩
      | cons w' ws =>
          rw [List.intercalate_cons_cons, List.append_assoc] at h
          rcases List.mem_append.1 h with hw | htail
          · exact .inr ⟨w, List.mem_cons_self, hw⟩
          · rcases List.mem_cons.1 htail with hd | hrest
            · exact .inl hd
            · obtain hd | ⟨v, hv, hcv⟩ := ih hrest
              · exact .inl hd
              · exact .inr ⟨v, List.mem_cons_of_mem _ hv, hcv⟩

/-- The words of a text are parts of it. -/
theorem mem_of_mem_splitWhitespace {s w : Text} {c : Char} (hw : w ∈ splitWhitespace s)
    (hc : c ∈ w) : c ∈ s :=
  mem_of_mem_splitOnP (List.mem_filter.1 hw).1 hc

/-- White space at the ends of a text makes no words. -/
theorem splitWhitespace_trim (s : Text) : splitWhitespace (trim s) = splitWhitespace s := by
  have hstart : ∀ s : Text, splitWhitespace (s.dropWhile isWhitespace) = splitWhitespace s := by
    intro s
    induction s with
    | nil => rfl
    | cons c s ih =>
        rw [List.dropWhile_cons]
        split_ifs with hc
        · rw [ih, splitWhitespace, splitWhitespace, List.splitOnP_cons_eq_if_modifyHead,
            if_pos hc]
          rfl
        · rfl
  have hend : ∀ s : Text, splitWhitespace (s.rdropWhile isWhitespace) = splitWhitespace s := by
    intro s
    induction s using List.reverseRecOn with
    | nil => rfl
    | append_singleton s c ih =>
        rw [List.rdropWhile_concat]
        split_ifs with hc
        · rw [ih, splitWhitespace, splitWhitespace, List.splitOnP_append_cons s [] hc]
          simp
        · rfl
  rw [trim, hend, hstart]

/-! ### Splitting at a character -/

/-- `str::split_once` at a character. -/
def splitOnce (c : Char) : Text → Option (Text × Text)
  | [] => none
  | d :: s => if d = c then some ([], s) else (splitOnce c s).map fun p => (d :: p.1, p.2)

/-- Splitting returns the text before the first occurrence and the text after it. -/
theorem splitOnce_eq_some {c : Char} {s p q : Text} :
    splitOnce c s = some (p, q) ↔ s = p ++ c :: q ∧ c ∉ p := by
  induction s generalizing p with
  | nil => simp [splitOnce]
  | cons d s ih =>
      rw [splitOnce]
      split_ifs with hd
      · subst hd
        constructor
        · rintro h
          obtain ⟨rfl, rfl⟩ := Prod.mk.inj (Option.some.inj h)
          simp
        · rintro ⟨h, hp⟩
          cases p with
          | nil => simpa using h
          | cons e p => exact absurd (List.cons.inj h).1 (by simp at hp; exact hp.1)
      · constructor
        · intro h
          obtain ⟨⟨p', q'⟩, hs, hpq⟩ := Option.map_eq_some_iff.1 h
          obtain ⟨rfl, rfl⟩ := Prod.mk.inj hpq
          obtain ⟨rfl, hp⟩ := ih.1 hs
          exact ⟨rfl, by simpa using ⟨fun h => hd h.symm, hp⟩⟩
        · rintro ⟨h, hp⟩
          cases p with
          | nil => exact absurd (List.cons.inj h).1 hd
          | cons e p =>
              obtain ⟨rfl, rfl⟩ := List.cons.inj h
              rw [ih.2 ⟨rfl, fun hc => hp (List.mem_cons_of_mem _ hc)⟩]
              rfl

theorem splitOnce_eq_none {c : Char} {s : Text} : splitOnce c s = none ↔ c ∉ s := by
  induction s with
  | nil => simp [splitOnce]
  | cons d s ih =>
      rw [splitOnce]
      split_ifs with hd
      · simp [hd]
      · simp [ih, Ne.symm hd]

/-! ### Reading numbers -/

/-- `ParseIntError`, for unsigned types. -/
inductive ParseIntError
  | empty
  | invalidDigit
  | posOverflow
  deriving DecidableEq, Repr

/-- The texts std prints for the three errors. -/
def ParseIntError.display : ParseIntError → Text
  | .empty => "cannot parse integer from empty string".toList
  | .invalidDigit => "invalid digit found in string".toList
  | .posOverflow => "number too large to fit in target type".toList

/-- The digit loop of `from_str_radix(10)` with the accumulator `acc`; `max` is the largest value
of the target type. -/
def readDigits (max : ℕ) : Text → ℕ → Except ParseIntError ℕ
  | [], acc => .ok acc
  | c :: cs, acc =>
      if !c.isDigit then .error .invalidDigit
      else if max < acc * 10 + (c.toNat - '0'.toNat) then .error .posOverflow
      else readDigits max cs (acc * 10 + (c.toNat - '0'.toNat))

/-- `from_str` of an unsigned type with largest value `max`: one leading plus sign is allowed. -/
def fromStr (max : ℕ) : Text → Except ParseIntError ℕ
  | [] => .error .empty
  | ['+'] => .error .invalidDigit
  | '+' :: ds => readDigits max ds 0
  | ds => readDigits max ds 0

/-- Reading more digits never makes a number smaller. -/
theorem le_ofDigitChars (ds : Text) (acc : ℕ) : acc ≤ Nat.ofDigitChars 10 ds acc := by
  rw [Nat.ofDigitChars_eq_ofDigitChars_zero]
  have : 1 * acc ≤ 10 ^ ds.length * acc := Nat.mul_le_mul_right _ (Nat.one_le_pow _ _ (by omega))
  omega

theorem readDigits_eq_ok_iff {max : ℕ} {ds : Text} {acc n : ℕ} (hacc : acc ≤ max) :
    readDigits max ds acc = .ok n ↔
      (∀ c ∈ ds, c.isDigit) ∧ Nat.ofDigitChars 10 ds acc = n ∧ n ≤ max := by
  induction ds generalizing acc with
  | nil =>
      simp only [readDigits, Except.ok.injEq, Nat.ofDigitChars_nil]
      constructor
      · rintro rfl
        simpa using hacc
      · exact fun h => h.2.1
  | cons c ds ih =>
      rw [readDigits, Nat.ofDigitChars_cons, Nat.mul_comm 10 acc]
      split_ifs with hc hmax
      · -- not a digit: neither side accepts
        simp only [false_iff, List.forall_mem_cons]
        exact fun h => by simp [h.1.1] at hc
      · -- the accumulator is past the bound, and so is every continuation
        simp only [false_iff]
        rintro ⟨-, hn, hle⟩
        have := le_ofDigitChars ds (acc * 10 + (c.toNat - '0'.toNat))
        omega
      · rw [ih (by omega), List.forall_mem_cons]
        have hdigit : c.isDigit = true := by simpa using hc
        simp [hdigit]

/-- A numeral `from_str` accepts, with its value: an optional plus sign and a nonempty run of
decimal digits. -/
def IsNumeral (s : Text) (n : ℕ) : Prop :=
  ∃ ds : Text, (s = ds ∨ s = '+' :: ds) ∧ ds ≠ [] ∧ (∀ c ∈ ds, c.isDigit) ∧
    Nat.ofDigitChars 10 ds 0 = n

/-- **The accepted numbers**: `from_str` returns `n` exactly on the numerals of value `n` within
the bound of the target type. -/
theorem fromStr_eq_ok_iff {max : ℕ} {s : Text} {n : ℕ} :
    fromStr max s = .ok n ↔ IsNumeral s n ∧ n ≤ max := by
  have hread : ∀ ds : Text, readDigits max ds 0 = .ok n ↔
      (∀ c ∈ ds, c.isDigit) ∧ Nat.ofDigitChars 10 ds 0 = n ∧ n ≤ max :=
    fun ds => readDigits_eq_ok_iff (Nat.zero_le max)
  have hplus : ¬ '+'.isDigit := by decide
  unfold fromStr IsNumeral
  split
  · simp
  · simp
  · rename_i ds hne
    rw [hread]
    constructor
    · rintro ⟨hd, hv, hle⟩
      exact ⟨⟨ds, Or.inr rfl, fun h => hne (by rw [h]), hd, hv⟩, hle⟩
    · rintro ⟨⟨es, hs | hs, -, hd, hv⟩, hle⟩
      · exact absurd (hd '+' (by simp [← hs])) hplus
      · obtain rfl := (List.cons.inj hs).2
        exact ⟨hd, hv, hle⟩
  · rename_i hnil _ hplus'
    rw [hread]
    constructor
    · rintro ⟨hd, hv, hle⟩
      exact ⟨⟨s, Or.inl rfl, hnil, hd, hv⟩, hle⟩
    · rintro ⟨⟨es, rfl | rfl, -, hd, hv⟩, hle⟩
      · exact ⟨hd, hv, hle⟩
      · exact absurd rfl (hplus' es)

/-! ### Formatting -/

/-- A number in decimal. -/
def decimal (n : ℕ) : Text := Nat.toDigits 10 n

/-- A number in lower-case hexadecimal. -/
def hex (n : ℕ) : Text := Nat.toDigits 16 n

/-- `{:<width}`: pad with blanks on the right. -/
def padRight (width : ℕ) (s : Text) : Text := s ++ List.replicate (width - s.length) ' '

/-- `str::replace` of one character by a text. -/
def replace (c : Char) (by_ : Text) (s : Text) : Text :=
  s.flatMap fun d => if d = c then by_ else [d]

/-- `writeln!`: a text and the newline that ends it. -/
def line (s : Text) : Text := s ++ ['\n']

theorem prefix_padRight (width : ℕ) (s : Text) : s <+: padRight width s := List.prefix_append _ _

theorem mem_padRight {width : ℕ} {s : Text} {c : Char} (h : c ∈ padRight width s) :
    c ∈ s ∨ c = ' ' := by
  rcases List.mem_append.1 h with h | h
  · exact Or.inl h
  · exact Or.inr (List.eq_of_mem_replicate h)

/-- The printable ASCII characters. -/
def IsPrintable (c : Char) : Prop := 0x20 ≤ c.toNat ∧ c.toNat ≤ 0x7E

instance (c : Char) : Decidable (IsPrintable c) :=
  inferInstanceAs (Decidable (0x20 ≤ c.toNat ∧ c.toNat ≤ 0x7E))

/-- A text of printable characters. -/
def Printable (s : Text) : Prop := ∀ c ∈ s, IsPrintable c

instance (s : Text) : Decidable (Printable s) := List.decidableBAll IsPrintable s

@[simp] theorem printable_append {s t : Text} : Printable (s ++ t) ↔ Printable s ∧ Printable t :=
  List.forall_mem_append

@[simp] theorem printable_cons {c : Char} {s : Text} :
    Printable (c :: s) ↔ IsPrintable c ∧ Printable s :=
  List.forall_mem_cons

/-- The digits of a number. -/
theorem exists_digitChar_of_mem {b : ℕ} (hb : 1 < b) {n : ℕ} {c : Char}
    (h : c ∈ Nat.toDigits b n) : ∃ d < b, c = Nat.digitChar d := by
  induction n using Nat.strong_induction_on with
  | _ n ih =>
      rcases Nat.lt_or_ge n b with hlt | hge
      · rw [Nat.toDigits_of_lt_base hlt] at h
        exact ⟨n, hlt, List.mem_singleton.1 h⟩
      · rw [Nat.toDigits_of_base_le hb hge] at h
        rcases List.mem_append.1 h with hmem | hlast
        · exact ih (n / b) (Nat.div_lt_self (by omega) hb) hmem
        · exact ⟨n % b, Nat.mod_lt n (by omega), List.mem_singleton.1 hlast⟩

/-- Numbers are printed in printable characters. -/
theorem printable_toDigits {b : ℕ} (hb : 1 < b) (hb' : b ≤ 16) (n : ℕ) :
    Printable (Nat.toDigits b n) := by
  have hdigit : ∀ d < 16, IsPrintable (Nat.digitChar d) := by decide
  intro c hc
  obtain ⟨d, hd, rfl⟩ := exists_digitChar_of_mem hb hc
  exact hdigit d (hd.trans_le hb')

@[simp] theorem printable_decimal (n : ℕ) : Printable (decimal n) :=
  printable_toDigits (by decide) (by decide) n

/-- A decimal number consists of digits. -/
theorem isDigit_of_mem_decimal {n : ℕ} {c : Char} (h : c ∈ decimal n) : c.isDigit = true :=
  Nat.isDigit_of_mem_toDigits (by decide) (by decide) h

@[simp] theorem printable_hex (n : ℕ) : Printable (hex n) :=
  printable_toDigits (by decide) (by decide) n

end Text
