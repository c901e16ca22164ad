/-
**Reading addresses.**

std reads an address with a recursive-descent parser that takes back what a failing alternative has
consumed; here a parser returns its value with the rest of the text, or nothing.  An IPv6 address
is read as up to eight groups, or as two runs of groups around `::`, and the last two groups may
have the dotted form.

Main definitions:

* `Rnmap.readNumber`, `Rnmap.readIpv4Addr`, `Rnmap.readGroups`, `Rnmap.readIpv6Addr` — the parser;
* `Rnmap.Ipv4Addr.fromStr`, `Rnmap.IpAddr.fromStr` — reading a whole text.

Main results:

* `Rnmap.readNumber_toDigits` — a number is read back from its digits;
* `Rnmap.IpAddr.fromStr_display` — **every address is read back from its canonical text**.
-/

import Rnmap.Addr
import Rnmap.Bytes

set_option relaxedAutoImplicit false
set_option autoImplicit false

namespace Rnmap

open Text Bytes

/-! ### The parser -/

/-- `char::to_digit`. -/
def toDigit (radix : ℕ) (c : Char) : Option ℕ :=
  let n := c.toNat
  let d :=
    if 48 ≤ n ∧ n ≤ 57 then n - 48
    else if 97 ≤ n ∧ n ≤ 122 then n - 87
    else if 65 ≤ n ∧ n ≤ 90 then n - 55
    else radix
  if d < radix then some d else none

/-- The digit loop of `read_number`: the value and the number of the digits so far, and what is
left; at most `maxDigits` digits are read. -/
def readDigitRun (radix maxDigits : ℕ) : Text → ℕ → ℕ → Option (ℕ × ℕ × Text)
  | [], value, count => some (value, count, [])
  | c :: s, value, count =>
      match toDigit radix c with
      | some d =>
          if maxDigits < count + 1 then none
          else readDigitRun radix maxDigits s (value * radix + d) (count + 1)
      | none => some (value, count, c :: s)

/-- `read_number`, of a type whose largest value is `max`. -/
def readNumber (max radix maxDigits : ℕ) (allowZeroPrefix : Bool) (s : Text) :
    Option (ℕ × Text) :=
  match readDigitRun radix maxDigits s 0 0 with
  | some (value, count, rest) =>
      if count = 0 then none
      else if !allowZeroPrefix && s.head? = some '0' && 1 < count then none
      else if max < value then none
      else some (value, rest)
  | none => none

/-- `read_given_char`. -/
def readGivenChar (c : Char) : Text → Option Text
  | [] => none
  | d :: s => if d = c then some s else none

/-- `read_separator`: before every part but the first stands a separator. -/
def readSeparator {α : Type} (sep : Char) (first : Bool) (inner : Text → Option (α × Text))
    (s : Text) : Option (α × Text) :=
  if first then inner s else (readGivenChar sep s).bind inner

/-- One octet of a dotted address. -/
def readOctet (first : Bool) (s : Text) : Option (ℕ × Text) :=
  readSeparator '.' first (readNumber 255 10 3 false) s

/-- `read_ipv4_addr`. -/
def readIpv4Addr (s : Text) : Option (Ipv4Addr × Text) := do
  let (a, s) ← readOctet true s
  let (b, s) ← readOctet false s
  let (c, s) ← readOctet false s
  let (d, s) ← readOctet false s
  some (⟨UInt8.ofNat a, UInt8.ofNat b, UInt8.ofNat c, UInt8.ofNat d⟩, s)

/-- `read_groups`: read up to `n` groups.  Returns them, whether the last two had the dotted form,
and what is left. -/
def readGroups : ℕ → Bool → Text → List UInt16 × Bool × Text
  | 0, _, s => ([], false, s)
  | n + 1, first, s =>
      -- the dotted form takes two groups
      match if 0 < n then readSeparator ':' first readIpv4Addr s else none with
      | some (ip, rest) => ([fromBeBytes16 ip.a ip.b, fromBeBytes16 ip.c ip.d], true, rest)
      | none =>
          match readSeparator ':' first (readNumber 65535 16 4 true) s with
          | some (group, rest) =>
              let (groups, ipv4, rest) := readGroups n false rest
              (UInt16.ofNat group :: groups, ipv4, rest)
          | none => ([], false, s)

/-- An address of eight segments. -/
def Ipv6Addr.ofSegments (segs : List UInt16) : Option Ipv6Addr :=
  if h : segs.length = 8 then some ⟨segs, h⟩ else none

/-- `read_ipv6_addr`: eight groups, or some before and some after `::`. -/
def readIpv6Addr (s : Text) : Option (Ipv6Addr × Text) :=
  match readGroups 8 true s with
  | (head, ipv4, rest) =>
      if head.length = 8 then (Ipv6Addr.ofSegments head).map fun ip => (ip, rest)
      else if ipv4 then none
      else do
        let rest ← readGivenChar ':' rest
        let rest ← readGivenChar ':' rest
        -- `::` stands for one group at least
        match readGroups (8 - (head.length + 1)) true rest with
        | (tail, _, rest) =>
            (Ipv6Addr.ofSegments
              (head ++ List.replicate (8 - head.length - tail.length) 0 ++ tail)).map
              fun ip => (ip, rest)

/-- `parse_with`: a parser has to read the whole text. -/
def parseWith {α : Type} (inner : Text → Option (α × Text)) (s : Text) : Option α :=
  match inner s with
  | some (a, []) => some a
  | _ => none

/-- `Ipv4Addr::from_str`. -/
def Ipv4Addr.fromStr (s : Text) : Option Ipv4Addr := parseWith readIpv4Addr s

/-- `read_ip_addr`. -/
def readIpAddr (s : Text) : Option (IpAddr × Text) :=
  ((readIpv4Addr s).map fun (ip, rest) => (.v4 ip, rest)).or
    ((readIpv6Addr s).map fun (ip, rest) => (.v6 ip, rest))

/-- `IpAddr::from_str`. -/
def IpAddr.fromStr (s : Text) : Option IpAddr := parseWith readIpAddr s

/-! ### Numbers -/

/-- A text that does not go on with a digit. -/
def NoDigit (radix : ℕ) (s : Text) : Prop := ∀ c, s.head? = some c → toDigit radix c = none

theorem noDigit_nil (radix : ℕ) : NoDigit radix [] := fun _ h => nomatch h

theorem noDigit_cons {radix : ℕ} {c : Char} (h : toDigit radix c = none) (s : Text) :
    NoDigit radix (c :: s) := by
  intro d hd
  cases hd
  exact h

theorem toDigit_digitChar : ∀ b ≤ 16, ∀ d < b, toDigit b (Nat.digitChar d) = some d := by
  decide

theorem readDigitRun_of_noDigit {radix maxDigits : ℕ} {s : Text} (h : NoDigit radix s)
    (value count : ℕ) : readDigitRun radix maxDigits s value count = some (value, count, s) := by
  cases s with
  | nil => rfl
  | cons c s => rw [readDigitRun, h c rfl]

/-- The digit loop over the digits of a number. -/
theorem readDigitRun_toDigits {radix maxDigits : ℕ} (hr : 1 < radix) (hr' : radix ≤ 16) (n : ℕ)
    (s : Text) (h : (Nat.toDigits radix n).length ≤ maxDigits) :
    readDigitRun radix maxDigits (Nat.toDigits radix n ++ s) 0 0 =
      readDigitRun radix maxDigits s n (Nat.toDigits radix n).length := by
  induction n using Nat.strong_induction_on generalizing s with
  | _ n ih =>
      rcases Nat.lt_or_ge n radix with hlt | hge
      · rw [Nat.toDigits_of_lt_base hlt] at h ⊢
        rw [List.singleton_append, readDigitRun, toDigit_digitChar radix hr' n hlt]
        simp only [List.length_singleton] at h ⊢
        rw [if_neg (by omega), Nat.zero_mul, Nat.zero_add, Nat.zero_add]
      · -- the last digit comes after those of the quotient
        have hmod : n % radix < radix := Nat.mod_lt n (by omega)
        rw [Nat.toDigits_of_base_le hr hge, List.length_append, List.length_singleton] at h
        rw [Nat.toDigits_of_base_le hr hge, List.append_assoc,
          ih (n / radix) (Nat.div_lt_self (by omega) hr) _ (by omega), List.singleton_append,
          readDigitRun, toDigit_digitChar radix hr' _ hmod]
        simp only [List.length_append, List.length_singleton]
        rw [if_neg (by omega), Nat.div_add_mod' n radix]

/-- Only zero has a leading zero. -/
theorem eq_zero_of_head_toDigits {radix : ℕ} (hr : 1 < radix) (hr' : radix ≤ 16) {n : ℕ}
    (h : (Nat.toDigits radix n).head? = some '0') : n = 0 := by
  have hzero : ∀ b ≤ 16, ∀ d < b, Nat.digitChar d = '0' → d = 0 := by decide
  induction n using Nat.strong_induction_on with
  | _ n ih =>
      rcases Nat.lt_or_ge n radix with hlt | hge
      · rw [Nat.toDigits_of_lt_base hlt] at h
        exact hzero radix hr' n hlt (Option.some.inj h)
      · rw [Nat.toDigits_of_base_le hr hge, List.head?_append,
          Option.or_of_isSome (by simp [List.isSome_head?])] at h
        have hdiv := ih (n / radix) (Nat.div_lt_self (by omega) hr) h
        have hpos : 0 < n / radix := Nat.div_pos hge (by omega)
        omega

/-- **A number is read back from its digits.** -/
theorem readNumber_toDigits {max radix maxDigits : ℕ} (hr : 1 < radix) (hr' : radix ≤ 16)
    (allowZeroPrefix : Bool) {n : ℕ} (hmax : n ≤ max) (hdigits : n < radix ^ maxDigits)
    (hpos : 0 < maxDigits) {s : Text} (hs : NoDigit radix s) :
    readNumber max radix maxDigits allowZeroPrefix (Nat.toDigits radix n ++ s) =
      some (n, s) := by
  have hlen := (Nat.length_toDigits_le_iff hr hpos).2 hdigits
  have hne : (Nat.toDigits radix n).length ≠ 0 := Nat.length_toDigits_pos.ne'
  have hprefix : ¬ ((!allowZeroPrefix && (Nat.toDigits radix n ++ s).head? = some '0' &&
      1 < (Nat.toDigits radix n).length) = true) := by
    intro hz
    simp only [Bool.and_eq_true, decide_eq_true_eq] at hz
    obtain ⟨⟨-, hhead⟩, hlong⟩ := hz
    rw [List.head?_append, Option.or_of_isSome (by simp [List.isSome_head?])] at hhead
    rw [eq_zero_of_head_toDigits hr hr' hhead] at hlong
    rw [Nat.toDigits_of_lt_base (by omega), List.length_singleton] at hlong
    omega
  rw [readNumber, readDigitRun_toDigits hr hr' n s hlen, readDigitRun_of_noDigit hs]
  dsimp only
  rw [if_neg hne, if_neg hprefix, if_neg (Nat.not_lt.2 hmax)]

/-- What a number leaves is the end of the text. -/
theorem suffix_of_readDigitRun {radix maxDigits : ℕ} {s : Text} {value count : ℕ} {r : ℕ × ℕ × Text}
    (h : readDigitRun radix maxDigits s value count = some r) : r.2.2 <:+ s := by
  induction s generalizing value count with
  | nil =>
      cases h
      exact List.suffix_rfl
  | cons c s ih =>
      rw [readDigitRun] at h
      split at h
      · split_ifs at h
        exact (ih h).trans (List.suffix_cons c s)
      · cases h
        exact List.suffix_rfl

theorem suffix_of_readNumber {max radix maxDigits : ℕ} {allowZeroPrefix : Bool} {s : Text}
    {r : ℕ × Text} (h : readNumber max radix maxDigits allowZeroPrefix s = some r) :
    r.2 <:+ s := by
  unfold readNumber at h
  split at h
  · rename_i hrun
    split_ifs at h
    cases h
    exact suffix_of_readDigitRun hrun
  · cases h

/-- A number starts with a digit. -/
theorem readNumber_of_noDigit {max radix maxDigits : ℕ} {allowZeroPrefix : Bool} {s : Text}
    (h : NoDigit radix s) : readNumber max radix maxDigits allowZeroPrefix s = none := by
  rw [readNumber, readDigitRun_of_noDigit h]
  rfl

/-! ### IPv4 addresses -/

theorem readNumber_decimal {n : ℕ} (hn : n < 256) {s : Text} (hs : NoDigit 10 s) :
    readNumber 255 10 3 false (decimal n ++ s) = some (n, s) :=
  readNumber_toDigits (by decide) (by decide) false (by omega) (by omega) (by decide) hs

theorem readOctet_decimal {n : ℕ} (hn : n < 256) {s : Text} (hs : NoDigit 10 s) :
    readOctet true (decimal n ++ s) = some (n, s) := by
  rw [readOctet, readSeparator, if_pos rfl, readNumber_decimal hn hs]

theorem readOctet_dot_decimal {n : ℕ} (hn : n < 256) {s : Text} (hs : NoDigit 10 s) :
    readOctet false ('.' :: (decimal n ++ s)) = some (n, s) := by
  rw [readOctet, readSeparator, if_neg Bool.false_ne_true, readGivenChar, if_pos rfl,
    Option.bind_some, readNumber_decimal hn hs]

/-- **An IPv4 address is read back from its dotted form**, whatever follows, unless that is a
digit. -/
theorem readIpv4Addr_display (ip : Ipv4Addr) {s : Text} (hs : NoDigit 10 s) :
    readIpv4Addr (ip.display ++ s) = some (ip, s) := by
  have hdot : ∀ t, NoDigit 10 ('.' :: t) := noDigit_cons (by decide)
  have hlt : ∀ octet : UInt8, octet.toNat < 256 := fun octet => octet.toNat_lt
  simp only [Ipv4Addr.display, List.append_assoc, List.cons_append]
  rw [readIpv4Addr, readOctet_decimal (hlt ip.a) (hdot _)]
  simp only [Option.bind_eq_bind, Option.bind_some]
  rw [readOctet_dot_decimal (hlt ip.b) (hdot _)]
  simp only [Option.bind_some]
  rw [readOctet_dot_decimal (hlt ip.c) (hdot _)]
  simp only [Option.bind_some]
  rw [readOctet_dot_decimal (hlt ip.d) hs]
  simp only [Option.bind_some, UInt8.ofNat_toNat]

/-- A dotted address has a dot in it. -/
theorem readIpv4Addr_of_noDot {s : Text} (h : '.' ∉ s) : readIpv4Addr s = none := by
  unfold readIpv4Addr
  cases hfirst : readOctet true s with
  | none => rfl
  | some r =>
      have hsuffix : r.2 <:+ s := suffix_of_readNumber hfirst
      have hnext : readOctet false r.2 = none := by
        cases hr : r.2 with
        | nil => rfl
        | cons c t =>
            have hc : c ≠ '.' := by
              rintro rfl
              exact h (hsuffix.subset (hr ▸ List.mem_cons_self))
            rw [readOctet, readSeparator, if_neg Bool.false_ne_true, readGivenChar, if_neg hc]
            rfl
      simp [hnext]

/-- A dotted address starts with a digit. -/
theorem readIpv4Addr_of_noDigit {s : Text} (h : NoDigit 10 s) : readIpv4Addr s = none := by
  rw [readIpv4Addr, readOctet, readSeparator, if_pos rfl, readNumber_of_noDigit h]
  rfl

/-! ### IPv6 addresses -/

/-- What ends a run of groups: the text, or `::`. -/
def EndsGroups (s : Text) : Prop := s = [] ∨ ∃ t, s = ':' :: ':' :: t

theorem noDigit_colon {radix : ℕ} (hr : radix ≤ 16) (s : Text) : NoDigit radix (':' :: s) :=
  noDigit_cons ((by decide : ∀ b ≤ 16, toDigit b ':' = none) radix hr) s

theorem noDigit_of_endsGroups {radix : ℕ} (hr : radix ≤ 16) {s : Text} (h : EndsGroups s) :
    NoDigit radix s := by
  rcases h with rfl | ⟨t, rfl⟩
  · exact noDigit_nil radix
  · exact noDigit_colon hr _

theorem readNumber_hex (seg : UInt16) {s : Text} (hs : NoDigit 16 s) :
    readNumber 65535 16 4 true (hex seg.toNat ++ s) = some (seg.toNat, s) := by
  have hlt := seg.toNat_lt
  exact readNumber_toDigits (by decide) (by decide) true (by omega) (by omega) (by decide) hs

theorem noDot_hex (n : ℕ) : '.' ∉ hex n := by
  intro hmem
  obtain ⟨d, hd, hc⟩ := exists_digitChar_of_mem (by decide) hmem
  exact (by decide : ∀ d < 16, '.' ≠ Nat.digitChar d) d hd hc

/-- At the end of a run no group is read. -/
theorem readGroups_end (n : ℕ) (first : Bool) {s : Text} (h : EndsGroups s) :
    readGroups n first s = ([], false, s) := by
  have hstop : ∀ {α : Type} (inner : Text → Option (α × Text)),
      (∀ t, inner (':' :: t) = none) → inner [] = none →
        readSeparator ':' first inner s = none := by
    intro α inner hcolon hnil
    cases first with
    | true =>
        rcases h with rfl | ⟨t, rfl⟩
        · exact hnil
        · exact hcolon _
    | false =>
        rcases h with rfl | ⟨t, rfl⟩
        · rfl
        · exact hcolon _
  cases n with
  | zero => rfl
  | succ n =>
      rw [readGroups, hstop readIpv4Addr (fun t => readIpv4Addr_of_noDigit
        (noDigit_colon (by decide) t)) (readIpv4Addr_of_noDigit (noDigit_nil 10)),
        hstop (readNumber 65535 16 4 true) (fun t => readNumber_of_noDigit
        (noDigit_colon (by decide) t)) (readNumber_of_noDigit (noDigit_nil 16))]
      rw [ite_self]

/-- A group is read from its digits, where no dotted form follows. -/
theorem readGroups_cons (n : ℕ) (first : Bool) (seg : UInt16) {s : Text} (hs : NoDigit 16 s)
    (hdot : '.' ∉ s) :
    readGroups (n + 1) first ((if first then [] else [':']) ++ (hex seg.toNat ++ s)) =
      (seg :: (readGroups n false s).1, (readGroups n false s).2) := by
  have hnoDot : '.' ∉ hex seg.toNat ++ s := fun hmem =>
    (List.mem_append.1 hmem).elim (noDot_hex _) hdot
  have hsep : ∀ {α : Type} (inner : Text → Option (α × Text)),
      readSeparator ':' first inner ((if first then [] else [':']) ++ (hex seg.toNat ++ s)) =
        inner (hex seg.toNat ++ s) := by
    intro α inner
    cases first with
    | true => rfl
    | false => rfl
  rw [readGroups, hsep, hsep, readIpv4Addr_of_noDot hnoDot, ite_self, readNumber_hex seg hs]
  simp only [UInt16.ofNat_toNat]

/-- The groups of a run after its first. -/
def laterGroups (segs : List UInt16) : Text := segs.flatMap fun seg => ':' :: hex seg.toNat

theorem fmtSubslice_cons (seg : UInt16) (segs : List UInt16) :
    fmtSubslice (seg :: segs) = hex seg.toNat ++ laterGroups segs := by
  unfold fmtSubslice laterGroups
  induction segs generalizing seg with
  | nil => simp
  | cons seg' segs ih =>
      rw [List.map_cons, List.map_cons, List.intercalate_cons_cons, List.append_assoc,
        ← List.map_cons (f := fun seg : UInt16 => hex seg.toNat), ih seg', List.flatMap_cons]
      rfl

theorem noDot_laterGroups (segs : List UInt16) : '.' ∉ laterGroups segs := by
  intro hmem
  obtain ⟨seg, -, hc⟩ := List.mem_flatMap.1 hmem
  rcases List.mem_cons.1 hc with heq | hc
  · exact absurd heq (by decide)
  · exact noDot_hex _ hc

theorem readGroups_laterGroups (segs : List UInt16) {n : ℕ} (hn : segs.length ≤ n) {s : Text}
    (hs : EndsGroups s) (hdot : '.' ∉ s) :
    readGroups n false (laterGroups segs ++ s) = (segs, false, s) := by
  induction segs generalizing n with
  | nil => exact readGroups_end n false hs
  | cons seg segs ih =>
      obtain ⟨n, rfl⟩ : ∃ k, n = k + 1 := ⟨n - 1, by rw [List.length_cons] at hn; omega⟩
      have hrest : NoDigit 16 (laterGroups segs ++ s) := by
        cases segs with
        | nil => exact noDigit_of_endsGroups (by decide) hs
        | cons seg' segs => exact noDigit_colon (by decide) _
      have hnoDot : '.' ∉ laterGroups segs ++ s := fun hmem =>
        (List.mem_append.1 hmem).elim (noDot_laterGroups segs) hdot
      have hgroup := readGroups_cons n false seg hrest hnoDot
      rw [if_neg Bool.false_ne_true, ih (Nat.le_of_succ_le_succ hn)] at hgroup
      rw [laterGroups, List.flatMap_cons, List.append_assoc]
      exact hgroup

/-- **A run of groups is read back from its text.** -/
theorem readGroups_fmtSubslice (segs : List UInt16) {n : ℕ} (hn : segs.length ≤ n) {s : Text}
    (hs : EndsGroups s) (hdot : '.' ∉ s) :
    readGroups n true (fmtSubslice segs ++ s) = (segs, false, s) := by
  cases segs with
  | nil => exact readGroups_end n true hs
  | cons seg segs =>
      obtain ⟨n, rfl⟩ : ∃ k, n = k + 1 := ⟨n - 1, by rw [List.length_cons] at hn; omega⟩
      have hrest : NoDigit 16 (laterGroups segs ++ s) := by
        cases segs with
        | nil => exact noDigit_of_endsGroups (by decide) hs
        | cons seg' segs => exact noDigit_colon (by decide) _
      have hnoDot : '.' ∉ laterGroups segs ++ s := fun hmem =>
        (List.mem_append.1 hmem).elim (noDot_laterGroups segs) hdot
      have hgroup := readGroups_cons n true seg hrest hnoDot
      rw [if_pos rfl, readGroups_laterGroups segs (Nat.le_of_succ_le_succ hn) hs hdot] at hgroup
      rw [fmtSubslice_cons, List.append_assoc]
      exact hgroup

/-- The segments of a span are zeros. -/
def Span.IsZeros (z : Span) (segs : List UInt16) : Prop :=
  ∀ i, z.start ≤ i → i < z.start + z.len → segs[i]? = some 0

/-- **The span found is a run of zeros.** -/
theorem isZeros_longestZeros (pre segs : List UInt16) {longest current : Span}
    (hl : longest.IsZeros (pre ++ segs)) (hc : current.IsZeros (pre ++ segs))
    (hend : current.len ≠ 0 → current.start + current.len = pre.length) :
    (longestZeros segs pre.length longest current).IsZeros (pre ++ segs) := by
  induction segs generalizing pre longest current with
  | nil => exact hl
  | cons seg segs ih =>
      have happend : pre ++ seg :: segs = (pre ++ [seg]) ++ segs := by simp
      have hlen : pre.length + 1 = (pre ++ [seg]).length := by simp
      rw [longestZeros]
      by_cases hseg : seg = 0
      · -- the run goes on, or starts here
        have hrun : (Span.mk (if current.len = 0 then pre.length else current.start)
            (current.len + 1)).IsZeros (pre ++ seg :: segs) := by
          intro i hlo hhi
          dsimp only at hlo hhi
          rcases Nat.lt_or_ge i pre.length with hlt | hge
          · split_ifs at hlo with hzero
            · omega
            · exact hc i hlo (by have := hend hzero; omega)
          · obtain rfl : i = pre.length := by
              split_ifs at hhi with hzero
              · omega
              · have := hend hzero
                omega
            simp [hseg]
        rw [if_pos hseg]
        dsimp only
        rw [happend] at hrun hl ⊢
        rw [hlen]
        refine ih (pre ++ [seg]) ?_ hrun fun _ => ?_
        · by_cases hlt : longest.len < current.len + 1
          · rw [if_pos hlt]
            exact hrun
          · rw [if_neg hlt]
            exact hl
        · dsimp only
          split_ifs with hzero
          · omega
          · have := hend hzero
            omega
      · rw [if_neg hseg]
        rw [happend] at hl ⊢
        rw [hlen]
        exact ih (pre ++ [seg]) hl (fun i hlo hhi => by dsimp only at hlo hhi; omega)
          fun h => absurd rfl h

/-- Segments around a run of zeros. -/
theorem Span.IsZeros.split {z : Span} {segs : List UInt16} (h : z.IsZeros segs) (hpos : 0 < z.len) :
    z.start + z.len ≤ segs.length ∧
      segs = segs.take z.start ++ List.replicate z.len 0 ++ segs.drop (z.start + z.len) := by
  have hle : z.start + z.len ≤ segs.length := by
    have hlast := h (z.start + z.len - 1) (by omega) (by omega)
    have := (List.getElem?_eq_some_iff.1 hlast).1
    omega
  have hzeros : (segs.drop z.start).take z.len = List.replicate z.len 0 := by
    refine List.eq_replicate_iff.2 ⟨by rw [List.length_take, List.length_drop]; omega, ?_⟩
    intro seg hseg
    obtain ⟨i, hi, rfl⟩ := List.mem_iff_getElem.1 hseg
    rw [List.length_take] at hi
    have hget := h (z.start + i) (by omega) (by omega)
    rw [List.getElem_take, List.getElem_drop]
    exact (List.getElem?_eq_some_iff.1 hget).2
  refine ⟨hle, ?_⟩
  calc segs = segs.take z.start ++ segs.drop z.start := (List.take_append_drop z.start segs).symm
    _ = segs.take z.start ++
          ((segs.drop z.start).take z.len ++ (segs.drop z.start).drop z.len) := by
        rw [List.take_append_drop z.len]
    _ = segs.take z.start ++ List.replicate z.len 0 ++ segs.drop (z.start + z.len) := by
        rw [hzeros, List.drop_drop, List.append_assoc]

/-- The zeros the canonical text shortens. -/
theorem isZeros_display (segs : List UInt16) :
    (longestZeros segs 0 ⟨0, 0⟩ ⟨0, 0⟩).IsZeros segs := by
  have hnone : (Span.mk 0 0).IsZeros ([] ++ segs) := by
    intro i hlo hhi
    dsimp only at hlo hhi
    omega
  exact isZeros_longestZeros [] segs hnone hnone fun h => absurd rfl h

theorem noDot_fmtSubslice (segs : List UInt16) : '.' ∉ fmtSubslice segs := by
  cases segs with
  | nil => exact List.not_mem_nil
  | cons seg segs =>
      rw [fmtSubslice_cons, List.mem_append]
      exact not_or.2 ⟨noDot_hex _, noDot_laterGroups segs⟩

theorem ofSegments_eq (ip : Ipv6Addr) {segs : List UInt16} (h : segs = ip.segments) :
    Ipv6Addr.ofSegments segs = some ip := by
  subst h
  exact dif_pos ip.length_segments

/-- An address without a dotted tail is read back from its canonical text. -/
theorem readIpv6Addr_segments (ip : Ipv6Addr) (h : ip.toIpv4Mapped = none) :
    readIpv6Addr ip.display = some (ip, []) := by
  have hlen := ip.length_segments
  unfold Ipv6Addr.display
  rw [h]
  dsimp only
  split_ifs with hzeros
  · obtain ⟨hle, hsplit⟩ := (isZeros_display ip.segments).split (by omega)
    generalize hz : longestZeros ip.segments 0 ⟨0, 0⟩ ⟨0, 0⟩ = z at hzeros hle hsplit ⊢
    have hhead : (ip.segments.take z.start).length = z.start := List.length_take_of_le (by omega)
    have htail : (ip.segments.drop (z.start + z.len)).length = 8 - z.start - z.len := by
      rw [List.length_drop]
      omega
    have hreadTail := readGroups_fmtSubslice (ip.segments.drop (z.start + z.len))
      (n := 8 - (z.start + 1)) (by omega) (Or.inl rfl) List.not_mem_nil
    rw [List.append_nil] at hreadTail
    have hreadHead := readGroups_fmtSubslice (ip.segments.take z.start) (n := 8) (by omega)
      (s := [':', ':'] ++ fmtSubslice (ip.segments.drop (z.start + z.len))) (.inr ⟨_, rfl⟩)
      (by simpa using noDot_fmtSubslice _)
    rw [readIpv6Addr, List.append_assoc, hreadHead]
    dsimp only
    rw [hhead, if_neg (by omega), if_neg Bool.false_ne_true]
    simp only [readGivenChar, List.cons_append, List.nil_append, if_true, Option.bind_eq_bind,
      Option.bind_some, hreadTail, htail]
    rw [ofSegments_eq ip]
    · rfl
    · rw [show 8 - z.start - (8 - z.start - z.len) = z.len by omega]
      exact hsplit.symm
  · have hread := readGroups_fmtSubslice ip.segments (n := 8) (by omega) (Or.inl rfl)
      List.not_mem_nil
    rw [List.append_nil] at hread
    rw [readIpv6Addr, hread]
    dsimp only
    rw [if_pos hlen, ofSegments_eq ip rfl]
    rfl

/-- The segments of an IPv4-mapped address. -/
theorem segments_of_toIpv4Mapped {ip : Ipv6Addr} {v4 : Ipv4Addr}
    (h : ip.toIpv4Mapped = some v4) :
    ip.segments = [0, 0, 0, 0, 0, 0xffff, fromBeBytes16 v4.a v4.b, fromBeBytes16 v4.c v4.d] := by
  unfold Ipv6Addr.toIpv4Mapped at h
  split at h
  · rename_i hi lo heq
    cases h
    rw [heq, fromBeBytes16_toBeBytes16, fromBeBytes16_toBeBytes16]
  · cases h

/-- An IPv4-mapped address is read back from its text. -/
theorem readIpv6Addr_mapped (ip : Ipv6Addr) {v4 : Ipv4Addr} (h : ip.toIpv4Mapped = some v4) :
    readIpv6Addr ip.display = some (ip, []) := by
  have hv4 := readIpv4Addr_display v4 (noDigit_nil 10)
  rw [List.append_nil] at hv4
  have hffff : readGroups 7 true ("ffff:".toList ++ v4.display) =
      ([0xffff, fromBeBytes16 v4.a v4.b, fromBeBytes16 v4.c v4.d], true, []) := by
    have hgroup : readNumber 65535 16 4 true ("ffff:".toList ++ v4.display) =
        some (65535, ':' :: v4.display) :=
      readNumber_hex 0xffff (noDigit_colon (by decide) v4.display)
    have hnot : readIpv4Addr ("ffff:".toList ++ v4.display) = none :=
      readIpv4Addr_of_noDigit (noDigit_cons (by decide) _)
    rw [readGroups, readSeparator, if_pos rfl, hnot, ite_self, readSeparator, if_pos rfl, hgroup]
    dsimp only
    rw [readGroups, if_pos (by decide), readSeparator, if_neg Bool.false_ne_true, readGivenChar,
      if_pos rfl, Option.bind_some, hv4]
    rfl
  unfold Ipv6Addr.display
  rw [h]
  dsimp only
  rw [readIpv6Addr, show "::ffff:".toList ++ v4.display =
    ':' :: ':' :: ("ffff:".toList ++ v4.display) from rfl, readGroups_end 8 true (.inr ⟨_, rfl⟩)]
  simp only [List.length_nil, readGivenChar, if_true, Option.bind_eq_bind, Option.bind_some,
    hffff]
  rw [if_neg (by decide), if_neg Bool.false_ne_true, ofSegments_eq ip]
  · rfl
  · rw [segments_of_toIpv4Mapped h]
    rfl

/-- The text of an IPv6 address does not begin with an IPv4 address. -/
theorem readIpv4Addr_display_v6 (ip : Ipv6Addr) : readIpv4Addr ip.display = none := by
  unfold Ipv6Addr.display
  cases ip.toIpv4Mapped with
  | some v4 => exact readIpv4Addr_of_noDigit (noDigit_cons (by decide) _)
  | none =>
      refine readIpv4Addr_of_noDot ?_
      dsimp only
      split_ifs
      · simp only [List.mem_append, not_or]
        exact ⟨⟨noDot_fmtSubslice _, by decide⟩, noDot_fmtSubslice _⟩
      · exact noDot_fmtSubslice _

/-- **Every address is read back from its canonical text.** -/
theorem IpAddr.fromStr_display (ip : IpAddr) : IpAddr.fromStr ip.display = some ip := by
  cases ip with
  | v4 ip =>
      have hread := readIpv4Addr_display ip (noDigit_nil 10)
      rw [List.append_nil] at hread
      rw [IpAddr.fromStr, parseWith, readIpAddr, IpAddr.display, hread]
      rfl
  | v6 ip =>
      have hread : readIpv6Addr ip.display = some (ip, []) := by
        cases h : ip.toIpv4Mapped with
        | none => exact readIpv6Addr_segments ip h
        | some v4 => exact readIpv6Addr_mapped ip h
      have hnot : readIpv4Addr ip.display = none := readIpv4Addr_display_v6 ip
      rw [IpAddr.fromStr, parseWith, readIpAddr, IpAddr.display, hnot, hread]
      rfl

end Rnmap
