/-
**What is an address.**

`Rnmap.AddrParse` reads every address back from its canonical text.  Here is the other direction:
what a text is like that std reads as an address.  A dotted address has one spelling only, since a
leading zero is refused; an IPv6 address has many, but all of them consist of hexadecimal digits,
colons and dots.

Main definitions:

* `Rnmap.Takes` — a parser takes characters of a class from the front of a text;
* `Rnmap.IsAddrChar` — the characters of addresses.

Main results:

* `Rnmap.decimal_ofDigitChars` — digits without a leading zero are the text of their value;
* `Rnmap.Ipv4Addr.fromStr_eq_some_iff` — **an IPv4 address is accepted in its canonical text
  only**;
* `Rnmap.isAddrChar_of_fromStr` — every address accepted consists of `Rnmap.IsAddrChar`s;
* `Rnmap.readIpv6Addr_of_noColon` — an IPv6 address has a colon in it.
-/

import Rnmap.AddrParse

set_option relaxedAutoImplicit false
set_option autoImplicit false

namespace Rnmap

open Text Bytes

/-! ### What parsers take -/

theorem eq_cons_of_readGivenChar {c : Char} {s t : Text} (h : readGivenChar c s = some t) :
    s = c :: t := by
  cases s with
  | nil => cases h
  | cons d s =>
      rw [readGivenChar] at h
      split_ifs at h with hd
      cases h
      rw [hd]

/-- What a parser takes from the front of a text consists of characters of a class. -/
def Takes {α : Type} (P : Char → Prop) (inner : Text → Option (α × Text)) : Prop :=
  ∀ s r, inner s = some r → ∃ taken, s = taken ++ r.2 ∧ ∀ c ∈ taken, P c

namespace Takes

variable {α : Type} {P Q : Char → Prop} {inner : Text → Option (α × Text)}

theorem mono (h : Takes P inner) (hPQ : ∀ c, P c → Q c) : Takes Q inner := by
  intro s r hr
  obtain ⟨taken, hs, htaken⟩ := h s r hr
  exact ⟨taken, hs, fun c hc => hPQ c (htaken c hc)⟩

theorem readSeparator {sep : Char} (hsep : P sep) (first : Bool) (h : Takes P inner) :
    Takes P (readSeparator sep first inner) := by
  intro s r hr
  unfold Rnmap.readSeparator at hr
  split_ifs at hr
  · exact h s r hr
  · obtain ⟨t, ht, hinner⟩ := Option.bind_eq_some_iff.1 hr
    obtain ⟨taken, rfl, htaken⟩ := h t r hinner
    exact ⟨sep :: taken, eq_cons_of_readGivenChar ht, List.forall_mem_cons.2 ⟨hsep, htaken⟩⟩

/-- A text that is read as a whole consists of characters of the class. -/
theorem of_parseWith (h : Takes P inner) {s : Text} {a : α} (hs : parseWith inner s = some a) :
    ∀ c ∈ s, P c := by
  unfold parseWith at hs
  split at hs
  · rename_i hinner
    obtain ⟨taken, rfl, htaken⟩ := h _ _ hinner
    simpa using htaken
  · cases hs

end Takes

/-! ### Digits -/

/-- What the digit loop has read. -/
theorem exists_digits_of_readDigitRun {radix maxDigits : ℕ} {s : Text} {value count : ℕ}
    {r : ℕ × ℕ × Text} (h : readDigitRun radix maxDigits s value count = some r) :
    ∃ ds, s = ds ++ r.2.2 ∧ (∀ c ∈ ds, (toDigit radix c).isSome) ∧ r.2.1 = count + ds.length ∧
      r.1 = ds.foldl (fun v c => v * radix + (toDigit radix c).getD 0) value := by
  induction s generalizing value count with
  | nil =>
      cases h
      exact ⟨[], rfl, by simp, rfl, rfl⟩
  | cons c s ih =>
      rw [readDigitRun] at h
      split at h
      · rename_i d hd
        split_ifs at h
        obtain ⟨ds, rfl, hds, hcount, hvalue⟩ := ih h
        refine ⟨c :: ds, rfl, List.forall_mem_cons.2 ⟨by rw [hd]; rfl, hds⟩, ?_, ?_⟩
        · rw [hcount, List.length_cons]
          omega
        · rw [hvalue, List.foldl_cons, hd, Option.getD_some]
      · cases h
        exact ⟨[], rfl, by simp, rfl, rfl⟩

/-- A number takes digits. -/
theorem takes_readNumber (max radix maxDigits : ℕ) (allowZeroPrefix : Bool) :
    Takes (fun c => (toDigit radix c).isSome) (readNumber max radix maxDigits allowZeroPrefix) := by
  intro s r h
  unfold readNumber at h
  split at h
  · rename_i hrun
    obtain ⟨ds, hs, hds, -, -⟩ := exists_digits_of_readDigitRun hrun
    split_ifs at h
    cases h
    exact ⟨ds, hs, hds⟩
  · cases h

/-- The decimal digits. -/
theorem isDigit_iff {c : Char} : c.isDigit = true ↔ 48 ≤ c.toNat ∧ c.toNat ≤ 57 :=
  Char.isDigit_iff_toNat

theorem toDigit_ten_eq_some {c : Char} {d : ℕ} (h : toDigit 10 c = some d) :
    c.isDigit = true ∧ d = c.toNat - '0'.toNat := by
  have hzero : '0'.toNat = 48 := rfl
  simp only [toDigit, Option.ite_none_right_eq_some, Option.some.injEq] at h
  rw [isDigit_iff, hzero]
  split_ifs at h <;> omega

theorem isSome_toDigit_of_isDigit {c : Char} (h : c.isDigit = true) :
    (toDigit 16 c).isSome = true := by
  rw [isDigit_iff] at h
  have hval : c.toNat - 48 < 16 := by omega
  simp only [toDigit]
  rw [if_pos h, if_pos hval]
  rfl

/-- The value of decimal digits is computed as the digit loop does. -/
theorem foldl_toDigit_ten {ds : Text} (h : ∀ c ∈ ds, (toDigit 10 c).isSome) (value : ℕ) :
    ds.foldl (fun v c => v * 10 + (toDigit 10 c).getD 0) value = Nat.ofDigitChars 10 ds value := by
  induction ds generalizing value with
  | nil => rfl
  | cons c ds ih =>
      obtain ⟨hc, hds⟩ := List.forall_mem_cons.1 h
      obtain ⟨d, hd⟩ := Option.isSome_iff_exists.1 hc
      rw [List.foldl_cons, ih hds, Nat.ofDigitChars_cons, hd, Option.getD_some,
        (toDigit_ten_eq_some hd).2, Nat.mul_comm 10]

theorem digitChar_of_isDigit {c : Char} (h : c.isDigit = true) :
    Nat.digitChar (c.toNat - '0'.toNat) = c := by
  have hzero : '0'.toNat = 48 := rfl
  rw [isDigit_iff] at h
  rw [← Char.toNat_inj, Nat.toNat_digitChar_of_lt_ten (by omega), hzero]
  omega

/-- The text of a digit. -/
theorem decimal_digit {c : Char} (h : c.isDigit = true) :
    decimal (c.toNat - '0'.toNat) = [c] := by
  have hzero : '0'.toNat = 48 := rfl
  have hbounds := isDigit_iff.1 h
  rw [decimal, Nat.toDigits_of_lt_base (by omega), digitChar_of_isDigit h]

/-- Digits after a positive number go on with it. -/
theorem decimal_append_digits {ds : Text} (h : ∀ c ∈ ds, c.isDigit) {n : ℕ} (hn : 0 < n) :
    decimal n ++ ds = decimal (Nat.ofDigitChars 10 ds n) := by
  have hzero : '0'.toNat = 48 := rfl
  induction ds generalizing n with
  | nil => rw [List.append_nil, Nat.ofDigitChars_nil]
  | cons c ds ih =>
      obtain ⟨hc, hds⟩ := List.forall_mem_cons.1 h
      have hbounds := isDigit_iff.1 hc
      have hnext : decimal n ++ [c] = decimal (10 * n + (c.toNat - '0'.toNat)) := by
        rw [← decimal_digit hc]
        exact Nat.toDigits_append_toDigits (by decide) hn (by omega)
      rw [Nat.ofDigitChars_cons, ← ih hds (by omega), ← hnext, List.append_assoc,
        List.singleton_append]

/-- **Digits without a leading zero are the text of their value.** -/
theorem decimal_ofDigitChars {ds : Text} (h : ∀ c ∈ ds, c.isDigit) (hne : ds ≠ [])
    (hzero : ds.head? = some '0' → ds.length ≤ 1) : decimal (Nat.ofDigitChars 10 ds 0) = ds := by
  cases ds with
  | nil => exact absurd rfl hne
  | cons c ds =>
      obtain ⟨hc, hds⟩ := List.forall_mem_cons.1 h
      rw [Nat.ofDigitChars_cons, Nat.mul_zero, Nat.zero_add]
      rcases Nat.eq_zero_or_pos (c.toNat - '0'.toNat) with hval | hval
      · -- a zero stands alone
        have hchar : c = '0' := by
          rw [← digitChar_of_isDigit hc, hval]
          rfl
        subst hchar
        have hnil : ds = [] := List.length_eq_zero_iff.1 (by simpa using hzero rfl)
        subst hnil
        rfl
      · rw [← decimal_append_digits hds hval, decimal_digit hc, List.singleton_append]

/-- An octet is read from its canonical text only. -/
theorem eq_decimal_of_readNumber {max maxDigits : ℕ} {s : Text} {r : ℕ × Text}
    (h : readNumber max 10 maxDigits false s = some r) : s = decimal r.1 ++ r.2 ∧ r.1 ≤ max := by
  unfold readNumber at h
  split at h
  · rename_i value count rest hrun
    obtain ⟨ds, hs, hds, hcount, hvalue⟩ := exists_digits_of_readDigitRun hrun
    dsimp only at hs hcount hvalue
    split_ifs at h with hempty hprefix hmax
    cases h
    rw [foldl_toDigit_ten hds] at hvalue
    refine ⟨?_, Nat.not_lt.1 hmax⟩
    have hdigits : ∀ c ∈ ds, c.isDigit = true := by
      intro c hc
      obtain ⟨d, hd⟩ := Option.isSome_iff_exists.1 (hds c hc)
      exact (toDigit_ten_eq_some hd).1
    have hne : ds ≠ [] := by
      rintro rfl
      exact hempty hcount
    have hzero : ds.head? = some '0' → ds.length ≤ 1 := by
      intro hhead
      by_contra hlong
      refine hprefix ?_
      rw [hs, List.head?_append, hhead]
      simp only [Bool.not_false, Option.some_or, decide_true, Bool.and_self, Bool.true_and,
        decide_eq_true_eq]
      omega
    rw [hs, hvalue, decimal_ofDigitChars hdigits hne hzero]
  · cases h

/-! ### IPv4 addresses -/

theorem eq_of_readOctet_true {s : Text} {r : ℕ × Text} (h : readOctet true s = some r) :
    s = decimal r.1 ++ r.2 ∧ r.1 ≤ 255 := by
  rw [readOctet, readSeparator, if_pos rfl] at h
  exact eq_decimal_of_readNumber h

theorem eq_of_readOctet_false {s : Text} {r : ℕ × Text} (h : readOctet false s = some r) :
    s = '.' :: (decimal r.1 ++ r.2) ∧ r.1 ≤ 255 := by
  rw [readOctet, readSeparator, if_neg Bool.false_ne_true] at h
  obtain ⟨t, ht, hnum⟩ := Option.bind_eq_some_iff.1 h
  obtain ⟨rfl, hle⟩ := eq_decimal_of_readNumber hnum
  exact ⟨eq_cons_of_readGivenChar ht, hle⟩

/-- **What is read as an IPv4 address is its canonical text.** -/
theorem eq_display_of_readIpv4Addr {s : Text} {r : Ipv4Addr × Text}
    (h : readIpv4Addr s = some r) : s = r.1.display ++ r.2 := by
  unfold readIpv4Addr at h
  simp only [Option.bind_eq_bind, Option.bind_eq_some_iff] at h
  obtain ⟨a, ha, b, hb, c, hc, d, hd, hr⟩ := h
  cases hr
  obtain ⟨hs, hale⟩ := eq_of_readOctet_true ha
  obtain ⟨hsa, hble⟩ := eq_of_readOctet_false hb
  obtain ⟨hsb, hcle⟩ := eq_of_readOctet_false hc
  obtain ⟨hsc, hdle⟩ := eq_of_readOctet_false hd
  have htoNat : ∀ n ≤ 255, (UInt8.ofNat n).toNat = n := by
    intro n hn
    rw [UInt8.toNat_ofNat']
    omega
  simp only [hs, hsa, hsb, hsc, Ipv4Addr.display, htoNat, hale, hble, hcle, hdle,
    List.append_assoc, List.cons_append]

/-- **An IPv4 address is accepted in its canonical text only.** -/
theorem Ipv4Addr.fromStr_eq_some_iff {s : Text} {ip : Ipv4Addr} :
    Ipv4Addr.fromStr s = some ip ↔ s = ip.display := by
  unfold Ipv4Addr.fromStr parseWith
  constructor
  · intro h
    split at h
    · rename_i hread
      cases h
      rw [eq_display_of_readIpv4Addr hread, List.append_nil]
    · cases h
  · rintro rfl
    have hread := readIpv4Addr_display ip (noDigit_nil 10)
    rw [List.append_nil] at hread
    rw [hread]

/-- The characters of a dotted address. -/
theorem mem_display_v4 {ip : Ipv4Addr} {c : Char} (h : c ∈ ip.display) :
    c.isDigit = true ∨ c = '.' := by
  simp only [Ipv4Addr.display, List.mem_append, List.mem_cons] at h
  rcases h with ((h | rfl | h) | rfl | h) | rfl | h
  · exact .inl (isDigit_of_mem_decimal h)
  · exact .inr rfl
  · exact .inl (isDigit_of_mem_decimal h)
  · exact .inr rfl
  · exact .inl (isDigit_of_mem_decimal h)
  · exact .inr rfl
  · exact .inl (isDigit_of_mem_decimal h)

theorem notMem_display_v4 {ip : Ipv4Addr} {c : Char} (hdigit : c.isDigit = false)
    (hdot : c ≠ '.') : c ∉ ip.display := by
  intro h
  rcases mem_display_v4 h with hc | hc
  · rw [hc] at hdigit
    cases hdigit
  · exact hdot hc

theorem count_dot_decimal (n : ℕ) : (decimal n).count '.' = 0 :=
  List.count_eq_zero_of_not_mem fun h => absurd (isDigit_of_mem_decimal h) (by decide)

/-- A dotted address has three dots. -/
theorem count_dot_display (ip : Ipv4Addr) : ip.display.count '.' = 3 := by
  simp only [Ipv4Addr.display, List.count_append, List.count_cons, count_dot_decimal,
    beq_self_eq_true, if_true]

/-! ### The characters of addresses -/

/-- The characters of addresses: hexadecimal digits, colons and dots. -/
def IsAddrChar (c : Char) : Prop := (toDigit 16 c).isSome ∨ c = ':' ∨ c = '.'

instance (c : Char) : Decidable (IsAddrChar c) := by
  unfold IsAddrChar
  infer_instance

theorem isAddrChar_of_mem_display_v4 {ip : Ipv4Addr} {c : Char} (h : c ∈ ip.display) :
    IsAddrChar c := by
  rcases mem_display_v4 h with hdigit | rfl
  · exact .inl (isSome_toDigit_of_isDigit hdigit)
  · exact .inr (.inr rfl)

theorem takes_readIpv4Addr : Takes IsAddrChar readIpv4Addr :=
  fun _ r h => ⟨r.1.display, eq_display_of_readIpv4Addr h, fun _ => isAddrChar_of_mem_display_v4⟩

theorem takes_group (first : Bool) :
    Takes IsAddrChar (readSeparator ':' first (readNumber 65535 16 4 true)) :=
  ((takes_readNumber 65535 16 4 true).mono fun _ => Or.inl).readSeparator (.inr (.inl rfl)) first

theorem takes_dotted (n : ℕ) (first : Bool) :
    Takes IsAddrChar fun s => if 0 < n then readSeparator ':' first readIpv4Addr s else none := by
  intro s r h
  dsimp only at h
  split_ifs at h
  exact takes_readIpv4Addr.readSeparator (.inr (.inl rfl)) first s r h

/-- A run of groups takes characters of addresses. -/
theorem exists_taken_readGroups (n : ℕ) (first : Bool) (s : Text) :
    ∃ taken, s = taken ++ (readGroups n first s).2.2 ∧ ∀ c ∈ taken, IsAddrChar c := by
  induction n generalizing first s with
  | zero => exact ⟨[], rfl, fun c hc => nomatch hc⟩
  | succ n ih =>
      rw [readGroups]
      split
      · rename_i hread
        exact takes_dotted n first s _ hread
      · split
        · rename_i group rest hread
          obtain ⟨taken, hs, htaken⟩ := takes_group first s _ hread
          obtain ⟨more, hrest, hmore⟩ := ih false rest
          refine ⟨taken ++ more, ?_, List.forall_mem_append.2 ⟨htaken, hmore⟩⟩
          rw [List.append_assoc, ← hrest]
          exact hs
        · exact ⟨[], rfl, fun c hc => nomatch hc⟩

theorem takes_readIpv6Addr : Takes IsAddrChar readIpv6Addr := by
  intro s r h
  have hcolon : IsAddrChar ':' := by decide
  obtain ⟨front, hs, hfront⟩ := exists_taken_readGroups 8 true s
  unfold readIpv6Addr at h
  generalize readGroups 8 true s = groups at hs h
  obtain ⟨head, ipv4, rest⟩ := groups
  dsimp only at hs h
  split_ifs at h
  · obtain ⟨ip, -, rfl⟩ := Option.map_eq_some_iff.1 h
    exact ⟨front, hs, hfront⟩
  · -- what is after `::` is a run of groups again
    simp only [Option.bind_eq_bind, Option.bind_eq_some_iff] at h
    obtain ⟨rest₁, hrest₁, rest₂, hrest₂, hr⟩ := h
    obtain ⟨ip, -, rfl⟩ := Option.map_eq_some_iff.1 hr
    obtain ⟨back, hback, htaken⟩ := exists_taken_readGroups (8 - (head.length + 1)) true rest₂
    refine ⟨front ++ ':' :: ':' :: back, ?_, ?_⟩
    · rw [hs, eq_cons_of_readGivenChar hrest₁, eq_cons_of_readGivenChar hrest₂]
      simp only [List.append_assoc, List.cons_append, ← hback]
    · exact List.forall_mem_append.2 ⟨hfront,
        List.forall_mem_cons.2 ⟨hcolon, List.forall_mem_cons.2 ⟨hcolon, htaken⟩⟩⟩

theorem takes_readIpAddr : Takes IsAddrChar readIpAddr := by
  intro s r h
  rcases Option.or_eq_some_iff.1 h with h4 | ⟨-, h6⟩
  · obtain ⟨r', hr', rfl⟩ := Option.map_eq_some_iff.1 h4
    exact takes_readIpv4Addr s r' hr'
  · obtain ⟨r', hr', rfl⟩ := Option.map_eq_some_iff.1 h6
    exact takes_readIpv6Addr s r' hr'

/-- **Every address accepted consists of hexadecimal digits, colons and dots.** -/
theorem isAddrChar_of_fromStr {s : Text} {ip : IpAddr} (h : IpAddr.fromStr s = some ip) :
    ∀ c ∈ s, IsAddrChar c :=
  takes_readIpAddr.of_parseWith h

/-! ### Which kind of address -/

theorem readGivenChar_of_notMem {c : Char} {s : Text} (h : c ∉ s) : readGivenChar c s = none := by
  rw [Option.eq_none_iff_forall_ne_some]
  intro t ht
  rw [eq_cons_of_readGivenChar ht] at h
  exact h List.mem_cons_self

theorem readSeparator_of_notMem {α : Type} {sep : Char} {inner : Text → Option (α × Text)}
    {s : Text} (h : sep ∉ s) : readSeparator sep false inner s = none := by
  rw [readSeparator, if_neg Bool.false_ne_true, readGivenChar_of_notMem h, Option.bind_none]

/-- Without a colon one group is read at most, or two in the dotted form. -/
theorem length_readGroups_le {n : ℕ} {s : Text} (h : ':' ∉ s) :
    (readGroups (n + 1) true s).1.length ≤ 2 := by
  have hlater : ∀ t, ':' ∉ t → readGroups n false t = ([], false, t) := by
    intro t ht
    cases n with
    | zero => rfl
    | succ n => rw [readGroups, readSeparator_of_notMem ht, readSeparator_of_notMem ht, ite_self]
  rw [readGroups]
  split
  · exact le_refl 2
  · split
    · rename_i group rest hread
      have hrest : ':' ∉ rest := fun hmem => h ((suffix_of_readNumber hread).subset hmem)
      rw [hlater rest hrest]
      exact Nat.le_succ 1
    · exact Nat.zero_le 2

/-- **An IPv6 address has a colon in it.** -/
theorem readIpv6Addr_of_noColon {s : Text} (h : ':' ∉ s) : readIpv6Addr s = none := by
  have hlen : (readGroups 8 true s).1.length ≤ 2 := length_readGroups_le h
  obtain ⟨taken, hs, -⟩ := exists_taken_readGroups 8 true s
  have hrest : ':' ∉ (readGroups 8 true s).2.2 := by
    rw [hs] at h
    exact fun hmem => h (List.mem_append_right _ hmem)
  unfold readIpv6Addr
  generalize readGroups 8 true s = groups at hlen hrest
  obtain ⟨head, ipv4, rest⟩ := groups
  dsimp only at hlen hrest ⊢
  rw [if_neg (by omega), readGivenChar_of_notMem hrest]
  split_ifs <;> rfl

/-- Without a colon only an IPv4 address is accepted. -/
theorem IpAddr.fromStr_of_noColon {s : Text} (h : ':' ∉ s) :
    IpAddr.fromStr s = (Ipv4Addr.fromStr s).map .v4 := by
  rw [IpAddr.fromStr, Ipv4Addr.fromStr, parseWith, parseWith, readIpAddr,
    readIpv6Addr_of_noColon h, Option.map_none, Option.or_none]
  cases hread : readIpv4Addr s with
  | none => rfl
  | some r =>
      obtain ⟨ip, rest⟩ := r
      cases rest with
      | nil => rfl
      | cons c rest => rfl

/-- **What is accepted as an IPv4 address is its canonical text.** -/
theorem eq_display_of_fromStr_v4 {s : Text} {ip : Ipv4Addr}
    (h : IpAddr.fromStr s = some (.v4 ip)) : s = ip.display := by
  unfold IpAddr.fromStr parseWith at h
  split at h
  · rename_i hread
    cases h
    rcases Option.or_eq_some_iff.1 hread with h4 | ⟨-, h6⟩
    · obtain ⟨r, hr, heq⟩ := Option.map_eq_some_iff.1 h4
      obtain ⟨ip', rest⟩ := r
      cases heq
      rw [eq_display_of_readIpv4Addr hr, List.append_nil]
    · obtain ⟨r, hr, heq⟩ := Option.map_eq_some_iff.1 h6
      cases heq
  · cases h

end Rnmap
