/-
**Bytes as text, with a replacement for what is not UTF-8.**

What a peer sends is bytes.  The lossy decoder reads them as UTF-8 and puts one replacement
character where they stop being UTF-8: for the longest start of a character, when the byte behind
it does not continue it, and for a byte that starts none.  The decoder is a machine that takes one
byte after the other, and the facts below come from one lemma on what it does with the bytes in
front of it.

Main definitions:

* `Utf8.Lead`, `Utf8.lead` — what the first byte of a character asks for;
* `Utf8.Place`, `Utf8.step`, `Utf8.decodeFrom`, `Utf8.decodeLossy` — the machine;
* `Utf8.encode` — the bytes of a text.

Main results:

* `Utf8.encodeChar_eq_cons_iff` — the bytes of a character, by its first byte;
* `Utf8.decodes` — **how bytes are decoded**;
* `Utf8.decodeLossy_encode_append` — a text is read back from its bytes, whatever follows;
* `Utf8.encode_decodeLossy` — **nothing else is lost**: without a replacement character, the bytes
  are those of the text;
* `Utf8.Decodes.count_eq` — every ASCII character is there as often as its byte.
-/

import Mathlib.Tactic
import Mathlib.Data.String.Basic

set_option relaxedAutoImplicit false
set_option autoImplicit false

namespace Utf8

/-! ### The machine -/

/-- What is missing of a character: the number of bytes, the bounds of the next one, and the bits
there are so far. -/
structure Lead where
  tails : ℕ
  low : ℕ
  high : ℕ
  bits : ℕ

/-- What the first byte of a longer character asks for.  The bounds of the second byte leave out
what has a shorter form, the surrogates, and what is too large. -/
def lead (b : UInt8) : Option Lead :=
  let n := b.toNat
  if 0xC2 ≤ n ∧ n ≤ 0xDF then some ⟨1, 0x80, 0xBF, n - 0xC0⟩
  else if 0xE0 ≤ n ∧ n ≤ 0xEF then
    some ⟨2, if n = 0xE0 then 0xA0 else 0x80, if n = 0xED then 0x9F else 0xBF, n - 0xE0⟩
  else if 0xF0 ≤ n ∧ n ≤ 0xF4 then
    some ⟨3, if n = 0xF0 then 0x90 else 0x80, if n = 0xF4 then 0x8F else 0xBF, n - 0xF0⟩
  else none

namespace Lead

/-- Whether a byte continues the character. -/
def accepts (l : Lead) (b : UInt8) : Bool := l.low ≤ b.toNat && b.toNat ≤ l.high

/-- What is missing after a byte. -/
def next (l : Lead) (b : UInt8) : Lead :=
  ⟨l.tails - 1, 0x80, 0xBF, 64 * l.bits + (b.toNat - 0x80)⟩

end Lead

/-- U+FFFD. -/
def replacement : Char := '\uFFFD'

/-- Where the machine stands: between characters, or inside one. -/
inductive Place
  | between
  | inside (l : Lead)

/-- A byte that a character may start with. -/
def first (b : UInt8) : Place × List Char :=
  if b.toNat < 0x80 then (.between, [Char.ofNat b.toNat])
  else match lead b with
    | some l => (.inside l, [])
    | none => (.between, [replacement])

/-- One byte: where the machine stands after it, and the characters it adds. -/
def step : Place → UInt8 → Place × List Char
  | .between, b => first b
  | .inside l, b =>
      if l.accepts b then
        if (l.next b).tails = 0 then (.between, [Char.ofNat (l.next b).bits])
        else (.inside (l.next b), [])
      -- the start of a character is given up, and the byte is looked at again
      else ((first b).1, replacement :: (first b).2)

/-- The characters of the bytes that are left. -/
def decodeFrom : Place → List UInt8 → List Char
  | .between, [] => []
  | .inside _, [] => [replacement]
  | p, b :: bs => (step p b).2 ++ decodeFrom (step p b).1 bs

/-- `String::from_utf8_lossy`. -/
def decodeLossy (bs : List UInt8) : List Char := decodeFrom .between bs

/-- The bytes of a text. -/
def encode (s : List Char) : List UInt8 := s.flatMap String.utf8EncodeChar

@[simp] theorem decodeLossy_nil : decodeLossy [] = [] := rfl

@[simp] theorem encode_nil : encode [] = [] := rfl

@[simp] theorem encode_cons (c : Char) (s : List Char) :
    encode (c :: s) = String.utf8EncodeChar c ++ encode s := rfl

@[simp] theorem encode_append (s t : List Char) : encode (s ++ t) = encode s ++ encode t :=
  List.flatMap_append

/-! ### Inside a character -/

namespace Lead

/-- The bytes that complete a character, and the number of the character. -/
def Takes : Lead → List UInt8 → ℕ → Prop
  | l, [], n => l.tails = 0 ∧ n = l.bits
  | l, b :: bs, n => 0 < l.tails ∧ l.accepts b = true ∧ (l.next b).Takes bs n

theorem accepts_iff {l : Lead} {b : UInt8} :
    l.accepts b = true ↔ l.low ≤ b.toNat ∧ b.toNat ≤ l.high := by
  simp [accepts]

/-- The bytes that complete a character are none that a character starts with. -/
theorem le_of_mem_takes {l : Lead} (hlow : 0x80 ≤ l.low) {ts : List UInt8} {n : ℕ}
    (h : l.Takes ts n) : ∀ b ∈ ts, 0x80 ≤ b.toNat := by
  induction ts generalizing l with
  | nil => exact fun _ hmem => nomatch hmem
  | cons b ts ih =>
      obtain ⟨-, haccepts, hrest⟩ := h
      intro x hx
      rcases List.mem_cons.1 hx with rfl | hx
      · exact hlow.trans (accepts_iff.1 haccepts).1
      · exact ih (l := l.next b) le_rfl hrest x hx

theorem takes_zero {l : Lead} {ts : List UInt8} {n : ℕ} (h : l.tails = 0) :
    l.Takes ts n ↔ ts = [] ∧ n = l.bits := by
  cases ts with
  | nil => simp [Takes, h]
  | cons b ts => simp [Takes, h]

theorem takes_succ {l : Lead} {ts : List UInt8} {n k : ℕ} (h : l.tails = k + 1) :
    l.Takes ts n ↔ ∃ b rest, ts = b :: rest ∧ l.accepts b = true ∧ (l.next b).Takes rest n := by
  cases ts with
  | nil => simp [Takes, h]
  | cons b ts => simp [Takes, h]

end Lead

/-- A character is completed. -/
theorem decodeFrom_of_takes {l : Lead} {ts : List UInt8} {n : ℕ} (hpos : 0 < l.tails)
    (h : l.Takes ts n) (bs : List UInt8) :
    decodeFrom (.inside l) (ts ++ bs) = Char.ofNat n :: decodeLossy bs := by
  induction ts generalizing l with
  | nil => exact absurd h.1 hpos.ne'
  | cons b ts ih =>
      obtain ⟨-, haccepts, hrest⟩ := h
      rw [List.cons_append, decodeFrom, step, if_pos haccepts]
      by_cases hlast : (l.next b).tails = 0
      · obtain ⟨rfl, hn⟩ := (Lead.takes_zero hlast).1 hrest
        rw [if_pos hlast, hn]
        rfl
      · rw [if_neg hlast]
        exact ih (Nat.pos_of_ne_zero hlast) hrest

/-- Inside a character, it is completed or given up. -/
theorem decodeFrom_inside {l : Lead} (hpos : 0 < l.tails) (hlow : 0x80 ≤ l.low) (bs : List UInt8) :
    (∃ ts rest n, bs = ts ++ rest ∧ l.Takes ts n ∧
        decodeFrom (.inside l) bs = Char.ofNat n :: decodeLossy rest) ∨
      ∃ ts rest, bs = ts ++ rest ∧ (∀ b ∈ ts, 0x80 ≤ b.toNat) ∧
        decodeFrom (.inside l) bs = replacement :: decodeLossy rest := by
  induction bs generalizing l with
  | nil => exact .inr ⟨[], [], rfl, (fun _ h => nomatch h), rfl⟩
  | cons b bs ih =>
      by_cases haccepts : l.accepts b = true
      · by_cases hlast : (l.next b).tails = 0
        · refine .inl ⟨[b], bs, (l.next b).bits, rfl, ⟨hpos, haccepts, hlast, rfl⟩, ?_⟩
          rw [decodeFrom, step, if_pos haccepts, if_pos hlast]
          rfl
        · have hstep : decodeFrom (.inside l) (b :: bs) = decodeFrom (.inside (l.next b)) bs := by
            rw [decodeFrom, step, if_pos haccepts, if_neg hlast]
            rfl
          rcases ih (l := l.next b) (Nat.pos_of_ne_zero hlast) le_rfl with
            ⟨ts, rest, n, rfl, htakes, hdecode⟩ | ⟨ts, rest, rfl, hts, hdecode⟩
          · exact .inl ⟨b :: ts, rest, n, rfl, ⟨hpos, haccepts, htakes⟩, hstep.trans hdecode⟩
          · refine .inr ⟨b :: ts, rest, rfl, ?_, hstep.trans hdecode⟩
            have hb : 0x80 ≤ b.toNat := hlow.trans (Lead.accepts_iff.1 haccepts).1
            exact List.forall_mem_cons.2 ⟨hb, hts⟩
      · refine .inr ⟨[], b :: bs, rfl, (fun _ h => nomatch h), ?_⟩
        rw [decodeFrom, step, if_neg haccepts]
        rfl

/-! ### The bytes of a character -/

/-- The three kinds of first bytes. -/
theorem lead_cases {b : UInt8} {l : Lead} (h : lead b = some l) :
    (0xC2 ≤ b.toNat ∧ b.toNat ≤ 0xDF ∧ l = ⟨1, 0x80, 0xBF, b.toNat - 0xC0⟩) ∨
      (0xE0 ≤ b.toNat ∧ b.toNat ≤ 0xEF ∧
        l = ⟨2, if b.toNat = 0xE0 then 0xA0 else 0x80, if b.toNat = 0xED then 0x9F else 0xBF,
          b.toNat - 0xE0⟩) ∨
      (0xF0 ≤ b.toNat ∧ b.toNat ≤ 0xF4 ∧
        l = ⟨3, if b.toNat = 0xF0 then 0x90 else 0x80, if b.toNat = 0xF4 then 0x8F else 0xBF,
          b.toNat - 0xF0⟩) := by
  unfold lead at h
  dsimp only at h
  by_cases htwo : 0xC2 ≤ b.toNat ∧ b.toNat ≤ 0xDF
  · rw [if_pos htwo] at h
    exact .inl ⟨htwo.1, htwo.2, (Option.some.inj h).symm⟩
  · rw [if_neg htwo] at h
    by_cases hthree : 0xE0 ≤ b.toNat ∧ b.toNat ≤ 0xEF
    · rw [if_pos hthree] at h
      exact .inr (.inl ⟨hthree.1, hthree.2, (Option.some.inj h).symm⟩)
    · rw [if_neg hthree] at h
      by_cases hfour : 0xF0 ≤ b.toNat ∧ b.toNat ≤ 0xF4
      · rw [if_pos hfour] at h
        exact .inr (.inr ⟨hfour.1, hfour.2, (Option.some.inj h).symm⟩)
      · rw [if_neg hfour] at h
        cases h

theorem lead_spec {b : UInt8} {l : Lead} (h : lead b = some l) :
    0x80 ≤ b.toNat ∧ 0 < l.tails ∧ 0x80 ≤ l.low := by
  have hlow : ∀ (p : Prop) [Decidable p] (n : ℕ), 0x80 ≤ n → 0x80 ≤ if p then n else 0x80 := by
    intro p _ n hn
    split
    · exact hn
    · exact le_rfl
  rcases lead_cases h with ⟨hb, -, rfl⟩ | ⟨hb, -, rfl⟩ | ⟨hb, -, rfl⟩
  · exact ⟨by omega, Nat.one_pos, le_rfl⟩
  · exact ⟨by omega, Nat.two_pos, hlow _ _ (by decide)⟩
  · exact ⟨by omega, Nat.succ_pos 2, hlow _ _ (by decide)⟩

/-- Bytes and numbers below 256. -/
theorem ofNat_eq_iff {n : ℕ} (hn : n < 256) {b : UInt8} : UInt8.ofNat n = b ↔ n = b.toNat := by
  rw [← UInt8.toNat_inj, UInt8.toNat_ofNat', Nat.mod_eq_of_lt hn]

/-- The bounds of a second byte are narrower behind two of the first bytes. -/
theorem second_iff {n first last low high x : ℕ} (hlow : 0x80 ≤ low) (hhigh : high ≤ 0xBF) :
    ((if n = first then low else 0x80) ≤ x ∧ x ≤ if n = last then high else 0xBF) ↔
      0x80 ≤ x ∧ x ≤ 0xBF ∧ (n = first → low ≤ x) ∧ (n = last → x ≤ high) := by
  split_ifs with hfirst hlast hlast
  · omega
  · omega
  · omega
  · omega

/-- The bytes behind a first byte, in numbers. -/
theorem lead_takes_iff {b : UInt8} {ts : List UInt8} {n : ℕ} :
    (∃ l, lead b = some l ∧ l.Takes ts n) ↔
      (∃ x, ts = [x] ∧ 0xC2 ≤ b.toNat ∧ b.toNat ≤ 0xDF ∧ 0x80 ≤ x.toNat ∧ x.toNat ≤ 0xBF ∧
          n = 64 * (b.toNat - 0xC0) + (x.toNat - 0x80)) ∨
        (∃ x y, ts = [x, y] ∧ 0xE0 ≤ b.toNat ∧ b.toNat ≤ 0xEF ∧ 0x80 ≤ x.toNat ∧ x.toNat ≤ 0xBF ∧
          (b.toNat = 0xE0 → 0xA0 ≤ x.toNat) ∧ (b.toNat = 0xED → x.toNat ≤ 0x9F) ∧
          0x80 ≤ y.toNat ∧ y.toNat ≤ 0xBF ∧
          n = 64 * (64 * (b.toNat - 0xE0) + (x.toNat - 0x80)) + (y.toNat - 0x80)) ∨
        ∃ x y z, ts = [x, y, z] ∧ 0xF0 ≤ b.toNat ∧ b.toNat ≤ 0xF4 ∧ 0x80 ≤ x.toNat ∧
          x.toNat ≤ 0xBF ∧ (b.toNat = 0xF0 → 0x90 ≤ x.toNat) ∧ (b.toNat = 0xF4 → x.toNat ≤ 0x8F) ∧
          0x80 ≤ y.toNat ∧ y.toNat ≤ 0xBF ∧ 0x80 ≤ z.toNat ∧ z.toNat ≤ 0xBF ∧
          n = 64 * (64 * (64 * (b.toNat - 0xF0) + (x.toNat - 0x80)) + (y.toNat - 0x80)) +
            (z.toNat - 0x80) := by
  constructor
  · rintro ⟨l, hlead, htakes⟩
    rcases lead_cases hlead with ⟨hb, hb', rfl⟩ | ⟨hb, hb', rfl⟩ | ⟨hb, hb', rfl⟩
    · obtain ⟨x, ts, rfl, hx, htakes⟩ := (Lead.takes_succ rfl).1 htakes
      obtain ⟨rfl, hn⟩ := (Lead.takes_zero rfl).1 htakes
      obtain ⟨hlow, hhigh⟩ := Lead.accepts_iff.1 hx
      exact .inl ⟨x, rfl, hb, hb', hlow, hhigh, hn⟩
    · obtain ⟨x, ts, rfl, hx, htakes⟩ := (Lead.takes_succ rfl).1 htakes
      obtain ⟨y, ts, rfl, hy, htakes⟩ := (Lead.takes_succ rfl).1 htakes
      obtain ⟨rfl, hn⟩ := (Lead.takes_zero rfl).1 htakes
      obtain ⟨hlow, hhigh, hfirst, hlast⟩ :=
        (second_iff (by decide) (by decide)).1 (Lead.accepts_iff.1 hx)
      obtain ⟨hlow', hhigh'⟩ := Lead.accepts_iff.1 hy
      exact .inr (.inl ⟨x, y, rfl, hb, hb', hlow, hhigh, hfirst, hlast, hlow', hhigh', hn⟩)
    · obtain ⟨x, ts, rfl, hx, htakes⟩ := (Lead.takes_succ rfl).1 htakes
      obtain ⟨y, ts, rfl, hy, htakes⟩ := (Lead.takes_succ rfl).1 htakes
      obtain ⟨z, ts, rfl, hz, htakes⟩ := (Lead.takes_succ rfl).1 htakes
      obtain ⟨rfl, hn⟩ := (Lead.takes_zero rfl).1 htakes
      obtain ⟨hlow, hhigh, hfirst, hlast⟩ :=
        (second_iff (by decide) (by decide)).1 (Lead.accepts_iff.1 hx)
      obtain ⟨hlow', hhigh'⟩ := Lead.accepts_iff.1 hy
      obtain ⟨hlow'', hhigh''⟩ := Lead.accepts_iff.1 hz
      exact .inr (.inr ⟨x, y, z, rfl, hb, hb', hlow, hhigh, hfirst, hlast, hlow', hhigh', hlow'',
        hhigh'', hn⟩)
  · rintro (⟨x, rfl, hb, hb', hlow, hhigh, hn⟩ |
      ⟨x, y, rfl, hb, hb', hlow, hhigh, hfirst, hlast, hlow', hhigh', hn⟩ |
      ⟨x, y, z, rfl, hb, hb', hlow, hhigh, hfirst, hlast, hlow', hhigh', hlow'', hhigh'', hn⟩)
    · refine ⟨_, if_pos ⟨hb, hb'⟩, Nat.one_pos, Lead.accepts_iff.2 ⟨hlow, hhigh⟩, rfl, hn⟩
    · have hlead : lead b = some _ := (if_neg (by omega)).trans (if_pos ⟨hb, hb'⟩)
      refine ⟨_, hlead, Nat.two_pos, Lead.accepts_iff.2 ?_, Nat.one_pos,
        Lead.accepts_iff.2 ⟨hlow', hhigh'⟩, rfl, hn⟩
      exact (second_iff (by decide) (by decide)).2 ⟨hlow, hhigh, hfirst, hlast⟩
    · have hlead : lead b = some _ :=
        (if_neg (by omega)).trans ((if_neg (by omega)).trans (if_pos ⟨hb, hb'⟩))
      refine ⟨_, hlead, Nat.succ_pos 2, Lead.accepts_iff.2 ?_, Nat.two_pos,
        Lead.accepts_iff.2 ⟨hlow', hhigh'⟩, Nat.one_pos, Lead.accepts_iff.2 ⟨hlow'', hhigh''⟩, rfl,
        hn⟩
      exact (second_iff (by decide) (by decide)).2 ⟨hlow, hhigh, hfirst, hlast⟩

/-- The bytes of a character that has more than one. -/
theorem encodeChar_eq_cons_iff {c : Char} {b : UInt8} {ts : List UInt8} :
    String.utf8EncodeChar c = b :: ts ↔
      (b.toNat < 0x80 ∧ c.toNat = b.toNat ∧ ts = []) ∨
        ∃ l, lead b = some l ∧ l.Takes ts c.toNat := by
  have hvalid : c.toNat < 0xD800 ∨ 0xDFFF < c.toNat ∧ c.toNat < 0x110000 := c.valid
  rw [lead_takes_iff, String.utf8EncodeChar]
  change (if c.toNat ≤ 0x7f then [UInt8.ofNat c.toNat]
    else if c.toNat ≤ 0x7ff then
      [UInt8.ofNat (c.toNat / 64 % 0x20 + 0xc0), UInt8.ofNat (c.toNat % 0x40 + 0x80)]
    else if c.toNat ≤ 0xffff then
      [UInt8.ofNat (c.toNat / 4096 % 0x10 + 0xe0), UInt8.ofNat (c.toNat / 64 % 0x40 + 0x80),
        UInt8.ofNat (c.toNat % 0x40 + 0x80)]
    else
      [UInt8.ofNat (c.toNat / 262144 % 0x08 + 0xf0), UInt8.ofNat (c.toNat / 4096 % 0x40 + 0x80),
        UInt8.ofNat (c.toNat / 64 % 0x40 + 0x80), UInt8.ofNat (c.toNat % 0x40 + 0x80)]) = _ ↔ _
  generalize c.toNat = n at hvalid
  have hbyte : ∀ m, m < 256 → (UInt8.ofNat m).toNat = m :=
    fun m hm => ((ofNat_eq_iff hm).1 rfl).symm
  split_ifs with hone htwo hthree
  · rw [List.cons.injEq, ofNat_eq_iff (by omega)]
    constructor
    · rintro ⟨h, rfl⟩
      exact .inl ⟨by omega, h, rfl⟩
    · rintro (⟨-, h, rfl⟩ | ⟨x, -, h⟩ | ⟨x, y, -, h⟩ | ⟨x, y, z, -, h⟩)
      · exact ⟨h, rfl⟩
      · omega
      · omega
      · omega
  · rw [List.cons.injEq, ofNat_eq_iff (by omega)]
    constructor
    · rintro ⟨h, rfl⟩
      refine .inr (.inl ⟨_, rfl, ?_⟩)
      rw [hbyte _ (by omega)]
      omega
    · rintro (⟨h, h', -⟩ | ⟨x, rfl, h⟩ | ⟨x, y, -, h⟩ | ⟨x, y, z, -, h⟩)
      · omega
      · rw [List.cons.injEq, ofNat_eq_iff (by omega)]
        exact ⟨by omega, by omega, rfl⟩
      · omega
      · omega
  · rw [List.cons.injEq, ofNat_eq_iff (by omega)]
    constructor
    · rintro ⟨h, rfl⟩
      refine .inr (.inr (.inl ⟨_, _, rfl, ?_⟩))
      rw [hbyte _ (by omega), hbyte _ (by omega)]
      omega
    · rintro (⟨h, h', -⟩ | ⟨x, -, h⟩ | ⟨x, y, rfl, h⟩ | ⟨x, y, z, -, h⟩)
      · omega
      · omega
      · rw [List.cons.injEq, List.cons.injEq, ofNat_eq_iff (by omega), ofNat_eq_iff (by omega)]
        exact ⟨by omega, by omega, by omega, rfl⟩
      · omega
  · rw [List.cons.injEq, ofNat_eq_iff (by omega)]
    constructor
    · rintro ⟨h, rfl⟩
      refine .inr (.inr (.inr ⟨_, _, _, rfl, ?_⟩))
      rw [hbyte _ (by omega), hbyte _ (by omega), hbyte _ (by omega)]
      omega
    · rintro (⟨h, h', -⟩ | ⟨x, -, h⟩ | ⟨x, y, -, h⟩ | ⟨x, y, z, rfl, h⟩)
      · omega
      · omega
      · omega
      · rw [List.cons.injEq, List.cons.injEq, List.cons.injEq, ofNat_eq_iff (by omega),
          ofNat_eq_iff (by omega), ofNat_eq_iff (by omega)]
        exact ⟨by omega, by omega, by omega, by omega, rfl⟩

/-- The bytes behind a first byte make a character, and no ASCII character. -/
theorem valid_of_takes {b : UInt8} {l : Lead} (hlead : lead b = some l) {ts : List UInt8} {n : ℕ}
    (h : l.Takes ts n) : n.isValidChar ∧ 0x80 ≤ n := by
  have hb := b.toNat_lt
  change (n < 0xD800 ∨ 0xDFFF < n ∧ n < 0x110000) ∧ 0x80 ≤ n
  rcases lead_takes_iff.1 ⟨l, hlead, h⟩ with ⟨x, -, h⟩ | ⟨x, y, -, h⟩ | ⟨x, y, z, -, h⟩
  · omega
  · omega
  · omega

theorem toNat_ofNat_of_valid {n : ℕ} (h : n.isValidChar) : (Char.ofNat n).toNat = n := by
  rw [Char.ofNat, dif_pos h]
  rfl

/-! ### What is decoded first -/

/-- **How bytes are decoded**: character after character, each from its bytes, with a replacement
for some bytes that are not those of an ASCII character. -/
inductive Decodes : List UInt8 → List Char → Prop
  | nil : Decodes [] []
  | char (c : Char) {bs : List UInt8} {s : List Char} :
      Decodes bs s → Decodes (String.utf8EncodeChar c ++ bs) (c :: s)
  | junk {front bs : List UInt8} {s : List Char} :
      front ≠ [] → (∀ b ∈ front, 0x80 ≤ b.toNat) → Decodes bs s →
        Decodes (front ++ bs) (replacement :: s)

/-- **What is decoded first.** -/
theorem decodeLossy_cons (b : UInt8) (bs : List UInt8) :
    (∃ c rest, b :: bs = String.utf8EncodeChar c ++ rest ∧
        decodeLossy (b :: bs) = c :: decodeLossy rest) ∨
      ∃ front rest, b :: bs = front ++ rest ∧ front ≠ [] ∧ (∀ x ∈ front, 0x80 ≤ x.toNat) ∧
        decodeLossy (b :: bs) = replacement :: decodeLossy rest := by
  have hstep : decodeLossy (b :: bs) = (first b).2 ++ decodeFrom (first b).1 bs := rfl
  by_cases hascii : b.toNat < 0x80
  · have hvalid : b.toNat.isValidChar := .inl (by omega)
    refine .inl ⟨Char.ofNat b.toNat, bs, ?_, ?_⟩
    · rw [encodeChar_eq_cons_iff.2 (.inl ⟨hascii, toNat_ofNat_of_valid hvalid, rfl⟩)]
      rfl
    · rw [hstep, first, if_pos hascii]
      rfl
  · cases hlead : lead b with
    | none =>
        refine .inr ⟨[b], bs, rfl, List.cons_ne_nil _ _, ?_, ?_⟩
        · exact List.forall_mem_singleton.2 (Nat.not_lt.1 hascii)
        · rw [hstep, first, if_neg hascii, hlead]
          rfl
    | some l =>
        obtain ⟨hb, hpos, hlow⟩ := lead_spec hlead
        have hinside : decodeLossy (b :: bs) = decodeFrom (.inside l) bs := by
          rw [hstep, first, if_neg hascii, hlead]
          rfl
        rcases decodeFrom_inside hpos hlow bs with
          ⟨ts, rest, n, rfl, htakes, hdecode⟩ | ⟨ts, rest, rfl, hts, hdecode⟩
        · have hnat := toNat_ofNat_of_valid (valid_of_takes hlead htakes).1
          refine .inl ⟨Char.ofNat n, rest, ?_, hinside.trans hdecode⟩
          rw [encodeChar_eq_cons_iff.2 (.inr ⟨l, hlead, hnat ▸ htakes⟩)]
          rfl
        · exact .inr ⟨b :: ts, rest, rfl, List.cons_ne_nil _ _,
            List.forall_mem_cons.2 ⟨hb, hts⟩, hinside.trans hdecode⟩

/-- The machine decodes. -/
theorem decodes (bs : List UInt8) : Decodes bs (decodeLossy bs) := by
  induction hlen : bs.length using Nat.strong_induction_on generalizing bs with
  | _ n ih =>
      cases bs with
      | nil => exact .nil
      | cons b bs =>
          rcases decodeLossy_cons b bs with
            ⟨c, rest, hbs, hdecode⟩ | ⟨front, rest, hbs, hne, hfront, hdecode⟩
          · have hshort : rest.length < n := by
              rw [← hlen, hbs, List.length_append, String.length_utf8EncodeChar]
              exact Nat.lt_add_of_pos_left c.utf8Size_pos
            rw [hdecode, hbs]
            exact .char c (ih _ hshort rest rfl)
          · have hshort : rest.length < n := by
              rw [← hlen, hbs, List.length_append]
              exact Nat.lt_add_of_pos_left (List.length_pos_iff.2 hne)
            rw [hdecode, hbs]
            exact .junk hne hfront (ih _ hshort rest rfl)

/-! ### What is kept and what is lost -/

/-- A character is read back from its bytes. -/
theorem decodeLossy_encodeChar_append (c : Char) (bs : List UInt8) :
    decodeLossy (String.utf8EncodeChar c ++ bs) = c :: decodeLossy bs := by
  cases hbytes : String.utf8EncodeChar c with
  | nil => exact absurd hbytes String.utf8EncodeChar_ne_nil
  | cons b ts =>
      have hstep : decodeLossy (b :: ts ++ bs) =
          (first b).2 ++ decodeFrom (first b).1 (ts ++ bs) := rfl
      rw [hstep, first]
      rcases encodeChar_eq_cons_iff.1 hbytes with ⟨hascii, hnat, rfl⟩ | ⟨l, hlead, htakes⟩
      · rw [if_pos hascii, ← hnat, Char.ofNat_toNat]
        rfl
      · obtain ⟨hb, hpos, -⟩ := lead_spec hlead
        rw [if_neg (Nat.not_lt.2 hb), hlead]
        change decodeFrom (.inside l) (ts ++ bs) = _
        rw [decodeFrom_of_takes hpos htakes, Char.ofNat_toNat]

/-- **A text is read back from its bytes, whatever follows.** -/
theorem decodeLossy_encode_append (s : List Char) (bs : List UInt8) :
    decodeLossy (encode s ++ bs) = s ++ decodeLossy bs := by
  induction s with
  | nil => rfl
  | cons c s ih =>
      rw [encode_cons, List.append_assoc, decodeLossy_encodeChar_append, ih]
      rfl

theorem decodeLossy_encode (s : List Char) : decodeLossy (encode s) = s := by
  have h := decodeLossy_encode_append s []
  rwa [List.append_nil, decodeLossy_nil, List.append_nil] at h

/-- There are no more characters than bytes. -/
theorem Decodes.length_le {bs : List UInt8} {s : List Char} (h : Decodes bs s) :
    s.length ≤ bs.length := by
  induction h with
  | nil => exact le_rfl
  | char c _ ih =>
      have hpos := c.utf8Size_pos
      rw [List.length_cons, List.length_append, String.length_utf8EncodeChar]
      omega
  | junk hne _ _ ih =>
      have hpos := List.length_pos_iff.2 hne
      rw [List.length_cons, List.length_append]
      omega

/-- **Nothing else is lost**: without a replacement character, the bytes are those of the text. -/
theorem Decodes.encode_eq {bs : List UInt8} {s : List Char} (h : Decodes bs s)
    (hs : replacement ∉ s) : encode s = bs := by
  induction h with
  | nil => rfl
  | char c _ ih =>
      rw [encode_cons, ih fun hmem => hs (List.mem_cons_of_mem c hmem)]
  | junk _ _ _ _ => exact absurd List.mem_cons_self hs

theorem encode_decodeLossy {bs : List UInt8} (h : replacement ∉ decodeLossy bs) :
    encode (decodeLossy bs) = bs :=
  (decodes bs).encode_eq h

/-- Every other character stands in the bytes. -/
theorem Decodes.isInfix {bs : List UInt8} {s : List Char} (h : Decodes bs s) {c : Char}
    (hmem : c ∈ s) (hc : c ≠ replacement) : String.utf8EncodeChar c <:+: bs := by
  induction h with
  | nil => cases hmem
  | char d _ ih =>
      rcases List.mem_cons.1 hmem with rfl | hmem
      · exact (List.prefix_append _ _).isInfix
      · exact (ih hmem).trans (List.suffix_append _ _).isInfix
  | junk _ _ _ ih =>
      rcases List.mem_cons.1 hmem with rfl | hmem
      · exact absurd rfl hc
      · exact (ih hmem).trans (List.suffix_append _ _).isInfix

/-- The bytes of an ASCII character. -/
theorem encodeChar_of_ascii {c : Char} (h : c.toNat < 0x80) :
    String.utf8EncodeChar c = [UInt8.ofNat c.toNat] := by
  have hbyte : c.toNat = (UInt8.ofNat c.toNat).toNat := (ofNat_eq_iff (by omega)).1 rfl
  exact encodeChar_eq_cons_iff.2 (.inl ⟨hbyte ▸ h, hbyte, rfl⟩)

/-- No byte of another character is one of an ASCII character. -/
theorem le_of_mem_encodeChar {c : Char} (h : 0x80 ≤ c.toNat) :
    ∀ b ∈ String.utf8EncodeChar c, 0x80 ≤ b.toNat := by
  cases hbytes : String.utf8EncodeChar c with
  | nil => exact fun _ hmem => nomatch hmem
  | cons b ts =>
      rcases encodeChar_eq_cons_iff.1 hbytes with ⟨hascii, hnat, -⟩ | ⟨l, hlead, htakes⟩
      · omega
      · obtain ⟨hb, -, hlow⟩ := lead_spec hlead
        exact List.forall_mem_cons.2 ⟨hb, Lead.le_of_mem_takes hlow htakes⟩

/-- **Every ASCII character is there as often as its byte.** -/
theorem Decodes.count_eq {bs : List UInt8} {s : List Char} (h : Decodes bs s) {c : Char}
    (hc : c.toNat < 0x80) : s.count c = bs.count (UInt8.ofNat c.toNat) := by
  have hbyte : c.toNat = (UInt8.ofNat c.toNat).toNat := (ofNat_eq_iff (by omega)).1 rfl
  have hzero : ∀ ts : List UInt8, (∀ b ∈ ts, 0x80 ≤ b.toNat) →
      ts.count (UInt8.ofNat c.toNat) = 0 := by
    intro ts hts
    refine List.count_eq_zero.2 fun hmem => ?_
    exact absurd (hts _ hmem) (by omega)
  induction h with
  | nil => rfl
  | @char d bs s _ ih =>
      rw [List.count_append, List.count_cons, ih, Nat.add_comm]
      refine congrArg (· + _) ?_
      by_cases hd : d.toNat < 0x80
      · have heq : (d == c) = (UInt8.ofNat d.toNat == UInt8.ofNat c.toNat) := by
          rw [Bool.eq_iff_iff, beq_iff_eq, beq_iff_eq, ofNat_eq_iff (by omega), ← hbyte,
            Char.toNat_inj]
        rw [encodeChar_of_ascii hd, List.count_singleton, heq]
      · have hne : d ≠ c := by
          rintro rfl
          exact hd hc
        rw [hzero _ (le_of_mem_encodeChar (Nat.not_lt.1 hd)), if_neg (by simpa using hne)]
  | junk _ hfront _ ih =>
      have hne : replacement ≠ c := by
        rintro rfl
        exact absurd hc (by decide)
      rw [List.count_append, hzero _ hfront, Nat.zero_add, ← ih]
      exact List.count_cons_of_ne hne

end Utf8
