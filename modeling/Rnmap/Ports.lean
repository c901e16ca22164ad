/-
**Port specifications.**

A port specification is a list of chunks separated by commas, each a port or a range with either
end left out.  The parser collects the ports of all chunks in an ordered set.  Next to it stands
the grammar with its meaning: which range of ports a chunk denotes.

Main definitions:

* `Rnmap.addChunk`, `Rnmap.parseChunks`, `Rnmap.PortSpec.parse` — the parser;
* `Rnmap.EndMeans`, `Rnmap.ChunkMeans` — the meaning of the end of a range and of a chunk;
* `Rnmap.InGrammar`, `Rnmap.Covers` — the specifications of the grammar, and the ports of a chunk.

Main results:

* `Rnmap.addChunk_eq_ok_iff` — a chunk adds the range it denotes;
* `Rnmap.parseChunks_eq_ok_iff` — the chunk loop;
* `Rnmap.portSpec_parse_spec` — **the parser accepts exactly its grammar and returns its
  meaning**.
-/

import Rnmap.Result
import Rnmap.SortedSet

set_option relaxedAutoImplicit false
set_option autoImplicit false

namespace Rnmap

open Text

/-! ### The parser -/

/-- A list of ports to scan. -/
structure PortSpec where
  ports : List UInt16
  deriving DecidableEq, Repr

/-- `parse_u16`. -/
def parseU16 (spec raw : Text) : Except Error UInt16 :=
  match fromStr 65535 raw with
  | .ok n => .ok (UInt16.ofNat n)
  | .error e =>
      .error (.ports spec ("invalid port `".toList ++ raw ++ "`: ".toList ++ e.display))

/-- The end of a range; an end that is left out is `open_`. -/
def parseEnd (spec : Text) (open_ : ℕ) (s : Text) : Except Error ℕ :=
  if s.isEmpty then .ok open_ else (parseU16 spec s).map UInt16.toNat

/-- The ports `lo..=hi`, in order. -/
def portRange (lo hi : ℕ) : List UInt16 := (List.range' lo (hi + 1 - lo)).map UInt16.ofNat

/-- One round of the chunk loop. -/
def addChunk (spec : Text) (set : SortedSet UInt16) (chunk : Text) :
    Except Error (SortedSet UInt16) :=
  let c := trim chunk
  if c.isEmpty then .ok set
  else
    match splitOnce '-' c with
    | some (loS, hiS) => do
        let lo ← parseEnd spec 1 (trim loS)
        let hi ← parseEnd spec 65535 (trim hiS)
        if lo = 0 ∨ hi = 0 then .error (.ports spec "port 0 is not valid".toList)
        else if hi < lo then
          .error (.ports spec ("range ".toList ++ decimal lo ++ " > ".toList ++ decimal hi))
        else .ok (set.insertAll (portRange lo hi))
    | none => do
        let p ← parseU16 spec c
        if p = 0 then .error (.ports spec "port 0 is not valid".toList)
        else .ok (set.insert p)

/-- The chunk loop and the test after it. -/
def parseChunks (spec raw : Text) : Except Error PortSpec := do
  let set ← (raw.splitOn ',').foldlM (addChunk spec) SortedSet.empty
  if set.isEmpty then .error (.ports spec "no ports parsed".toList) else .ok ⟨set.toList⟩

/-- `PortSpec::parse`. -/
def PortSpec.parse (spec : Text) : Except Error PortSpec :=
  let raw := trim spec
  if raw.isEmpty then .error (.ports spec "empty".toList)
  else if raw = "-".toList then .ok ⟨portRange 1 65535⟩
  else parseChunks spec raw

/-! ### The grammar -/

/-- A port number in decimal, from 1 to 65535. -/
def IsPort (s : Text) (n : ℕ) : Prop := IsNumeral s n ∧ 1 ≤ n ∧ n ≤ 65535

/-- The end of a range: a port number, or nothing for `open_`. -/
def EndMeans (open_ : ℕ) (s : Text) (n : ℕ) : Prop := (s = [] ∧ n = open_) ∨ IsPort s n

/-- The range a chunk denotes: a port number denotes itself, and otherwise the chunk is split at
its first dash. -/
def ChunkMeans (chunk : Text) (lo hi : ℕ) : Prop :=
  ('-' ∉ trim chunk ∧ IsPort (trim chunk) lo ∧ hi = lo) ∨
    ∃ l r, trim chunk = l ++ '-' :: r ∧ '-' ∉ l ∧ EndMeans 1 (trim l) lo ∧
      EndMeans 65535 (trim r) hi ∧ lo ≤ hi

/-- A port of the range a chunk denotes. -/
def Covers (chunk : Text) (p : UInt16) : Prop :=
  ∃ lo hi, ChunkMeans chunk lo hi ∧ lo ≤ p.toNat ∧ p.toNat ≤ hi

/-- The chunks of a specification. -/
def chunksOf (spec : Text) : List Text := (trim spec).splitOn ','

/-- **The grammar**: some chunk is not blank, and each that is not blank denotes a range. -/
def InGrammar (spec : Text) : Prop :=
  trim spec ≠ [] ∧ (∃ chunk ∈ chunksOf spec, trim chunk ≠ []) ∧
    ∀ chunk ∈ chunksOf spec, trim chunk ≠ [] → ∃ lo hi, ChunkMeans chunk lo hi

/-! ### Numbers and ends -/

theorem parseU16_eq_ok_iff {spec raw : Text} {p : UInt16} :
    parseU16 spec raw = .ok p ↔ IsNumeral raw p.toNat := by
  have hp : p.toNat ≤ 65535 := Nat.le_of_lt_succ p.toNat_lt
  unfold parseU16
  cases hread : fromStr 65535 raw with
  | error e =>
      refine iff_of_false (by rintro ⟨⟩) fun hnum => ?_
      rw [fromStr_eq_ok_iff.2 ⟨hnum, hp⟩] at hread
      cases hread
  | ok n =>
      obtain ⟨hnum, hle⟩ := fromStr_eq_ok_iff.1 hread
      rw [Except.ok.injEq]
      constructor
      · rintro rfl
        rwa [UInt16.toNat_ofNat_of_lt' (Nat.lt_succ_of_le hle)]
      · intro h
        have hread' := fromStr_eq_ok_iff.2 ⟨h, hp⟩
        rw [hread, Except.ok.injEq] at hread'
        rw [hread', UInt16.ofNat_toNat]

/-- What reading the end of a range returns. -/
theorem parseEnd_eq_ok_iff {spec s : Text} {open_ n : ℕ} :
    parseEnd spec open_ s = .ok n ↔
      (s = [] ∧ n = open_) ∨ (s ≠ [] ∧ IsNumeral s n ∧ n ≤ 65535) := by
  unfold parseEnd
  cases s with
  | nil => simp [eq_comm]
  | cons c s =>
      simp only [List.isEmpty_cons, Bool.false_eq_true, if_false, reduceCtorEq, false_and,
        false_or, ne_eq, not_false_eq_true, true_and]
      constructor
      · intro h
        cases hread : parseU16 spec (c :: s) with
        | error e =>
            rw [hread] at h
            cases h
        | ok p =>
            rw [hread] at h
            cases h
            exact ⟨parseU16_eq_ok_iff.1 hread, Nat.le_of_lt_succ p.toNat_lt⟩
      · intro ⟨hnum, hle⟩
        have hread : parseU16 spec (c :: s) = .ok (UInt16.ofNat n) := by
          rw [parseU16_eq_ok_iff, UInt16.toNat_ofNat_of_lt' (Nat.lt_succ_of_le hle)]
          exact hnum
        rw [hread]
        exact congrArg Except.ok (UInt16.toNat_ofNat_of_lt' (Nat.lt_succ_of_le hle))

theorem not_isNumeral_nil (n : ℕ) : ¬ IsNumeral [] n := by
  rintro ⟨ds, rfl | hds, hne, -⟩
  · exact hne rfl
  · cases hds

/-- An end in the grammar is an end that can be read and is not zero. -/
theorem endMeans_iff (spec : Text) {s : Text} {open_ n : ℕ} (hopen : 0 < open_) :
    EndMeans open_ s n ↔ parseEnd spec open_ s = .ok n ∧ n ≠ 0 := by
  rw [parseEnd_eq_ok_iff, EndMeans, IsPort]
  constructor
  · rintro (⟨rfl, rfl⟩ | ⟨hnum, hpos, hle⟩)
    · exact ⟨.inl ⟨rfl, rfl⟩, by omega⟩
    · refine ⟨.inr ⟨?_, hnum, hle⟩, by omega⟩
      rintro rfl
      exact not_isNumeral_nil n hnum
  · rintro ⟨⟨rfl, rfl⟩ | ⟨-, hnum, hle⟩, hne⟩
    · exact .inl ⟨rfl, rfl⟩
    · exact .inr ⟨hnum, by omega, hle⟩

theorem mem_portRange {lo hi : ℕ} {p : UInt16} (hhi : hi ≤ 65535) :
    p ∈ portRange lo hi ↔ lo ≤ p.toNat ∧ p.toNat ≤ hi := by
  rw [portRange, List.mem_map]
  constructor
  · rintro ⟨n, hn, rfl⟩
    obtain ⟨i, hi', rfl⟩ := List.mem_range'.1 hn
    rw [UInt16.toNat_ofNat_of_lt' (by simp [UInt16.size]; omega)]
    omega
  · intro ⟨hlo, hp⟩
    refine ⟨p.toNat, List.mem_range'.2 ⟨p.toNat - lo, by omega, by omega⟩, ?_⟩
    exact UInt16.ofNat_toNat

/-! ### Chunks -/

theorem EndMeans.le {open_ n : ℕ} {s : Text} (h : EndMeans open_ s n) (hopen : open_ ≤ 65535) :
    n ≤ 65535 := by
  rcases h with ⟨-, rfl⟩ | hport
  · exact hopen
  · exact hport.2.2

/-- A range of the grammar lies within the ports. -/
theorem ChunkMeans.bounds {chunk : Text} {lo hi : ℕ} (h : ChunkMeans chunk lo hi) :
    1 ≤ lo ∧ lo ≤ hi ∧ hi ≤ 65535 := by
  rcases h with ⟨-, hport, rfl⟩ | ⟨l, r, -, -, hlo, hhi, hle⟩
  · exact ⟨hport.2.1, le_rfl, hport.2.2⟩
  · refine ⟨?_, hle, hhi.le le_rfl⟩
    rcases hlo with ⟨-, rfl⟩ | hport
    · exact le_rfl
    · exact hport.2.1

/-- A blank chunk denotes nothing. -/
theorem ChunkMeans.not_blank {chunk : Text} {lo hi : ℕ} (h : ChunkMeans chunk lo hi) :
    trim chunk ≠ [] := by
  intro hblank
  rcases h with ⟨-, hport, -⟩ | ⟨l, r, hsplit, -⟩
  · rw [hblank] at hport
    exact not_isNumeral_nil lo hport.1
  · rw [hblank] at hsplit
    simp at hsplit

theorem portRange_self (p : UInt16) : portRange p.toNat p.toNat = [p] := by
  rw [portRange, Nat.add_sub_cancel_left, List.range'_one, List.map_singleton, UInt16.ofNat_toNat]

/-- Without a dash a chunk denotes a port. -/
theorem chunkMeans_of_port {chunk : Text} (hdash : '-' ∉ trim chunk) (lo hi : ℕ) :
    ChunkMeans chunk lo hi ↔ IsPort (trim chunk) lo ∧ hi = lo := by
  constructor
  · rintro (⟨-, h⟩ | ⟨l, r, hlr, -⟩)
    · exact h
    · exact absurd (by simp [hlr]) hdash
  · exact fun h => .inl ⟨hdash, h⟩

/-- With a dash it denotes the range between the ends around its first dash. -/
theorem chunkMeans_of_range {chunk l r : Text} (hsplit : splitOnce '-' (trim chunk) = some (l, r))
    (lo hi : ℕ) :
    ChunkMeans chunk lo hi ↔
      EndMeans 1 (trim l) lo ∧ EndMeans 65535 (trim r) hi ∧ lo ≤ hi := by
  obtain ⟨hlr, hdash⟩ := splitOnce_eq_some.1 hsplit
  constructor
  · rintro (⟨hno, -⟩ | ⟨l', r', hlr', hdash', h⟩)
    · exact absurd (by simp [hlr]) hno
    · have heq := splitOnce_eq_some.2 ⟨hlr', hdash'⟩
      rw [hsplit] at heq
      cases heq
      exact h
  · exact fun h => .inr ⟨l, r, hlr, hdash, h⟩

/-- A port is read to itself. -/
theorem isPort_iff (spec : Text) {s : Text} {n : ℕ} :
    IsPort s n ↔ ∃ p, parseU16 spec s = .ok p ∧ p ≠ 0 ∧ n = p.toNat := by
  constructor
  · rintro ⟨hnum, hpos, hle⟩
    have hn : (UInt16.ofNat n).toNat = n := UInt16.toNat_ofNat_of_lt' (Nat.lt_succ_of_le hle)
    refine ⟨UInt16.ofNat n, parseU16_eq_ok_iff.2 (hn.symm ▸ hnum), ?_, hn.symm⟩
    rintro hzero
    rw [hzero] at hn
    exact absurd hn.symm (Nat.pos_iff_ne_zero.1 hpos)
  · rintro ⟨p, hread, hzero, rfl⟩
    refine ⟨parseU16_eq_ok_iff.1 hread, ?_, Nat.le_of_lt_succ p.toNat_lt⟩
    exact Nat.pos_of_ne_zero fun h => hzero (UInt16.toNat_inj.1 h)

/-- A text is the numeral of one number at most. -/
theorem isNumeral_unique {s : Text} {n m : ℕ} (hn : IsNumeral s n) (hm : IsNumeral s m) :
    n = m := by
  have hn' := fromStr_eq_ok_iff.2 ⟨hn, le_max_left n m⟩
  rw [fromStr_eq_ok_iff.2 ⟨hm, le_max_right n m⟩, Except.ok.injEq] at hn'
  exact hn'.symm

theorem EndMeans.unique {open_ n m : ℕ} {s : Text} (hn : EndMeans open_ s n)
    (hm : EndMeans open_ s m) : n = m := by
  rcases hn with ⟨rfl, rfl⟩ | hn
  · rcases hm with ⟨-, rfl⟩ | hm
    · rfl
    · exact absurd hm.1 (not_isNumeral_nil m)
  · rcases hm with ⟨rfl, rfl⟩ | hm
    · exact absurd hn.1 (not_isNumeral_nil n)
    · exact isNumeral_unique hn.1 hm.1

/-- A chunk denotes one range at most. -/
theorem ChunkMeans.unique {chunk : Text} {lo hi lo' hi' : ℕ} (h : ChunkMeans chunk lo hi)
    (h' : ChunkMeans chunk lo' hi') : lo = lo' ∧ hi = hi' := by
  cases hsplit : splitOnce '-' (trim chunk) with
  | none =>
      have hdash := splitOnce_eq_none.1 hsplit
      obtain ⟨hlo, rfl⟩ := (chunkMeans_of_port hdash lo hi).1 h
      obtain ⟨hlo', rfl⟩ := (chunkMeans_of_port hdash lo' hi').1 h'
      have heq := isNumeral_unique hlo.1 hlo'.1
      exact ⟨heq, heq⟩
  | some halves =>
      obtain ⟨hlo, hhi, -⟩ := (chunkMeans_of_range hsplit lo hi).1 h
      obtain ⟨hlo', hhi', -⟩ := (chunkMeans_of_range hsplit lo' hi').1 h'
      exact ⟨hlo.unique hlo', hhi.unique hhi'⟩

/-- **A chunk adds the range it denotes**, and is rejected when it denotes none. -/
theorem addChunk_eq_ok_iff {spec chunk : Text} {set set' : SortedSet UInt16} :
    addChunk spec set chunk = .ok set' ↔
      (trim chunk = [] ∧ set' = set) ∨
        ∃ lo hi, ChunkMeans chunk lo hi ∧ set' = set.insertAll (portRange lo hi) := by
  unfold addChunk
  by_cases hblank : trim chunk = []
  · simp only [hblank, List.isEmpty_nil, if_true, Except.ok.injEq, true_and]
    constructor
    · exact fun h => .inl h.symm
    · rintro (h | ⟨lo, hi, hmeans, -⟩)
      · exact h.symm
      · exact absurd hblank hmeans.not_blank
  simp only [List.isEmpty_iff, hblank, if_false, false_and, false_or]
  cases hsplit : splitOnce '-' (trim chunk) with
  | none =>
      simp only [chunkMeans_of_port (splitOnce_eq_none.1 hsplit), isPort_iff spec]
      cases hread : parseU16 spec (trim chunk) with
      | error e =>
          refine iff_of_false (by rintro ⟨⟩) ?_
          rintro ⟨lo, hi, ⟨⟨p, hp, -⟩, -⟩, -⟩
          cases hp
      | ok p =>
          change (if p = 0 then _ else _) = _ ↔ _
          split_ifs with hzero
          · refine iff_of_false (by rintro ⟨⟩) ?_
            rintro ⟨lo, hi, ⟨⟨q, hq, hne, -⟩, -⟩, -⟩
            cases hq
            exact hne hzero
          · rw [Except.ok.injEq]
            constructor
            · rintro rfl
              refine ⟨p.toNat, p.toNat, ⟨⟨p, rfl, hzero, rfl⟩, rfl⟩, ?_⟩
              rw [portRange_self]
              rfl
            · rintro ⟨lo, hi, ⟨⟨q, hq, -, rfl⟩, rfl⟩, rfl⟩
              cases hq
              rw [portRange_self]
              rfl
  | some halves =>
      obtain ⟨l, r⟩ := halves
      simp only [chunkMeans_of_range hsplit, endMeans_iff spec (by decide : 0 < 1),
        endMeans_iff spec (by decide : 0 < 65535)]
      cases hlo : parseEnd spec 1 (trim l) with
      | error e =>
          refine iff_of_false (by rintro ⟨⟩) ?_
          rintro ⟨lo, hi, ⟨⟨hlo', -⟩, -⟩, -⟩
          cases hlo'
      | ok lo =>
          cases hhi : parseEnd spec 65535 (trim r) with
          | error e =>
              refine iff_of_false (by rintro ⟨⟩) ?_
              rintro ⟨lo, hi, ⟨-, ⟨hhi', -⟩, -⟩, -⟩
              cases hhi'
          | ok hi =>
              -- both ends are read: what remains are the tests for zero and for the order
              change (if lo = 0 ∨ hi = 0 then _ else if hi < lo then _ else _) = _ ↔ _
              have hmeans : (∃ lo' hi', (((.ok lo : Except Error ℕ) = .ok lo' ∧ lo' ≠ 0) ∧
                  ((.ok hi : Except Error ℕ) = .ok hi' ∧ hi' ≠ 0) ∧ lo' ≤ hi') ∧
                    set' = set.insertAll (portRange lo' hi')) ↔
                  (lo ≠ 0 ∧ hi ≠ 0 ∧ lo ≤ hi) ∧ set' = set.insertAll (portRange lo hi) := by
                constructor
                · rintro ⟨lo', hi', ⟨⟨hl, hl0⟩, ⟨hh, hh0⟩, hle⟩, rfl⟩
                  cases hl
                  cases hh
                  exact ⟨⟨hl0, hh0, hle⟩, rfl⟩
                · rintro ⟨⟨hl0, hh0, hle⟩, rfl⟩
                  exact ⟨lo, hi, ⟨⟨rfl, hl0⟩, ⟨rfl, hh0⟩, hle⟩, rfl⟩
              rw [hmeans]
              split_ifs with hzero hgt
              · exact iff_of_false (by rintro ⟨⟩) fun h => by omega
              · exact iff_of_false (by rintro ⟨⟩) fun h => by omega
              · rw [Except.ok.injEq, eq_comm, and_iff_right ⟨by omega, by omega, by omega⟩]

/-! ### The chunk loop -/

/-- What the chunk loop returns covers the chunks, each of which denotes a range. -/
theorem covers_of_foldlM {spec : Text} {chunks : List Text} {set set' : SortedSet UInt16}
    (h : chunks.foldlM (addChunk spec) set = .ok set') :
    (∀ chunk ∈ chunks, trim chunk ≠ [] → ∃ lo hi, ChunkMeans chunk lo hi) ∧
      ∀ p, p ∈ set' ↔ p ∈ set ∨ ∃ chunk ∈ chunks, Covers chunk p := by
  induction chunks generalizing set with
  | nil =>
      cases h
      simp
  | cons chunk chunks ih =>
      rw [List.foldlM_cons] at h
      cases hadd : addChunk spec set chunk with
      | error e =>
          rw [hadd] at h
          cases h
      | ok next =>
          rw [hadd] at h
          obtain ⟨hmeans, hcovers⟩ := ih h
          have hnext : (trim chunk ≠ [] → ∃ lo hi, ChunkMeans chunk lo hi) ∧
              ∀ p, p ∈ next ↔ p ∈ set ∨ Covers chunk p := by
            rcases addChunk_eq_ok_iff.1 hadd with ⟨hblank, rfl⟩ | ⟨lo, hi, hchunk, rfl⟩
            · refine ⟨fun hne => absurd hblank hne, fun p => ?_⟩
              rw [or_iff_left]
              rintro ⟨lo, hi, hchunk, -⟩
              exact hchunk.not_blank hblank
            · refine ⟨fun _ => ⟨lo, hi, hchunk⟩, fun p => ?_⟩
              -- a chunk denotes one range only, so covering it means lying in this one
              rw [SortedSet.mem_insertAll, mem_portRange hchunk.bounds.2.2, or_comm]
              refine or_congr_right ⟨fun hp => ⟨lo, hi, hchunk, hp⟩, ?_⟩
              rintro ⟨lo', hi', hchunk', hp⟩
              obtain ⟨rfl, rfl⟩ := hchunk.unique hchunk'
              exact hp
          refine ⟨List.forall_mem_cons.2 ⟨hnext.1, hmeans⟩, fun p => ?_⟩
          rw [hcovers, hnext.2, List.exists_mem_cons_iff, or_assoc]

/-- The chunk loop accepts chunks that denote ranges. -/
theorem foldlM_addChunk_ok (spec : Text) {chunks : List Text}
    (h : ∀ chunk ∈ chunks, trim chunk ≠ [] → ∃ lo hi, ChunkMeans chunk lo hi)
    (set : SortedSet UInt16) : ∃ set', chunks.foldlM (addChunk spec) set = .ok set' := by
  induction chunks generalizing set with
  | nil => exact ⟨set, rfl⟩
  | cons chunk chunks ih =>
      obtain ⟨hchunk, hchunks⟩ := List.forall_mem_cons.1 h
      obtain ⟨next, hadd⟩ : ∃ next, addChunk spec set chunk = .ok next := by
        by_cases hblank : trim chunk = []
        · exact ⟨set, addChunk_eq_ok_iff.2 (.inl ⟨hblank, rfl⟩)⟩
        · obtain ⟨lo, hi, hmeans⟩ := hchunk hblank
          exact ⟨_, addChunk_eq_ok_iff.2 (.inr ⟨lo, hi, hmeans, rfl⟩)⟩
      obtain ⟨set', hset'⟩ := ih hchunks next
      refine ⟨set', ?_⟩
      rw [List.foldlM_cons, hadd]
      exact hset'

/-- A chunk that denotes a range covers a port. -/
theorem ChunkMeans.exists_covers {chunk : Text} {lo hi : ℕ} (h : ChunkMeans chunk lo hi) :
    ∃ p, Covers chunk p := by
  obtain ⟨hpos, hle, hhi⟩ := h.bounds
  refine ⟨UInt16.ofNat lo, lo, hi, h, ?_⟩
  rw [UInt16.toNat_ofNat_of_lt' (Nat.lt_succ_of_le (hle.trans hhi))]
  exact ⟨le_rfl, hle⟩

/-- What a list of chunks with a meaning denotes: a nonempty ascending list of the ports covered. -/
structure Denotes (chunks : List Text) (ports : List UInt16) : Prop where
  ascending : ports.Pairwise (· < ·)
  nonempty : ports ≠ []
  covered : ∀ p, p ∈ ports ↔ ∃ chunk ∈ chunks, Covers chunk p

/-- **The chunk loop** accepts chunks that denote ranges, at least one, and returns the ports they
cover. -/
theorem parseChunks_eq_ok_iff {spec raw : Text} {ports : List UInt16} :
    parseChunks spec raw = .ok ⟨ports⟩ ↔
      (∀ chunk ∈ raw.splitOn ',', trim chunk ≠ [] → ∃ lo hi, ChunkMeans chunk lo hi) ∧
        Denotes (raw.splitOn ',') ports := by
  unfold parseChunks
  constructor
  · intro h
    cases hloop : (raw.splitOn ',').foldlM (addChunk spec) SortedSet.empty with
    | error e =>
        rw [hloop] at h
        cases h
    | ok set =>
        rw [hloop] at h
        obtain ⟨hmeans, hcovers⟩ := covers_of_foldlM hloop
        change (if set.isEmpty = true then _ else _) = _ at h
        split_ifs at h with hempty
        cases h
        refine ⟨hmeans, set.ascending, ?_, fun p => ?_⟩
        · rintro hnil
          exact hempty (by rw [SortedSet.isEmpty, hnil]; rfl)
        · rw [SortedSet.mem_toList, hcovers, or_iff_right (SortedSet.not_mem_empty p)]
  · rintro ⟨hmeans, hasc, hne, hcovered⟩
    obtain ⟨set, hloop⟩ := foldlM_addChunk_ok spec hmeans SortedSet.empty
    obtain ⟨-, hcovers⟩ := covers_of_foldlM hloop
    -- the set has the elements of the list, and both ascend
    obtain rfl : set = ⟨ports, hasc⟩ := by
      refine SortedSet.ext_mem fun p => ?_
      rw [hcovers, or_iff_right (SortedSet.not_mem_empty p), ← hcovered]
      rfl
    rw [hloop]
    change (if ports.isEmpty = true then _ else _) = _
    rw [if_neg (by simpa using hne)]

/-! ### The parser against the grammar -/

/-- A range of ports ascends. -/
theorem pairwise_portRange (lo hi : ℕ) (hhi : hi ≤ 65535) :
    (portRange lo hi).Pairwise (· < ·) := by
  rw [portRange, List.pairwise_map]
  have hasc := List.pairwise_lt_range' (s := lo) (n := hi + 1 - lo)
  refine hasc.imp_of_mem ?_
  intro a b ha hb hab
  obtain ⟨i, hi', rfl⟩ := List.mem_range'.1 hb
  rw [UInt16.lt_iff_toNat_lt, UInt16.toNat_ofNat_of_lt' (by simp [UInt16.size]; omega),
    UInt16.toNat_ofNat_of_lt' (by simp [UInt16.size]; omega)]
  exact hab

/-- **The shortcut for a single dash agrees with the chunk loop.** -/
theorem parseChunks_dash (spec : Text) :
    parseChunks spec "-".toList = .ok ⟨portRange 1 65535⟩ := by
  have hdash : ChunkMeans "-".toList 1 65535 :=
    (chunkMeans_of_range (by decide : splitOnce '-' (trim "-".toList) = some ([], [])) 1 65535).2
      ⟨.inl ⟨rfl, rfl⟩, .inl ⟨rfl, rfl⟩, by decide⟩
  have hchunks : "-".toList.splitOn ',' = ["-".toList] := by decide
  have hcovered : ∀ p, p ∈ portRange 1 65535 ↔ Covers "-".toList p := by
    intro p
    rw [mem_portRange le_rfl]
    refine ⟨fun hp => ⟨1, 65535, hdash, hp⟩, ?_⟩
    rintro ⟨lo, hi, hmeans, hp⟩
    obtain ⟨rfl, rfl⟩ := hdash.unique hmeans
    exact hp
  rw [parseChunks_eq_ok_iff, hchunks]
  refine ⟨?_, pairwise_portRange 1 65535 le_rfl, ?_, fun p => ?_⟩
  · intro chunk hchunk _
    obtain rfl := List.mem_singleton.1 hchunk
    exact ⟨1, 65535, hdash⟩
  · exact List.ne_nil_of_mem ((mem_portRange le_rfl).2 (by decide : 1 ≤ (1 : UInt16).toNat ∧ _))
  · rw [hcovered]
    simp

/-- Off the empty specification the parser is the chunk loop. -/
theorem parse_eq_parseChunks {spec : Text} (h : trim spec ≠ []) :
    PortSpec.parse spec = parseChunks spec (trim spec) := by
  unfold PortSpec.parse
  simp only [List.isEmpty_iff, h, if_false]
  split_ifs with hdash
  · rw [hdash, parseChunks_dash]
  · rfl

/-- The parser returns a list exactly when the specification is in the grammar and denotes it. -/
theorem parse_eq_ok_iff {spec : Text} {ports : List UInt16} :
    PortSpec.parse spec = .ok ⟨ports⟩ ↔ InGrammar spec ∧ Denotes (chunksOf spec) ports := by
  by_cases hblank : trim spec = []
  · refine iff_of_false ?_ fun h => h.1.1 hblank
    simp [PortSpec.parse, hblank]
  · rw [parse_eq_parseChunks hblank, parseChunks_eq_ok_iff]
    refine ⟨fun ⟨hmeans, hden⟩ => ⟨⟨hblank, ?_, hmeans⟩, hden⟩, fun ⟨hin, hden⟩ => ⟨hin.2.2, hden⟩⟩
    obtain ⟨p, hp⟩ := List.exists_mem_of_ne_nil ports hden.nonempty
    obtain ⟨chunk, hchunk, lo, hi, hcover, -⟩ := (hden.covered p).1 hp
    exact ⟨chunk, hchunk, hcover.not_blank⟩

/-- **The parser accepts exactly its grammar and returns its meaning**: an ascending nonempty list
of ports from 1 on, each covered by a chunk, and an error on every other specification.  The
shortcut for a single dash gives the list of the chunk loop. -/
theorem portSpec_parse_spec (spec : Text) :
    ((∃ ports, PortSpec.parse spec = .ok ⟨ports⟩) ↔ InGrammar spec) ∧
    (∀ ports, PortSpec.parse spec = .ok ⟨ports⟩ →
      ports.Pairwise (· < ·) ∧ ports ≠ [] ∧ (∀ p ∈ ports, 1 ≤ p.toNat ∧ p.toNat ≤ 65535) ∧
        ∀ p, p ∈ ports ↔ ∃ chunk ∈ chunksOf spec, Covers chunk p) ∧
    (¬ InGrammar spec → ∃ e, PortSpec.parse spec = .error e) ∧
    (trim spec = "-".toList → PortSpec.parse spec = parseChunks spec (trim spec)) := by
  have hgrammar : (∃ ports, PortSpec.parse spec = .ok ⟨ports⟩) ↔ InGrammar spec := by
    refine ⟨fun ⟨ports, h⟩ => (parse_eq_ok_iff.1 h).1, fun h => ?_⟩
    obtain ⟨set, hloop⟩ := foldlM_addChunk_ok spec h.2.2 SortedSet.empty
    obtain ⟨-, hcovers⟩ := covers_of_foldlM hloop
    have hcovered : ∀ p, p ∈ set.toList ↔ ∃ chunk ∈ chunksOf spec, Covers chunk p := by
      intro p
      rw [SortedSet.mem_toList, hcovers, or_iff_right (SortedSet.not_mem_empty p), chunksOf]
    refine ⟨set.toList, parse_eq_ok_iff.2 ⟨h, set.ascending, ?_, hcovered⟩⟩
    obtain ⟨-, ⟨chunk, hchunk, hblank⟩, hmeans⟩ := h
    obtain ⟨lo, hi, hlohi⟩ := hmeans chunk hchunk hblank
    obtain ⟨p, hp⟩ := hlohi.exists_covers
    exact List.ne_nil_of_mem ((hcovered p).2 ⟨chunk, hchunk, hp⟩)
  refine ⟨hgrammar, ?_, ?_, ?_⟩
  · intro ports h
    obtain ⟨-, hasc, hne, hcovered⟩ := parse_eq_ok_iff.1 h
    refine ⟨hasc, hne, fun p hp => ?_, hcovered⟩
    obtain ⟨chunk, -, lo, hi, hmeans, hlo, -⟩ := (hcovered p).1 hp
    exact ⟨hmeans.bounds.1.trans hlo, Nat.le_of_lt_succ p.toNat_lt⟩
  · intro hout
    cases hparse : PortSpec.parse spec with
    | error e => exact ⟨e, rfl⟩
    | ok ports => exact absurd (hgrammar.1 ⟨ports.ports, hparse⟩) hout
  · intro hdash
    exact parse_eq_parseChunks (by simp [hdash])

example : PortSpec.parse "443, 80-82,,22".toList = .ok ⟨[22, 80, 81, 82, 443]⟩ := by
  decide +kernel

/-! ### Adding a port -/

/-- `insert` on a set of ports. -/
def insertPort (set : SortedSet UInt16) (p : UInt16) : SortedSet UInt16 := set.insert p

theorem mem_insertPort {set : SortedSet UInt16} {p q : UInt16} :
    q ∈ insertPort set p ↔ q = p ∨ q ∈ set :=
  SortedSet.mem_insert

end Rnmap
