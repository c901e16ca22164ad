/-
**The attempts of a connect scan.**

The retry loop is taken apart: an attempt that decides nothing only moves the state on, so that the
loop is decided by its first deciding attempt, or runs through all attempts and reports the error
of the last one.  The clock of a scan starts before its first attempt, and the round-trip time it
reports counts from there.

Main definitions:

* `Rnmap.ConnectState.after`, `Rnmap.stateBefore` — the state after an undecided attempt, and the
  state an attempt starts in;
* `Rnmap.FirstDecides` — the attempt that decides a scan;
* `Rnmap.waited` — the time that passes before an attempt;
* `Rnmap.backoffMs` — the pause in the integers of the source;
* `Rnmap.RetriesInOrder` — what the loop promises;
* `Rnmap.RttOfDecidingAttempt` — the round-trip time is that of the deciding attempt.

Main results:

* `Rnmap.connectScan_of_firstDecides`, `Rnmap.connectScan_of_undecided` — **the run of a scan**;
* `Rnmap.connectScan_retries` — the loop keeps its promise, whatever the script;
* `Rnmap.rtt_iff` — **when the round-trip time is that of the deciding attempt**.
-/

import Rnmap.ConnectScan

set_option relaxedAutoImplicit false
set_option autoImplicit false

namespace Rnmap

/-! ### One attempt -/

/-- The error an attempt leaves behind. -/
def Attempt.errText (a : Attempt) : Option Text :=
  match a.outcome with
  | .connected => none
  | .failed e => some e.display
  | .elapsed => some "timeout".toList

theorem Attempt.exists_errText {a : Attempt} (h : a.decides = none) :
    ∃ text, a.errText = some text := by
  unfold Attempt.decides at h
  unfold Attempt.errText
  cases hout : a.outcome with
  | connected =>
      rw [hout] at h
      cases h
  | failed e => exact ⟨_, rfl⟩
  | elapsed => exact ⟨_, rfl⟩

/-- The loop's state after an attempt that decides nothing. -/
def ConnectState.after (maxRetries : ℕ) (script : ℕ → Attempt) (s : ConnectState) (attempt : ℕ) :
    ConnectState where
  now :=
    if attempt < maxRetries then
      s.now + (script attempt).duration + fromMillis (backoff attempt) + (script attempt).oversleep
    else s.now + (script attempt).duration
  lastErr := (script attempt).errText
  made := s.made + 1

/-- The reason of a state that an attempt decides. -/
def decidedReason : PortState → Text
  | .open => "syn-ack".toList
  | _ => "conn-refused".toList

/-- The result of an attempt that decides for `st` when `rtt` has passed. -/
def decidedResult (port : UInt16) (st : PortState) (rtt : Duration) : PortResult :=
  ⟨port, .tcp, st, decidedReason st, none, some (asMillis rtt)⟩

section Loop

variable (port : UInt16) (maxRetries : ℕ) (script : ℕ → Attempt) (started : Duration)

/-- An attempt that decides ends the loop. -/
theorem connectLoop_cons_of_decides {n : ℕ} {st : PortState} (h : (script n).decides = some st)
    (rest : List ℕ) (s : ConnectState) :
    connectLoop port maxRetries script started (n :: rest) s =
      ⟨decidedResult port st (s.now + (script n).duration - started), s.made + 1⟩ := by
  unfold Attempt.decides at h
  rw [connectLoop]
  cases hout : (script n).outcome with
  | connected =>
      rw [hout] at h
      cases h
      rfl
  | elapsed =>
      rw [hout] at h
      cases h
  | failed e =>
      simp only [hout] at h ⊢
      split_ifs at h with hkind
      cases h
      rw [if_pos hkind]
      rfl

/-- An attempt that does not moves the state on. -/
theorem connectLoop_cons_of_undecided {n : ℕ} (h : (script n).decides = none) (rest : List ℕ)
    (s : ConnectState) :
    connectLoop port maxRetries script started (n :: rest) s =
      connectLoop port maxRetries script started rest (s.after maxRetries script n) := by
  unfold Attempt.decides at h
  rw [connectLoop, ConnectState.after, Attempt.errText]
  cases hout : (script n).outcome with
  | connected =>
      rw [hout] at h
      cases h
  | elapsed => rfl
  | failed e =>
      simp only [hout] at h ⊢
      split_ifs at h with hkind
      rw [if_neg hkind]

/-- Attempts that decide nothing move the state on, one after the other. -/
theorem connectLoop_append {ns : List ℕ} (h : ∀ n ∈ ns, (script n).decides = none)
    (rest : List ℕ) (s : ConnectState) :
    connectLoop port maxRetries script started (ns ++ rest) s =
      connectLoop port maxRetries script started rest
        (ns.foldl (ConnectState.after maxRetries script) s) := by
  induction ns generalizing s with
  | nil => rfl
  | cons n ns ih =>
      obtain ⟨hn, hns⟩ := List.forall_mem_cons.1 h
      rw [List.cons_append, connectLoop_cons_of_undecided port maxRetries script started hn,
        ih hns, List.foldl_cons]

end Loop

/-! ### The state an attempt starts in -/

/-- The state in which attempt number `k` starts, when none before it decides. -/
def stateBefore (maxRetries : ℕ) (script : ℕ → Attempt) (started : Duration) (k : ℕ) :
    ConnectState :=
  (List.range k).foldl (ConnectState.after maxRetries script) ⟨started, none, 0⟩

/-- The time from the start of a scan to the start of attempt number `k`: the attempts before it
and the pauses after them. -/
def waited (script : ℕ → Attempt) : ℕ → Duration
  | 0 => 0
  | k + 1 =>
      waited script k + (script k).duration + fromMillis (backoff k) + (script k).oversleep

theorem stateBefore_succ (maxRetries : ℕ) (script : ℕ → Attempt) (started : Duration) (k : ℕ) :
    stateBefore maxRetries script started (k + 1) =
      (stateBefore maxRetries script started k).after maxRetries script k := by
  rw [stateBefore, List.range_succ, List.foldl_append]
  rfl

theorem made_stateBefore (maxRetries : ℕ) (script : ℕ → Attempt) (started : Duration) (k : ℕ) :
    (stateBefore maxRetries script started k).made = k := by
  induction k with
  | zero => rfl
  | succ k ih =>
      rw [stateBefore_succ, ConnectState.after]
      exact congrArg (· + 1) ih

/-- Every pause before an attempt is made: only the last attempt is not followed by one. -/
theorem now_stateBefore {maxRetries : ℕ} (script : ℕ → Attempt) (started : Duration) {k : ℕ}
    (h : k ≤ maxRetries) :
    (stateBefore maxRetries script started k).now = started + waited script k := by
  induction k with
  | zero => rfl
  | succ k ih =>
      rw [stateBefore_succ, ConnectState.after]
      dsimp only
      rw [if_pos (Nat.lt_of_succ_le h), ih (Nat.le_of_succ_le h), waited]
      simp only [Nat.add_assoc]

/-! ### The run of a scan -/

/-- The attempt that decides a scan: the first that decides anything. -/
structure FirstDecides (script : ℕ → Attempt) (k : ℕ) (st : PortState) : Prop where
  decides : (script k).decides = some st
  undecided : ∀ n < k, (script n).decides = none

theorem range_split {k n : ℕ} (h : k ≤ n) :
    List.range (n + 1) = List.range k ++ k :: List.range' (k + 1) (n - k) := by
  have hsplit : n + 1 = k + (n - k + 1) := by omega
  rw [List.range_eq_range', List.range_eq_range', ← List.range'_succ, hsplit,
    ← List.range'_append_1, Nat.zero_add]

section Scan

variable {port : UInt16} {timing : Timing} {script : ℕ → Attempt} {started : Duration}

/-- **The run of a scan that an attempt decides**: no attempt after it is made. -/
theorem connectScan_of_firstDecides {k : ℕ} {st : PortState} (h : FirstDecides script k st)
    (hk : k ≤ timing.maxRetries.toNat) :
    connectScan port timing script started =
      ⟨decidedResult port st (waited script k + (script k).duration), k + 1⟩ := by
  have hundecided : ∀ n ∈ List.range k, (script n).decides = none :=
    fun n hn => h.undecided n (List.mem_range.1 hn)
  rw [connectScan, range_split hk, connectLoop_append _ _ _ _ hundecided,
    connectLoop_cons_of_decides _ _ _ _ h.decides, ← stateBefore, made_stateBefore,
    now_stateBefore script started hk, Nat.add_assoc, Nat.add_sub_cancel_left]

/-- **The run of a scan that no attempt decides**: all attempts are made, and the loop ends with the
error of the last one. -/
theorem connectScan_of_undecided (h : ∀ n ≤ timing.maxRetries.toNat, (script n).decides = none) :
    ∃ s : ConnectState, s.lastErr = (script timing.maxRetries.toNat).errText ∧
      s.made = timing.maxRetries.toNat + 1 ∧
      connectScan port timing script started =
        connectLoop port timing.maxRetries.toNat script started [] s := by
  have hundecided : ∀ n ∈ List.range (timing.maxRetries.toNat + 1), (script n).decides = none :=
    fun n hn => h n (Nat.le_of_lt_succ (List.mem_range.1 hn))
  have hrun := connectLoop_append port timing.maxRetries.toNat script started hundecided []
    ⟨started, none, 0⟩
  rw [List.append_nil, ← stateBefore] at hrun
  refine ⟨_, ?_, made_stateBefore _ _ _ _, hrun⟩
  rw [stateBefore_succ, ConnectState.after]

/-- A scan is decided by some attempt, or by none. -/
theorem firstDecides_or_undecided (script : ℕ → Attempt) (r : ℕ) :
    (∃ k ≤ r, ∃ st, FirstDecides script k st) ∨ ∀ n ≤ r, (script n).decides = none := by
  by_cases h : ∃ k, k ≤ r ∧ (script k).decides ≠ none
  · left
    obtain ⟨hk, hdecides⟩ := Nat.find_spec h
    obtain ⟨st, hst⟩ := Option.ne_none_iff_exists'.1 hdecides
    refine ⟨Nat.find h, hk, st, hst, fun n hn => ?_⟩
    by_contra hne
    exact Nat.find_min h hn ⟨(Nat.le_of_lt hn).trans hk, hne⟩
  · right
    intro n hn
    by_contra hne
    exact h ⟨n, hn, hne⟩

end Scan

/-! ### What the loop promises -/

/-- The pause after an attempt, in the integers of the source. -/
def backoffMs (attempt : UInt32) : UInt64 := 50 * (attempt.toUInt64 + 1)

/-- The pause is computed without overflow, whatever the attempt. -/
theorem toNat_backoffMs (attempt : UInt32) : (backoffMs attempt).toNat = backoff attempt.toNat := by
  have hlt := attempt.toNat_lt
  rw [backoffMs, backoff, UInt64.toNat_mul, UInt64.toNat_add, UInt32.toNat_toUInt64]
  simp only [UInt64.reduceToNat]
  omega

/-- **What the retry loop promises.** -/
structure RetriesInOrder (port : UInt16) (timing : Timing) (script : ℕ → Attempt)
    (started : Duration) : Prop where
  /-- There are at most `max_retries + 1` attempts. -/
  attempts_le :
    (connectScan port timing script started).attempts ≤ timing.maxRetries.toNat + 1
  /-- The first attempt that decides is the last one made, and decides the state. -/
  stops : ∀ k ≤ timing.maxRetries.toNat, ∀ st, FirstDecides script k st →
    (connectScan port timing script started).attempts = k + 1 ∧
      (connectScan port timing script started).result.state = st
  /-- Nothing depends on attempts that are not made. -/
  unmade : ∀ script' : ℕ → Attempt,
    (∀ n < (connectScan port timing script started).attempts, script' n = script n) →
      connectScan port timing script' started = connectScan port timing script started
  /-- The port is filtered when no attempt decides. -/
  filtered_iff : (connectScan port timing script started).result.state = .filtered ↔
    ∀ n ≤ timing.maxRetries.toNat, (script n).decides = none
  /-- Then all attempts are made, the loop ends with the error of the last one, and that is the
  reason. -/
  reason : (connectScan port timing script started).result.state = .filtered →
    (connectScan port timing script started).attempts = timing.maxRetries.toNat + 1 ∧
      ∃ s : ConnectState,
        connectScan port timing script started =
          connectLoop port timing.maxRetries.toNat script started [] s ∧
        s.lastErr = (script timing.maxRetries.toNat).errText ∧
        s.lastErr = some (connectScan port timing script started).result.reason
  /-- The attempts can be counted and the pauses computed in the integers of the source. -/
  noOverflow : ∀ n ≤ timing.maxRetries.toNat,
    (UInt32.ofNat n).toNat = n ∧ (backoffMs (UInt32.ofNat n)).toNat = backoff n

section Promise

variable {port : UInt16} {timing : Timing} {script : ℕ → Attempt} {started : Duration}

/-- What an attempt decides is open or closed. -/
theorem Attempt.ne_filtered_of_decides {a : Attempt} {st : PortState} (h : a.decides = some st) :
    st ≠ .filtered := by
  unfold Attempt.decides at h
  split at h
  · cases h
    exact PortState.noConfusion
  · split_ifs at h
    cases h
    exact PortState.noConfusion
  · cases h

theorem FirstDecides.congr {script' : ℕ → Attempt} {k : ℕ} {st : PortState}
    (h : FirstDecides script k st) (hsame : ∀ n ≤ k, script' n = script n) :
    FirstDecides script' k st := by
  refine ⟨?_, fun n hn => ?_⟩
  · rw [hsame k le_rfl]
    exact h.decides
  · rw [hsame n hn.le]
    exact h.undecided n hn

theorem waited_congr {script' : ℕ → Attempt} {k : ℕ} (hsame : ∀ n < k, script' n = script n) :
    waited script' k = waited script k := by
  induction k with
  | zero => rfl
  | succ k ih =>
      have hbefore : ∀ n < k, script' n = script n :=
        fun n hn => hsame n (hn.trans (Nat.lt_succ_self k))
      rw [waited, waited, hsame k (Nat.lt_succ_self k), ih hbefore]

variable (port started) in
/-- A scan that no attempt decides is filtered, for the error of its last attempt. -/
theorem filtered_of_undecided (h : ∀ n ≤ timing.maxRetries.toNat, (script n).decides = none) :
    ∃ s : ConnectState, ∃ text,
      connectScan port timing script started =
        connectLoop port timing.maxRetries.toNat script started [] s ∧
      s.lastErr = some text ∧ (script timing.maxRetries.toNat).errText = some text ∧
      connectScan port timing script started =
        ⟨⟨port, .tcp, .filtered, text, none, none⟩, timing.maxRetries.toNat + 1⟩ := by
  obtain ⟨s, hlast, hmade, hrun⟩ := connectScan_of_undecided h
  obtain ⟨text, htext⟩ := Attempt.exists_errText (h _ le_rfl)
  refine ⟨s, text, hrun, hlast.trans htext, htext, ?_⟩
  rw [hrun, connectLoop, hlast, htext, hmade]
  rfl

/-- **Nothing depends on attempts that are not made.** -/
theorem connectScan_congr {script' : ℕ → Attempt}
    (hsame : ∀ n < (connectScan port timing script started).attempts, script' n = script n) :
    connectScan port timing script' started = connectScan port timing script started := by
  rcases firstDecides_or_undecided script timing.maxRetries.toNat with ⟨k, hk, st, h⟩ | h
  · have hrun : connectScan port timing script started = _ := connectScan_of_firstDecides h hk
    rw [hrun] at hsame
    have hsame' : ∀ n ≤ k, script' n = script n := fun n hn => hsame n (Nat.lt_succ_of_le hn)
    rw [hrun, connectScan_of_firstDecides (h.congr hsame') hk, hsame' k le_rfl,
      waited_congr fun n hn => hsame' n hn.le]
  · -- a script with the same attempts leaves the same error
    obtain ⟨s, text, -, -, htext, hrun⟩ := filtered_of_undecided port started h
    rw [hrun] at hsame
    have hsame' : ∀ n ≤ timing.maxRetries.toNat, script' n = script n :=
      fun n hn => hsame n (Nat.lt_succ_of_le hn)
    have h' : ∀ n ≤ timing.maxRetries.toNat, (script' n).decides = none := by
      intro n hn
      rw [hsame' n hn]
      exact h n hn
    obtain ⟨s', text', -, -, htext', hrun'⟩ := filtered_of_undecided port started h'
    rw [hsame' _ le_rfl, htext] at htext'
    obtain rfl := Option.some.inj htext'
    rw [hrun, hrun']

/-- The attempts are counted and the pauses computed without overflow. -/
theorem noOverflow_of_le {n : ℕ} (hn : n ≤ timing.maxRetries.toNat) :
    (UInt32.ofNat n).toNat = n ∧ (backoffMs (UInt32.ofNat n)).toNat = backoff n := by
  have hlt := timing.maxRetries.toNat_lt
  have hn' : (UInt32.ofNat n).toNat = n := UInt32.toNat_ofNat_of_lt' (hn.trans_lt hlt)
  exact ⟨hn', by rw [toNat_backoffMs, hn']⟩

/-- **The loop keeps its promise**, whatever the bound and the script. -/
theorem connectScan_retries (port : UInt16) (timing : Timing) (script : ℕ → Attempt)
    (started : Duration) : RetriesInOrder port timing script started := by
  have hstops : ∀ k ≤ timing.maxRetries.toNat, ∀ st, FirstDecides script k st →
      (connectScan port timing script started).attempts = k + 1 ∧
        (connectScan port timing script started).result.state = st := by
    intro k hk st h
    rw [connectScan_of_firstDecides h hk]
    exact ⟨rfl, rfl⟩
  rcases firstDecides_or_undecided script timing.maxRetries.toNat with ⟨k, hk, st, h⟩ | h
  · obtain ⟨hmade, hstate⟩ := hstops k hk st h
    have hne : (connectScan port timing script started).result.state ≠ .filtered := by
      rw [hstate]
      exact Attempt.ne_filtered_of_decides h.decides
    refine ⟨?_, hstops, fun script' => connectScan_congr, ?_, fun hfil => absurd hfil hne,
      fun n => noOverflow_of_le⟩
    · rw [hmade]
      exact Nat.succ_le_succ hk
    · refine iff_of_false hne fun hall => ?_
      have hdecides := h.decides
      rw [hall k hk] at hdecides
      cases hdecides
  · obtain ⟨s, text, hend, hlast, htext, hrun⟩ := filtered_of_undecided port started h
    refine ⟨by rw [hrun], hstops, fun script' => connectScan_congr, ?_, fun _ => ?_,
      fun n => noOverflow_of_le⟩
    · rw [hrun]
      exact iff_of_true rfl h
    · refine ⟨by rw [hrun], s, hend, hlast.trans htext.symm, ?_⟩
      rw [hlast, hrun]

end Promise

/-! ### Round-trip times -/

/-- **The round-trip time is that of the deciding attempt**: its duration in whole milliseconds. -/
def RttOfDecidingAttempt (port : UInt16) (timing : Timing) (script : ℕ → Attempt)
    (started : Duration) : Prop :=
  ∀ k ≤ timing.maxRetries.toNat, ∀ st, FirstDecides script k st →
    (connectScan port timing script started).result.rttMs.map UInt64.toNat =
      some ((script k).duration / 1000000)

/-- The round-trip time counts from the start of the first attempt. -/
theorem rttMs_of_firstDecides {port : UInt16} {timing : Timing} {script : ℕ → Attempt}
    {started : Duration} {k : ℕ} {st : PortState} (h : FirstDecides script k st)
    (hk : k ≤ timing.maxRetries.toNat) :
    (connectScan port timing script started).result.rttMs.map UInt64.toNat =
      some ((waited script k + (script k).duration) / 1000000 % 2 ^ 64) := by
  rw [connectScan_of_firstDecides h hk]
  rfl

/-- A number cut to `N` values is a smaller one exactly when they differ by a multiple of `N`. -/
theorem mod_eq_iff_dvd_sub {N m n : ℕ} (hN : 0 < N) (h : m ≤ n) :
    n % N = m ↔ m < N ∧ N ∣ n - m := by
  constructor
  · rintro rfl
    exact ⟨Nat.mod_lt n hN, Nat.dvd_sub_mod n⟩
  · rintro ⟨hlt, hdvd⟩
    have hmod : m % N = n % N := (Nat.modEq_iff_dvd' h).2 hdvd
    rw [← hmod, Nat.mod_eq_of_lt hlt]

/-- **When the round-trip time is that of the deciding attempt**: when the first attempt decides, or
none does.  Behind other attempts it is so only if what they and the pauses add is a multiple of
`2 ^ 64` milliseconds. -/
theorem rtt_iff (port : UInt16) (timing : Timing) (script : ℕ → Attempt) (started : Duration) :
    RttOfDecidingAttempt port timing script started ↔
      ∀ k ≤ timing.maxRetries.toNat, ∀ st, FirstDecides script k st →
        (script k).duration / 1000000 < 2 ^ 64 ∧
          (k = 0 ∨ 2 ^ 64 ∣ (waited script k + (script k).duration) / 1000000 -
            (script k).duration / 1000000) := by
  refine forall₂_congr fun k hk => forall₂_congr fun st h => ?_
  have hle : (script k).duration / 1000000 ≤
      (waited script k + (script k).duration) / 1000000 := Nat.div_le_div_right (by omega)
  rw [rttMs_of_firstDecides h hk, Option.some.injEq, mod_eq_iff_dvd_sub (by decide) hle]
  refine and_congr_right fun _ => ⟨.inr, ?_⟩
  rintro (rfl | hdvd)
  · simp [waited]
  · exact hdvd

/-- A first attempt that times out, and a second that connects within twenty milliseconds. -/
def retriedScript : ℕ → Attempt
  | 0 => ⟨.elapsed, fromSecs 3, 0⟩
  | _ + 1 => ⟨.connected, fromMillis 20, 0⟩

/-- The timeout of the first attempt and the pause after it are reported as round-trip time. -/
theorem retry_counts_as_rtt : ¬ RttOfDecidingAttempt 80 (Timing.new 3) retriedScript 0 := by
  intro h
  have hfirst : FirstDecides retriedScript 1 .open := by
    refine ⟨rfl, fun n hn => ?_⟩
    obtain rfl := Nat.lt_one_iff.1 hn
    rfl
  have hrtt := h 1 (by decide) .open hfirst
  rw [rttMs_of_firstDecides hfirst (by decide)] at hrtt
  revert hrtt
  decide

end Rnmap
