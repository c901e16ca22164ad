/-
**Reading a report back.**

Reports can be deserialised as well as serialised.  An elapsed time is a number of seconds; it is
read by a helper that clamps negative numbers to zero and hands the rest to
`Duration::from_secs_f64`, which panics at numbers a duration cannot hold.  The helper is reached
from the report and from each of its hosts.

Numbers are exact here, and a computation that panics is `none`.

Main definitions:

* `Rnmap.asSecsF64`, `Rnmap.fromSecsF64` — a duration as a number of seconds, and back;
* `Rnmap.deDurationSecs`, `Rnmap.deReport` — the helper, and the reading of a report;
* `Rnmap.InRange` — the numbers of seconds below the largest that a duration can hold;
* `Rnmap.ReachesPanic` — some number out of range comes before the first error.

Main results:

* `Rnmap.fromSecsF64_eq_none_iff` — when the conversion panics;
* `Rnmap.deReport_panics_iff` — **when reading a report panics**;
* `Rnmap.elapsed_read_iff` — **when the elapsed times of a report are read without a panic**;
* `Rnmap.deReport_written` — a report that was written is read back.
-/

import Rnmap.Result
import Rnmap.Rounding

set_option relaxedAutoImplicit false
set_option autoImplicit false

namespace Rnmap

open Rounding

/-! ### Durations as numbers of seconds -/

/-- The nanoseconds a duration can hold: `u64::MAX` seconds and a fraction. -/
def durationLimit : ℕ := 2 ^ 64 * 10 ^ 9

/-- `Duration::as_secs_f64`. -/
def asSecsF64 (d : Duration) : ℚ := d / 10 ^ 9

/-- `Duration::from_secs_f64`: to the nearest nanosecond, ties to even.  It panics at a negative
number and at one that is too large. -/
def fromSecsF64 (secs : ℚ) : Option Duration :=
  if secs < 0 then none
  else if (nearestEven (secs * 10 ^ 9)).toNat < durationLimit then
    some (nearestEven (secs * 10 ^ 9)).toNat
  else none

/-- The numbers of seconds that do not reach `u64::MAX` seconds and the last half nanosecond
behind them. -/
def InRange (secs : ℚ) : Prop := secs < 2 ^ 64 - 1 / (2 * 10 ^ 9)

/-- **When the conversion panics**, of a number that is not negative. -/
theorem fromSecsF64_eq_none_iff {secs : ℚ} (h : 0 ≤ secs) :
    fromSecsF64 secs = none ↔ ¬ InRange secs := by
  have heven : Even ((durationLimit : ℕ) : ℤ) := ⟨2 ^ 63 * 10 ^ 9, by norm_num [durationLimit]⟩
  have hround : (nearestEven (secs * 10 ^ 9)).toNat < durationLimit ↔
      nearestEven (secs * 10 ^ 9) < (durationLimit : ℕ) := by
    have hpos : 0 < durationLimit := by decide
    omega
  have hrange : secs * 10 ^ 9 < ((durationLimit : ℕ) : ℤ) - 1 / 2 ↔ InRange secs := by
    unfold InRange durationLimit
    push_cast
    constructor
    · intro hlt
      linarith
    · intro hlt
      linarith
  rw [fromSecsF64, if_neg (not_lt.2 h)]
  split_ifs with hlt
  · have hin : InRange secs := hrange.1 ((nearestEven_lt_iff heven _).1 (hround.1 hlt))
    simpa using hin
  · refine iff_of_true rfl fun hin => hlt ?_
    exact hround.2 ((nearestEven_lt_iff heven _).2 (hrange.2 hin))

/-- A duration comes back from a number less than half a nanosecond away from its seconds. -/
theorem fromSecsF64_of_near {d : Duration} (hd : d < durationLimit) {secs : ℚ} (hsecs : 0 ≤ secs)
    (h : |secs - asSecsF64 d| < 1 / (2 * 10 ^ 9)) : fromSecsF64 secs = some d := by
  have hnear : |secs * 10 ^ 9 - ((d : ℤ) : ℚ)| < 1 / 2 := by
    have hnanos : secs * 10 ^ 9 - ((d : ℤ) : ℚ) = (secs - asSecsF64 d) * 10 ^ 9 := by
      unfold asSecsF64
      push_cast
      ring
    rw [hnanos, abs_mul, abs_of_pos (by positivity : (0 : ℚ) < 10 ^ 9)]
    linarith
  rw [fromSecsF64, if_neg (not_lt.2 hsecs), nearestEven_of_abs_sub_lt hnear, Int.toNat_natCast,
    if_pos hd]

/-! ### Deserialising -/

/-- The text of an error of the deserialiser. -/
abbrev DeError := Text

/-- The deserialiser: a value, an error, or a panic. -/
abbrev De := ExceptT DeError Option

/-- The computation panics. -/
def Panics {α : Type} (x : De α) : Prop := x.run = none

/-- `de_duration_secs`: what is given is the outcome of `f64::deserialize`. -/
def deDurationSecs (number : Except DeError ℚ) : De Duration := do
  let secs ← ExceptT.mk (some number)
  ExceptT.lift (fromSecsF64 (max secs 0))

/-- A host as it stands in a report file, its elapsed time not yet converted. -/
structure HostDoc where
  address : IpAddr
  hostname : Option Text
  state : HostState
  reason : Text
  ports : List PortResult
  startedAt : DateTime
  endedAt : DateTime
  elapsed : Except DeError ℚ

/-- A report as it stands in a file, its elapsed times not yet converted. -/
structure ReportDoc where
  scanner : Text
  version : Text
  args : List Text
  startedAt : DateTime
  endedAt : DateTime
  elapsed : Except DeError ℚ
  hosts : List HostDoc

/-- `HostResult::deserialize`, whose one conversion is that of the elapsed time. -/
def deHost (h : HostDoc) : De HostResult := do
  let elapsed ← deDurationSecs h.elapsed
  return { h with elapsed }

/-- `ScanReport::deserialize` of a file with the fields in the order in which rnmap writes them: the
elapsed time comes before the hosts. -/
def deReport (r : ReportDoc) : De ScanReport := do
  let elapsed ← deDurationSecs r.elapsed
  let hosts ← r.hosts.mapM deHost
  return { r with elapsed, hosts }

/-- The elapsed fields of a report in the order in which they stand in such a file. -/
def ReportDoc.elapsedFields (r : ReportDoc) : List (Except DeError ℚ) :=
  r.elapsed :: r.hosts.map HostDoc.elapsed

/-! ### Panics -/

theorem panics_bind {α β : Type} (x : De α) (f : α → De β) :
    Panics (x >>= f) ↔ Panics x ∨ ∃ a, x.run = some (.ok a) ∧ Panics (f a) := by
  unfold Panics
  rw [ExceptT.run_bind]
  cases x.run with
  | none => simp
  | some outcome =>
      cases outcome with
      | error e => simp
      | ok a => simp

theorem not_panics_pure {α : Type} (a : α) : ¬ Panics (pure a : De α) := by
  simp [Panics]

theorem run_deDurationSecs_error (e : DeError) :
    (deDurationSecs (.error e)).run = some (.error e) := rfl

theorem run_deDurationSecs_ok (q : ℚ) :
    (deDurationSecs (.ok q)).run = (fromSecsF64 (max q 0)).map .ok := rfl

/-- **The helper panics** exactly at the numbers out of range: the clamp keeps the negative ones
from it. -/
theorem panics_deDurationSecs_iff (q : ℚ) : Panics (deDurationSecs (.ok q)) ↔ ¬ InRange q := by
  have hclamp : InRange (max q 0) ↔ InRange q := by
    unfold InRange
    rw [max_lt_iff]
    refine and_iff_left ?_
    norm_num
  rw [Panics, run_deDurationSecs_ok, Option.map_eq_none_iff,
    fromSecsF64_eq_none_iff (le_max_right q 0), hclamp]

/-- Some number out of range comes before the first error. -/
def ReachesPanic : List (Except DeError ℚ) → Prop
  | .ok q :: rest => ¬ InRange q ∨ ReachesPanic rest
  | _ => False

/-- What goes on after an elapsed time has been read is reached unless that is an error. -/
theorem panics_deDurationSecs_bind {α : Type} {rest : List (Except DeError ℚ)}
    {f : Duration → De α} (hf : ∀ d, Panics (f d) ↔ ReachesPanic rest)
    (number : Except DeError ℚ) :
    Panics (deDurationSecs number >>= f) ↔ ReachesPanic (number :: rest) := by
  rw [panics_bind]
  cases number with
  | error e => simp [Panics, run_deDurationSecs_error, ReachesPanic]
  | ok q =>
      rw [panics_deDurationSecs_iff, ReachesPanic]
      by_cases hq : InRange q
      · have hsome : fromSecsF64 (max q 0) ≠ none := by
          intro hnone
          refine (panics_deDurationSecs_iff q).1 ?_ hq
          rw [Panics, run_deDurationSecs_ok, hnone]
          rfl
        obtain ⟨d, hd⟩ := Option.ne_none_iff_exists'.1 hsome
        rw [run_deDurationSecs_ok, hd]
        simp [hf, hq]
      · simp [hq]

/-- **When reading the hosts panics.** -/
theorem panics_mapM_deHost (hosts : List HostDoc) :
    Panics (hosts.mapM deHost) ↔ ReachesPanic (hosts.map HostDoc.elapsed) := by
  induction hosts with
  | nil =>
      rw [List.mapM_nil]
      exact iff_of_false (not_panics_pure _) id
  | cons h hosts ih =>
      rw [List.mapM_cons, deHost, bind_assoc, List.map_cons]
      apply panics_deDurationSecs_bind
      intro d
      rw [pure_bind, panics_bind, ← ih]
      refine or_iff_left ?_
      rintro ⟨results, -, hpanics⟩
      exact not_panics_pure _ hpanics

/-- **When reading a report panics**: at a number out of range that it comes to before an error. -/
theorem deReport_panics_iff (r : ReportDoc) :
    Panics (deReport r) ↔ ReachesPanic r.elapsedFields := by
  apply panics_deDurationSecs_bind
  intro d
  rw [panics_bind, ← panics_mapM_deHost]
  refine or_iff_left ?_
  rintro ⟨hosts, -, hpanics⟩
  exact not_panics_pure _ hpanics

theorem not_reachesPanic {numbers : List (Except DeError ℚ)}
    (h : ∀ q, .ok q ∈ numbers → InRange q) : ¬ ReachesPanic numbers := by
  induction numbers with
  | nil => exact id
  | cons number numbers ih =>
      cases number with
      | error e => exact id
      | ok q =>
          rintro (hout | hrest)
          · exact hout (h q List.mem_cons_self)
          · exact ih (fun q hq => h q (List.mem_cons_of_mem _ hq)) hrest

/-- **When the elapsed times of a report are read without a panic**: exactly when each is in
range, wherever it stands in the report, and then reading the whole report does not panic
either. -/
theorem elapsed_read_iff (r : ReportDoc) :
    ((∀ q, .ok q ∈ r.elapsedFields → ¬ Panics (deDurationSecs (.ok q))) ↔
      ∀ q, .ok q ∈ r.elapsedFields → InRange q) ∧
    (Panics (deReport r) ↔ ReachesPanic r.elapsedFields) ∧
    ((∀ q, .ok q ∈ r.elapsedFields → InRange q) → ¬ Panics (deReport r)) := by
  refine ⟨forall₂_congr fun q _ => ?_, deReport_panics_iff r, ?_⟩
  · rw [panics_deDurationSecs_iff, not_not]
  · intro h
    rw [deReport_panics_iff]
    exact not_reachesPanic h

/-- A report of one host, whose elapsed time is `1e20` seconds. -/
def longReport : ReportDoc where
  scanner := "rnmap".toList
  version := "0.1.0".toList
  args := ["rnmap".toList, "10.0.0.1".toList]
  startedAt := ⟨0, 0⟩
  endedAt := ⟨1, 0⟩
  elapsed := .ok 1
  hosts := [⟨.v4 ⟨10, 0, 0, 1⟩, none, .up, "skipped".toList, [], ⟨0, 0⟩, ⟨1, 0⟩, .ok (10 ^ 20)⟩]

/-- The clamp does not keep `1e20` seconds from the conversion. -/
theorem elapsed_panics :
    (¬ ∀ (r : ReportDoc) (q : ℚ), .ok q ∈ r.elapsedFields → ¬ Panics (deDurationSecs (.ok q))) ∧
      Panics (deReport longReport) := by
  have hout : ¬ InRange (10 ^ 20) := by
    unfold InRange
    norm_num
  constructor
  · intro h
    refine h longReport (10 ^ 20) ?_ ((panics_deDurationSecs_iff _).2 hout)
    exact List.mem_cons_of_mem _ List.mem_cons_self
  · rw [deReport_panics_iff]
    exact .inr (.inl hout)

/-! ### Reading what was written -/

/-- A duration is read back from a number that is near enough, be it a little below zero. -/
theorem deDurationSecs_of_near {d : Duration} (hd : d < durationLimit) {q : ℚ}
    (h : |q - asSecsF64 d| < 1 / (2 * 10 ^ 9)) : deDurationSecs (.ok q) = pure d := by
  have hsecs : 0 ≤ asSecsF64 d := by
    unfold asSecsF64
    positivity
  have hclamp : |max q 0 - asSecsF64 d| ≤ |q - asSecsF64 d| := by
    have hmax := abs_max_sub_max_le_abs q (asSecsF64 d) 0
    rwa [max_eq_left hsecs] at hmax
  apply ExceptT.ext
  rw [run_deDurationSecs_ok, fromSecsF64_of_near hd (le_max_right q 0) (hclamp.trans_lt h)]
  rfl

/-- The elapsed times of a report. -/
def ScanReport.durations (r : ScanReport) : List Duration :=
  r.elapsed :: r.hosts.map HostResult.elapsed

/-- A host as it stands in a file, when `number` is what stands there for a duration. -/
def hostDoc (number : Duration → Except DeError ℚ) (h : HostResult) : HostDoc :=
  { h with elapsed := number h.elapsed }

/-- A report as it stands in a file. -/
def reportDoc (number : Duration → Except DeError ℚ) (r : ScanReport) : ReportDoc :=
  { r with elapsed := number r.elapsed, hosts := r.hosts.map (hostDoc number) }

/-- **A report that was written is read back**, if its durations are. -/
theorem deReport_written {number : Duration → Except DeError ℚ} {r : ScanReport}
    (h : ∀ d ∈ r.durations, deDurationSecs (number d) = pure d) :
    deReport (reportDoc number r) = pure r := by
  obtain ⟨helapsed, hhosts⟩ := List.forall_mem_cons.1 h
  have hlist : ∀ hosts : List HostResult,
      (∀ d ∈ hosts.map HostResult.elapsed, deDurationSecs (number d) = pure d) →
      (hosts.map (hostDoc number)).mapM deHost = pure hosts := by
    intro hosts hall
    induction hosts with
    | nil => rfl
    | cons host hosts ih =>
        obtain ⟨hhost, hrest⟩ := List.forall_mem_cons.1 hall
        have hread : deDurationSecs (hostDoc number host).elapsed = pure host.elapsed := hhost
        rw [List.map_cons, List.mapM_cons, deHost, hread, pure_bind, pure_bind, ih hrest,
          pure_bind]
        rfl
  have hread : deDurationSecs (reportDoc number r).elapsed = pure r.elapsed := helapsed
  have hreadHosts : (reportDoc number r).hosts.mapM deHost = pure r.hosts := hlist r.hosts hhosts
  rw [deReport, hread, pure_bind, hreadHosts, pure_bind]
  rfl

end Rnmap
