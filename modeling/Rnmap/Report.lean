/-
**Reports as the renderers get them.**

At its end a run of the command line builds a report of the hosts.  The renderers print dates and
seconds, which are parameters here, and the services detection has found, each of which comes from
some banner.

Main definitions:

* `Rnmap.CliRun.report` — the report of a run;
* `Rnmap.Formats` — the printing of dates and seconds;
* `Rnmap.FromBanners` — a report whose services come from banners.

Main results:

* `Rnmap.CliRun.fromBanners_report` — **a run reports services that come from banners**.
-/

import Rnmap.HostLoop

set_option relaxedAutoImplicit false
set_option autoImplicit false

namespace Rnmap

open Text

/-- How dates and seconds are printed: `%Y-%m-%d %H:%M:%S UTC`, in printable characters, and
seconds as a floating-point number with so many decimals. -/
structure Formats where
  utc : DateTime → Text
  secs : ℕ → Duration → Text
  printable_utc : ∀ t, Printable (utc t)
  numeral_secs : ∀ n d, ∀ c ∈ secs n d, c.isDigit = true ∨ c = '.'

/-- Seconds are printed in printable characters. -/
theorem Formats.printable_secs (fmt : Formats) (n : ℕ) (d : Duration) :
    Printable (fmt.secs n d) := by
  intro c hc
  rcases fmt.numeral_secs n d c hc with hdigit | rfl
  · have hbounds : 48 ≤ c.toNat ∧ c.toNat ≤ 57 := by
      simpa [Char.isDigit, UInt32.le_iff_toNat_le] using hdigit
    exact ⟨by omega, by omega⟩
  · decide

/-! ### Reports of runs -/

/-- A report whose services come from banners. -/
def FromBanners (r : ScanReport) : Prop :=
  ∀ h ∈ r.hosts, ∀ p ∈ h.ports, ∀ svc, p.service = some svc →
    ∃ banner, svc = serviceInfo p.port banner

namespace CliRun

variable {run : CliRun}

/-- The report of a run that was called with `args` and has reported the hosts of `s`. -/
def report (args : List Text) (startedAt endedAt : DateTime) (elapsed : Duration)
    (s : LoopState) : ScanReport where
  scanner := "rnmap".toList
  version := "0.1.0".toList
  args := args
  startedAt := startedAt
  endedAt := endedAt
  elapsed := elapsed
  hosts := s.hosts

/-- Service detection takes the service of a port from a banner. -/
theorem service_detectOn {plan : HostPlan} {r : PortResult} {port : UInt16}
    (hr : r.IsProbeOf port) {svc : ServiceInfo} (h : (run.detectOn plan r).service = some svc) :
    ∃ banner, svc = serviceInfo port banner := by
  unfold detectOn at h
  split_ifs at h
  · obtain ⟨banner, -, rfl⟩ := Option.map_eq_some_iff.1 h
    exact ⟨banner, by rw [hr.port_eq]⟩
  · rw [hr.service] at h
    cases h

/-- The services of a host come from banners. -/
theorem service_hostResult {plan : HostPlan} {p : PortResult}
    (hp : p ∈ (run.hostResult plan).ports) {svc : ServiceInfo} (hsvc : p.service = some svc) :
    ∃ banner, svc = serviceInfo p.port banner := by
  cases hskip : run.skips plan with
  | true =>
      rw [hostResult, hskip] at hp
      cases hp
  | false =>
      rw [ports_hostResult hskip] at hp
      obtain ⟨r, hr, rfl⟩ := List.mem_map.1 hp
      obtain ⟨port, -, hres⟩ := List.mem_filterMap.1 ((sortByPort_spec _).1.mem_iff.1 hr)
      have hprobe := isProbeOf_of_probeResult hres
      rw [port_detectOn, hprobe.port_eq]
      exact service_detectOn hprobe hsvc

/-- **A run reports services that come from banners**, whenever it makes its report. -/
theorem fromBanners_report {s : LoopState} (h : run.LoopReachable s) (args : List Text)
    (startedAt endedAt : DateTime) (elapsed : Duration) :
    FromBanners (report args startedAt endedAt elapsed s) := by
  obtain ⟨past, -, hhosts⟩ := (loopInv_of_reachable h).reported
  intro host hhost p hp svc hsvc
  change host ∈ s.hosts at hhost
  rw [hhosts] at hhost
  obtain ⟨plan, -, rfl⟩ := List.mem_map.1 hhost
  exact service_hostResult hp hsvc

end CliRun

/-! ### A sample -/

/-- The formats at the epoch and of whole seconds. -/
def epochFormats : Formats where
  utc := fun _ => "1970-01-01 00:00:00 UTC".toList
  secs := fun n d => decimal (d / 1000000000) ++ '.' :: List.replicate n '0'
  printable_utc := fun _ => by decide
  numeral_secs := by
    intro n d c hc
    rcases List.mem_append.1 hc with hc | hc
    · exact .inl (isDigit_of_mem_decimal hc)
    · rcases List.mem_cons.1 hc with rfl | hc
      · exact .inr rfl
      · obtain rfl := List.eq_of_mem_replicate hc
        exact .inl (by decide)

/-- A report of one open port of `192.168.0.1` with the service of a banner. -/
def sampleReport (port : UInt16) (banner : Text) : ScanReport where
  scanner := "rnmap".toList
  version := "0.1.0".toList
  args := ["rnmap".toList, "-sV".toList, "192.168.0.1".toList]
  startedAt := ⟨0, 0⟩
  endedAt := ⟨1, 0⟩
  elapsed := fromSecs 1
  hosts := [{
    address := .v4 ⟨192, 168, 0, 1⟩
    hostname := none
    state := .up
    reason := "skipped".toList
    ports := [⟨port, .tcp, .open, "syn-ack".toList, some (serviceInfo port banner), some 20⟩]
    startedAt := ⟨0, 0⟩
    endedAt := ⟨1, 0⟩
    elapsed := fromSecs 1 }]

theorem fromBanners_sampleReport (port : UInt16) (banner : Text) :
    FromBanners (sampleReport port banner) := by
  intro h hh p hp svc hsvc
  obtain rfl := List.mem_singleton.1 hh
  obtain rfl := List.mem_singleton.1 hp
  exact ⟨banner, (Option.some.inj hsvc).symm⟩

end Rnmap
