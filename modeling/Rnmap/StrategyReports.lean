/-
**What the scan strategy changes in what is printed.**

The normal report shows of a port its number, its protocol, its state and its service, and not how
the state was found out.  So a call with `-sS` and one without print reports of the same hosts, as
long as at each port both strategies meet the same reactions, and the first of them is an answer or
none of them is: the SYN scan probes once, the connect scan again.

Main definitions:

* `Rnmap.PortResult.shown`, `Rnmap.HostResult.shown` — the results without what the normal report
  leaves out;
* `Rnmap.PortScript.Agrees` — a port whose reactions do not tell the strategies apart.

Main results:

* `Rnmap.renderNormal_shown` — the normal report shows no more than this;
* `Rnmap.CliRun.shown_hostResult` — the results of a host by those of its ports;
* `Rnmap.World.strategies_print_alike` — **a call prints the same with and without `-sS`**.
-/

import Rnmap.CallReports
import Rnmap.ScanAgreement

set_option relaxedAutoImplicit false
set_option autoImplicit false

namespace Rnmap

open Runs

/-! ### What the normal report shows -/

/-- A result without its reason and its time. -/
def PortResult.shown (r : PortResult) : PortResult := { r with reason := [], rttMs := none }

/-- The result of a host without the reasons and the times of its ports. -/
def HostResult.shown (h : HostResult) : HostResult :=
  { h with ports := h.ports.map PortResult.shown }

theorem shownPorts_shown (onlyOpen : Bool) (h : HostResult) :
    shownPorts onlyOpen h.shown = (shownPorts onlyOpen h).map PortResult.shown := by
  cases onlyOpen with
  | false => rfl
  | true => exact List.filter_map

theorem hostSection_shown (onlyOpen : Bool) (h : HostResult) :
    hostSection onlyOpen h.shown = hostSection onlyOpen h := by
  have hrows : tableRows ((shownPorts onlyOpen h).map PortResult.shown) =
      tableRows (shownPorts onlyOpen h) := by
    rw [tableRows, List.flatMap_map]
    rfl
  unfold hostSection
  rw [shownPorts_shown, hrows, List.isEmpty_map]
  rfl

/-- **The normal report shows no more than this.** -/
theorem renderNormal_shown (fmt : Formats) (r : ScanReport) (onlyOpen : Bool) :
    renderNormal fmt { r with hosts := r.hosts.map HostResult.shown } onlyOpen =
      renderNormal fmt r onlyOpen := by
  have hsections : (r.hosts.map HostResult.shown).flatMap (hostSection onlyOpen) =
      r.hosts.flatMap (hostSection onlyOpen) := by
    rw [List.flatMap_map]
    exact List.flatMap_congr fun h _ => hostSection_shown onlyOpen h
  have hcount : ScanReport.hostCount { r with hosts := r.hosts.map HostResult.shown } =
      r.hostCount := List.length_map _
  have hup : ScanReport.upCount { r with hosts := r.hosts.map HostResult.shown } = r.upCount := by
    rw [ScanReport.upCount, List.filter_map, List.length_map]
    rfl
  have hopen : ScanReport.openPortCount { r with hosts := r.hosts.map HostResult.shown } =
      r.openPortCount := by
    have hports : (r.hosts.map HostResult.shown).flatMap (fun h => h.ports) =
        (r.hosts.flatMap fun h => h.ports).map PortResult.shown := by
      rw [List.flatMap_map, List.map_flatMap]
      rfl
    rw [ScanReport.openPortCount, hports, List.filter_map, List.length_map]
    rfl
  unfold renderNormal normalFooter
  rw [hcount, hup, hopen]
  dsimp only
  rw [hsections]
  rfl

/-! ### Results of a host -/

theorem sortByPort_shown (results : List PortResult) :
    (sortByPort results).map PortResult.shown = sortByPort (results.map PortResult.shown) :=
  List.map_mergeSort fun _ _ _ _ => rfl

namespace CliRun

variable {run run' : CliRun} {plan : HostPlan}

theorem shown_detectOn (r : PortResult) :
    (run.detectOn plan r).shown = run.detectOn plan r.shown := by
  have hstate : r.shown.state = r.state := rfl
  unfold detectOn
  rw [hstate]
  split_ifs
  · rfl
  · rfl

/-- The ports of a host that is scanned show what its results show. -/
theorem shown_scannedResult (results : List PortResult) :
    (run.scannedResult plan results).ports.map PortResult.shown =
      (sortByPort (results.map PortResult.shown)).map (run.detectOn plan) := by
  rw [← sortByPort_shown]
  change ((sortByPort results).map (run.detectOn plan)).map PortResult.shown = _
  rw [List.map_map, List.map_map]
  exact List.map_congr_left fun r _ => shown_detectOn r

/-- **The results of a host show what those of its ports show**, for two runs with the same ports
that discover and detect alike. -/
theorem shown_hostResult (hdiscover : run'.discover plan = run.discover plan)
    (hpn : run'.pn = run.pn) (hsV : run'.sV = run.sV) (hports : run'.ports = run.ports)
    (hprobe : ∀ port ∈ run.ports, (run'.probeResult plan port).map PortResult.shown =
      (run.probeResult plan port).map PortResult.shown) :
    (run'.hostResult plan).shown = (run.hostResult plan).shown := by
  have hskip : run'.skips plan = run.skips plan := by
    unfold skips
    rw [hdiscover, hpn]
  unfold hostResult
  rw [hskip]
  cases run.skips plan with
  | true =>
      rw [if_pos rfl, if_pos rfl]
      unfold skippedResult
      rw [hdiscover]
  | false =>
      rw [if_neg Bool.false_ne_true, if_neg Bool.false_ne_true]
      have hdetect : run'.detectOn plan = run.detectOn plan := by
        unfold detectOn
        rw [hsV]
      have hresults : (run'.ports.filterMap (run'.probeResult plan)).map PortResult.shown =
          (run.ports.filterMap (run.probeResult plan)).map PortResult.shown := by
        rw [hports, List.map_filterMap, List.map_filterMap]
        exact List.filterMap_congr hprobe
      have hshown : (run'.scannedResult plan
          (run'.ports.filterMap (run'.probeResult plan))).ports.map PortResult.shown =
            (run.scannedResult plan
              (run.ports.filterMap (run.probeResult plan))).ports.map PortResult.shown := by
        rw [shown_scannedResult, shown_scannedResult, hresults, hdetect]
      unfold HostResult.shown
      rw [hshown]
      unfold scannedResult
      rw [hdiscover]

end CliRun

/-! ### Ports that do not tell the strategies apart -/

/-- A port that both strategies find in the same state: its connect scan does not panic, the SYN
scan and the connection attempts meet the same reactions, and the first of them is an answer or none
of them is. -/
def PortScript.Agrees (s : PortScript) (target : Ipv4Addr) (port : UInt16) (timing : Timing) :
    Prop :=
  ∃ (srcIp : Ipv4Addr) (srcPort : SourcePort) (seq : UInt32) (script : ℕ → Reaction),
    SynReacts target port timing s.syn srcIp srcPort seq (script 0) ∧
      (∀ n, (s.attempts n).ReactsAs (script n)) ∧ s.survives port timing = true ∧
      (script 0 ≠ .silence ∨ ∀ n ≤ timing.maxRetries.toNat, script n = .silence)

/-- At such a port the SYN scan ends with the state the connect scan ends with. -/
theorem PortScript.Agrees.state_eq {s : PortScript} {target : Ipv4Addr} {port : UInt16}
    {timing : Timing} (h : s.Agrees target port timing) :
    ∃ run r, scanBlocking target port timing s.syn = some run ∧ run.result = .ok r ∧
      r.shown = (s.scan port timing).result.shown := by
  obtain ⟨srcIp, srcPort, seq, script, hsyn, hconnect, -, hanswered⟩ := h
  obtain ⟨run, r, hrun, hr, hstate⟩ := scanBlocking_probed hsyn
  have hprobed : probed script 1 = probed script (timing.maxRetries.toNat + 1) :=
    (probed_one_eq_iff script _).2 hanswered
  have hconnected := connectScan_probed port timing hconnect s.started
  have hprobe := scanBlocking_isProbeOf hrun hr
  have hprobe' : (s.scan port timing).result.IsProbeOf port :=
    connectScan_isProbeOf port timing s.attempts s.started
  refine ⟨run, r, hrun, hr, ?_⟩
  have hstate' : r.state = (s.scan port timing).result.state := by
    rw [hstate, hprobed]
    exact hconnected.symm
  unfold PortResult.shown
  rw [hprobe.port_eq, hprobe'.port_eq, hprobe.protocol, hprobe'.protocol, hprobe.service,
    hprobe'.service, hstate']

namespace ScanScript

variable {sc : ScanScript}

/-- At such a port a task ends with a result that shows the same, whichever scan it makes. -/
theorem shown_probeResult {h : HostScript} {port : UInt16}
    (hagree : ∀ target, h.ip = .v4 target → (h.port port).Agrees target port sc.timing)
    (sS : Bool) :
    (CliRun.probeResult { sc with sS := sS }.run ({ sc with sS := sS }.plan h) port).map
        PortResult.shown =
      (sc.run.connectResult (sc.plan h) port).map PortResult.shown := by
  have hconnect : CliRun.connectResult { sc with sS := sS }.run ({ sc with sS := sS }.plan h) port =
      sc.run.connectResult (sc.plan h) port := rfl
  cases hip : h.ip with
  | v6 ip =>
      have hsyn : CliRun.synResult { sc with sS := sS }.run ({ sc with sS := sS }.plan h) port =
          none := by
        have hplan : ({ sc with sS := sS }.plan h).ip = .v6 ip := hip
        unfold CliRun.synResult
        rw [hplan]
        cases sS <;> rfl
      rw [CliRun.probeResult_eq, hsyn, Option.none_or, hconnect]
  | v4 target =>
      obtain ⟨run, r, hrun, hr, hshown⟩ := (hagree target hip).state_eq
      obtain ⟨-, -, -, -, -, -, hsurvives, -⟩ := hagree target hip
      have hresult : sc.run.connectResult (sc.plan h) port =
          some ((h.port port).scan port sc.timing).result := by
        unfold CliRun.connectResult plan
        dsimp only
        rw [if_pos hsurvives]
        rfl
      cases sS with
      | false =>
          have hsyn : CliRun.synResult { sc with sS := false }.run
              ({ sc with sS := false }.plan h) port = none := rfl
          rw [CliRun.probeResult_eq, hsyn, Option.none_or, hconnect]
      | true =>
          have hsS : { sc with sS := true }.run.sS = true := rfl
          have hplan : ({ sc with sS := true }.plan h).ip = .v4 target := hip
          have htask : scanBlocking target port { sc with sS := true }.run.timing
              (({ sc with sS := true }.plan h).task port).syn = some run := hrun
          rw [CliRun.probeResult_of_scan hsS hplan htask hr, hresult, Option.map_some,
            Option.map_some, hshown]

end ScanScript

namespace World

variable (w : World)

/-- No port of a call tells the strategies apart. -/
def StrategiesAgree (p : Prepared) : Prop :=
  ∀ h ∈ (p.script w).hosts, ∀ port ∈ p.portSpec.ports, ∀ target, h.ip = .v4 target →
    (h.port port).Agrees target port p.cli.scanTiming

variable {w}

/-- A host of such a call shows the same with `-sS`. -/
theorem shown_hostResult_withSyn {p : Prepared} (hagree : w.StrategiesAgree p) {h : HostScript}
    (hh : h ∈ (p.script w).hosts) :
    (((p.reflag Cli.withSyn).script w).run.hostResult
        (((p.reflag Cli.withSyn).script w).plan h)).shown =
      ((p.script w).run.hostResult ((p.script w).plan h)).shown := by
  have hplan : ((p.reflag Cli.withSyn).script w).plan h = (p.script w).plan h := rfl
  rw [hplan]
  refine CliRun.shown_hostResult rfl rfl rfl rfl fun port hport => ?_
  have hagree' : ∀ target, h.ip = .v4 target →
      (h.port port).Agrees target port (p.script w).timing := hagree h hh port hport
  exact (ScanScript.shown_probeResult hagree' true).trans
    (ScanScript.shown_probeResult hagree' p.cli.sS).symm

/-- The hosts of such a call show the same with `-sS`. -/
theorem shown_results_withSyn {p : Prepared} (hagree : w.StrategiesAgree p) :
    (w.results (p.reflag Cli.withSyn)).map HostResult.shown =
      (w.results p).map HostResult.shown := by
  unfold results ScanScript.run
  rw [List.map_map, List.map_map, List.map_map, List.map_map]
  exact List.map_congr_left fun h hh => shown_hostResult_withSyn hagree hh

/-- What is printed shows no more of the hosts than what they show. -/
theorem normal_congr (p : Prepared) {hosts hosts' : List HostResult}
    (h : hosts.map HostResult.shown = hosts'.map HostResult.shown) :
    p.normal w hosts = p.normal w hosts' := by
  have hshown : ∀ hosts, p.normal w hosts = p.normal w (hosts.map HostResult.shown) :=
    fun hosts => (renderNormal_shown w.fmt (w.report hosts) p.cli.open).symm
  rw [hshown hosts, h, ← hshown hosts']

/-- Such a call ends as well and has printed a report of the same hosts with `-sS`. -/
theorem scanOutcome_withSyn {w' : World} (hbeside : w.Beside w') {p : Prepared}
    (hagree : w.StrategiesAgree p) (files : ℕ → Option Text) :
    (w.scanOutcome p files).result = (w'.scanOutcome (p.reflag Cli.withSyn) files).result ∧
      Option.Rel (w.SameReport w' p.cli.open (w.results p) .normal) (w.scanOutcome p files).stdout
        (w'.scanOutcome (p.reflag Cli.withSyn) files).stdout := by
  have hfault : (p.reflag Cli.withSyn).cli.pingFault = p.cli.pingFault := rfl
  have hnormal : (p.reflag Cli.withSyn).normal w' (w'.results (p.reflag Cli.withSyn)) =
      render w'.fmt w'.serde (w'.report (w.results p)) .normal p.cli.open := by
    rw [results_of_beside hbeside]
    exact normal_congr (p.reflag Cli.withSyn) (shown_results_withSyn hagree)
  refine ⟨(result_scanOutcome hfault hbeside.printed hbeside.fault rfl files files).symm, ?_⟩
  unfold scanOutcome
  rw [hfault]
  cases p.cli.pingFault with
  | some e => exact .none
  | none =>
      dsimp only
      unfold publish
      rw [hbeside.printed]
      cases w.printed with
      | some text => exact .some (.inl rfl)
      | none => exact .some (.inr ⟨rfl, hnormal⟩)

/-- **A call prints the same with and without `-sS`**, and ends as well, when no port tells the
strategies apart: of two calls in one world of which one has `-sS` both print a normal report of the
same hosts, each with its own arguments and times. -/
theorem strategies_print_alike {w' : World} (hbeside : w.Beside w') {cli : Cli}
    (hcli : w.parsed = some cli) (hcli' : w'.parsed = some cli.withSyn)
    (hpermits : ∀ n ∈ cli.concurrency, n ≤ maxPermits)
    (hagree : ∀ p, w.prepare = .ok p → w.StrategiesAgree p) {files : ℕ → Option Text}
    {s s' : ProgramState} (h : w.Reaches files s) (h' : w'.Reaches files s')
    {result result' : Except Failure Unit} (hend : s.progress = .ended result)
    (hend' : s'.progress = .ended result') :
    result = result' ∧
      ∃ hosts, Option.Rel (w.SameReport w' cli.open hosts .normal) s.stdout s'.stdout := by
  rcases ended_of_beside hbeside hcli hcli' (matches_withSyn hpermits) h h' hend hend' with
    ⟨e, hfails, hfails'⟩ | ⟨p, hp, -, rfl, houtcome, houtcome'⟩
  · refine ⟨(hfails.result _ hend).trans (hfails'.result _ hend').symm, [], ?_⟩
    rw [hfails.stdout, hfails'.stdout]
    exact .none
  · obtain ⟨hresult, hstdout⟩ := scanOutcome_withSyn hbeside (hagree p hp) files
    rw [houtcome, houtcome'] at hresult hstdout
    exact ⟨hresult, w.results p, hstdout⟩

/-- The world of the sample call in which every SYN to its ports is answered. -/
def answeringWorld : World :=
  { sampleWorld with happens := fun i =>
      { sampleWorld.happens i with port := fun port =>
          { (sampleWorld.happens i).port port with
            syn := sampleEnv (roundsOf port .synAck)
            attempts := fun _ => attemptOf .synAck } } }

/-- In it the sample call prints a report of the same hosts with `-sS`. -/
theorem strategies_print_alike_answered :
    ∃ s s' hosts, answeringWorld.Reaches (fun _ => none) s ∧
      (synWorld answeringWorld).Reaches (fun _ => none) s' ∧ Ended s ∧ Ended s' ∧
      Option.Rel (answeringWorld.SameReport (synWorld answeringWorld) true hosts .normal)
        s.stdout s'.stdout := by
  obtain ⟨s, result, hs, hend⟩ := exists_reaches_ended answeringWorld fun _ => none
  obtain ⟨s', result', hs', hend'⟩ := exists_reaches_ended (synWorld answeringWorld) fun _ => none
  have hbeside : answeringWorld.Beside (synWorld answeringWorld) :=
    ⟨rfl, rfl, rfl, rfl, rfl, rfl, rfl, rfl⟩
  have hparsed : answeringWorld.parsed = some sampleCli := rfl
  have hparsed' : (synWorld answeringWorld).parsed = some sampleCli.withSyn := rfl
  have hpermits : ∀ n ∈ sampleCli.concurrency, n ≤ maxPermits := by
    rintro n ⟨⟩
  have hagree : ∀ p, answeringWorld.prepare = .ok p → answeringWorld.StrategiesAgree p := by
    intro p hp
    obtain rfl : samplePrepared = p := Except.ok.inj hp
    intro h hh port _ target hip
    obtain rfl := List.mem_singleton.1 hh
    cases hip
    have hsyn := synReacts_sampleEnv port .synAck
    have hanswer : Reaction.synAck ≠ .silence := by
      intro heq
      cases heq
    exact ⟨_, _, _, fun _ => .synAck, hsyn, fun _ => attemptOf_reactsAs .synAck, rfl, .inl hanswer⟩
  obtain ⟨-, hosts, hstdout⟩ := strategies_print_alike hbeside hparsed hparsed' hpermits hagree hs
    hs' hend hend'
  exact ⟨s, s', hosts, hs, hs', ⟨result, hend⟩, ⟨result', hend'⟩, hstdout⟩

end World

end Rnmap
