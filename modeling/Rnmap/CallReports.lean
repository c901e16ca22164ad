/-
**What calls report.**

Two calls that are made in the same world are compared by their ends.  Each has its own arguments
and its own clock, and every report says with which arguments and when it was made; so what they
have in common, if nothing else differs, are the result, the hosts of their reports and what was
sent, up to the order.  The number of probes a call allows at a time only decides how the tasks of
its ports are scheduled, and its host timeout is never looked at.  A SYN scan that cannot open raw
sockets falls back to connections, and is not to be told from a scan that was never asked for it.

Main definitions:

* `Rnmap.World.Beside` — worlds that differ in the arguments, their parser and the clock only;
* `Rnmap.Cli.Matches`, `Rnmap.Prepared.reflag` — flags that make no difference outside the scan, and
  a call with other flags;
* `Rnmap.World.SameReport`, `Rnmap.World.EndAlike` — texts and ends that differ in the arguments and
  times of reports only;
* `Rnmap.Cli.limit`, `Rnmap.Cli.withSyn` — other limits, and `-sS`;
* `Rnmap.World.NoRawSockets` — raw sockets cannot be opened.

Main results:

* `Rnmap.World.same_end` — when two calls end alike;
* `Rnmap.World.limits_ignored` — **limits have no influence on what a call does**;
* `Rnmap.World.syn_falls_back` — **a SYN scan without raw sockets is a connect scan**.
-/

import Rnmap.OutputFormats

set_option relaxedAutoImplicit false
set_option autoImplicit false

namespace Rnmap

open Runs

/-! ### Calls beside one another -/

/-- The flags of a call, unless its arguments are refused. -/
def World.parsed (w : World) : Option Cli := (rewriteNmapArgs w.args).bind w.parseFrom

/-- A world for another call: its arguments, with their parser, and its clock are its own, and
everything else around it is the same. -/
structure World.Beside (w w' : World) : Prop where
  resolver : w'.resolver = w.resolver
  lookupAddr : w'.lookupAddr = w.lookupAddr
  happens : w'.happens = w.happens
  fmt : w'.fmt = w.fmt
  serde : w'.serde = w.serde
  printed : w'.printed = w.printed
  file : w'.file = w.file
  fault : w'.fault = w.fault

/-- The call with its flags changed. -/
def Prepared.reflag (p : Prepared) (g : Cli → Cli) : Prepared := { p with cli := g p.cli }

/-- Flags that agree on what is done before the scan and on what is written. -/
structure Cli.Matches (cli cli' : Cli) : Prop where
  targets : cli'.targets = cli.targets
  noDns : cli'.noDns = cli.noDns
  ports : cli'.ports = cli.ports
  topPorts : cli'.topPorts = cli.topPorts
  permits : max cli.scanTiming.maxParallel 1 ≤ maxPermits
  permits' : max cli'.scanTiming.maxParallel 1 ≤ maxPermits
  pingFault : cli'.pingFault = cli.pingFault
  open_eq : cli'.open = cli.open
  oN : cli'.oN = cli.oN
  oX : cli'.oX = cli.oX
  oJ : cli'.oJ = cli.oJ
  oA : cli'.oA = cli.oA

theorem Cli.Matches.outputs_eq {cli cli' : Cli} (h : cli.Matches cli') :
    cli'.outputs = cli.outputs := by
  simp only [Cli.outputs, h.oA, h.oN, h.oX, h.oJ]

namespace World

/-- Texts that are the same, or reports of the same hosts in the same format, each with the
arguments and the times of its call. -/
def SameReport (w w' : World) (onlyOpen : Bool) (hosts : List HostResult) (format : OutputFormat)
    (text text' : Text) : Prop :=
  text = text' ∨
    (text = render w.fmt w.serde (w.report hosts) format onlyOpen ∧
      text' = render w'.fmt w'.serde (w'.report hosts) format onlyOpen)

/-- **Calls end alike**: with the same result, after the same has been sent up to the order, and
what they have printed and what each of the files holds is the same, but for the arguments and the
times in reports of the same hosts. -/
structure EndAlike (w w' : World) (onlyOpen : Bool) (s s' : ProgramState) : Prop where
  progress : s.progress = s'.progress
  sent : s.sent.Perm s'.sent
  output : ∃ hosts, Option.Rel (w.SameReport w' onlyOpen hosts .normal) s.stdout s'.stdout ∧
    ∀ f, Option.Rel (fun text text' => ∃ format, w.SameReport w' onlyOpen hosts format text text')
      (s.files f) (s'.files f)

variable {w w' : World} {g : Cli → Cli} {p : Prepared}

theorem prepare_of_parsed {cli : Cli} (h : w.parsed = some cli) : w.prepare = w.accept cli := by
  obtain ⟨rewritten, hrewritten, hparse⟩ := Option.bind_eq_some_iff.1 h
  rw [prepare, hrewritten]
  dsimp only
  rw [hparse]

/-- The flags of a call that is accepted are those that were parsed. -/
theorem parsed_of_prepare (h : w.prepare = .ok p) : w.parsed = some p.cli := by
  unfold prepare at h
  split at h
  · cases h
  · rename_i rewritten hrewritten
    split at h
    · cases h
    · rename_i cli hcli
      rw [(accept_eq_ok h).1, parsed, hrewritten]
      exact hcli

/-- Flags that agree are accepted or refused alike. -/
theorem accept_of_matches (hbeside : w.Beside w') {cli : Cli} (h : cli.Matches (g cli)) :
    w'.accept (g cli) = (w.accept cli).map fun p => p.reflag g := by
  simp only [accept, hbeside.resolver, h.targets, h.noDns, h.ports, h.topPorts,
    if_neg (Nat.not_lt.2 h.permits), if_neg (Nat.not_lt.2 h.permits')]
  by_cases hempty : cli.targets.isEmpty = true
  · rw [if_pos hempty, if_pos hempty]
    rfl
  · rw [if_neg hempty, if_neg hempty]
    cases parseMany w.resolver cli.targets (!cli.noDns) with
    | error e => rfl
    | ok targets =>
        cases portSet cli.ports cli.topPorts with
        | error e => rfl
        | ok ports => rfl

/-- The call beside another is prepared alike. -/
theorem prepare_of_beside (hbeside : w.Beside w') {cli : Cli} (hcli : w.parsed = some cli)
    (hcli' : w'.parsed = some (g cli)) (hm : cli.Matches (g cli)) :
    w'.prepare = w.prepare.map fun p => p.reflag g := by
  rw [prepare_of_parsed hcli, prepare_of_parsed hcli', accept_of_matches hbeside hm]

theorem script_of_beside (hbeside : w.Beside w') (p : Prepared) : p.script w' = p.script w := by
  unfold Prepared.script
  rw [hbeside.lookupAddr, hbeside.happens]

theorem results_of_beside (hbeside : w.Beside w') (p : Prepared) : w'.results p = w.results p := by
  unfold results
  rw [script_of_beside hbeside]

/-- What is sent to the hosts of a call. -/
def allStages (w : World) (p : Prepared) : List (List Contact) :=
  (p.script w).hosts.flatMap (p.script w).stages

/-- What a call has sent at its end: nothing, if it was refused, or all there is to send. -/
theorem sent_of_ended {p : Prepared} (hprepare : w.prepare = .ok p) {files : ℕ → Option Text}
    {s : ProgramState} (h : w.Reaches files s) (hend : Ended s) :
    (p.cli.pingFault ≠ none ∧ s.sent = []) ∨
      (p.cli.pingFault = none ∧ Staged s.sent (w.allStages p)) := by
  have hrefusal : w.refusal = p.cli.pingFault := by rw [refusal, hprepare]
  by_cases hfault : p.cli.pingFault = none
  · obtain ⟨p', hscanned⟩ := scanned_of_ended h hend (hrefusal.trans hfault)
    obtain rfl : p = p' := Except.ok.inj (hprepare.symm.trans hscanned.1)
    exact .inr ⟨hfault, staged_of_scanned hscanned⟩
  · have hrefused := refused_of_refusal (programInv_of_reaches h) (hrefusal ▸ hfault)
    exact .inl ⟨hfault, hrefused.sent⟩

/-- Calls end alike that ping, print and write as well, whatever they print and write. -/
theorem result_scanOutcome {w' : World} {p p' : Prepared}
    (hfault : p'.cli.pingFault = p.cli.pingFault) (hprinted : w'.printed = w.printed)
    (hfaults : w'.fault = w.fault) (hpaths : p'.cli.paths.length = p.cli.paths.length)
    (files files' : ℕ → Option Text) :
    (w'.scanOutcome p' files').result = (w.scanOutcome p files).result := by
  unfold scanOutcome
  rw [hfault]
  cases p.cli.pingFault with
  | some e => rfl
  | none =>
      dsimp only
      unfold publish
      rw [hprinted]
      cases w.printed with
      | some text => rfl
      | none =>
          dsimp only [writeOut]
          rw [hfaults]
          refine congrArg (Except.mapError Failure.ofIo) (Writes.perform_fst_congr w.fault 0 ?_ _ _)
          rw [← Prepared.map_fst_writes w' p' (w'.results p'), List.length_map,
            ← Prepared.map_fst_writes w p (w.results p), List.length_map] at hpaths
          rw [List.length_map, List.length_map]
          exact hpaths

/-- A scan with the same results is published alike. -/
theorem scanOutcome_alike (hbeside : w.Beside w') (hm : p.cli.Matches (g p.cli))
    (hresults : w.results (p.reflag g) = w.results p) (files : ℕ → Option Text) :
    (w.scanOutcome p files).result = (w'.scanOutcome (p.reflag g) files).result ∧
      Option.Rel (w.SameReport w' p.cli.open (w.results p) .normal)
        (w.scanOutcome p files).stdout (w'.scanOutcome (p.reflag g) files).stdout ∧
      Writes.Alike (fun text text' => ∃ format,
          w.SameReport w' p.cli.open (w.results p) format text text')
        (w.scanOutcome p files).files (w'.scanOutcome (p.reflag g) files).files := by
  have hfault : (p.reflag g).cli.pingFault = p.cli.pingFault := hm.pingFault
  have hopen : (p.reflag g).cli.open = p.cli.open := hm.open_eq
  have houtputs : (p.reflag g).cli.outputs = p.cli.outputs := hm.outputs_eq
  have hresults' : w'.results (p.reflag g) = w.results p :=
    (results_of_beside hbeside _).trans hresults
  have hsame : Writes.Alike (fun text text' => ∃ format,
      w.SameReport w' p.cli.open (w.results p) format text text') files files :=
    .refl (fun _ => ⟨.normal, .inl rfl⟩) files
  unfold scanOutcome
  rw [hfault]
  cases p.cli.pingFault with
  | some e => exact ⟨rfl, .none, hsame⟩
  | none =>
      dsimp only
      unfold publish
      rw [hbeside.printed]
      cases w.printed with
      | some text => exact ⟨rfl, .some (.inl rfl), hsame⟩
      | none =>
          have hwanted : List.Forall₂ (fun a b => a.1 = b.1 ∧ ∃ format,
              w.SameReport w' p.cli.open (w.results p) format a.2 b.2)
                (w.wanted p) (w'.wanted (p.reflag g)) := by
            rw [wanted_eq, wanted_eq, houtputs, List.forall₂_map_left_iff,
              List.forall₂_map_right_iff, List.forall₂_same]
            intro output _
            rw [hbeside.file, hresults', hopen]
            exact ⟨rfl, output.2, .inr ⟨rfl, rfl⟩⟩
          obtain ⟨hresult, hfiles⟩ :=
            Writes.perform_alike (fun _ => ⟨.normal, .inl rfl⟩) w.fault 0 hwanted hsame
          dsimp only [writeOut]
          rw [hbeside.fault]
          refine ⟨congrArg (Except.mapError Failure.ofIo) hresult, .some (.inr ⟨rfl, ?_⟩), hfiles⟩
          rw [Prepared.normal, hresults', hopen]
          rfl

/-- What calls have sent at their ends that send the same to the same hosts. -/
theorem sent_perm_of_ended {p p' : Prepared} (hprepare : w.prepare = .ok p)
    (hprepare' : w'.prepare = .ok p') (hfault : p'.cli.pingFault = p.cli.pingFault)
    (hstages : w'.allStages p' = w.allStages p) {files : ℕ → Option Text} {s s' : ProgramState}
    (h : w.Reaches files s) (h' : w'.Reaches files s') (hend : Ended s) (hend' : Ended s') :
    s.sent.Perm s'.sent := by
  have hsent := sent_of_ended hprepare h hend
  have hsent' := sent_of_ended hprepare' h' hend'
  rw [hfault, hstages] at hsent'
  by_cases hnone : p.cli.pingFault = none
  · obtain ⟨-, hstaged⟩ := hsent.resolve_left fun hrefused => hrefused.1 hnone
    obtain ⟨-, hstaged'⟩ := hsent'.resolve_left fun hrefused => hrefused.1 hnone
    exact hstaged.perm.trans hstaged'.perm.symm
  · obtain ⟨-, hnil⟩ := hsent.resolve_right fun hscanned => hnone hscanned.1
    obtain ⟨-, hnil'⟩ := hsent'.resolve_right fun hscanned => hnone hscanned.1
    rw [hnil, hnil']

/-- Calls of which nothing is seen but the same failure end alike. -/
theorem endAlike_of_failsUnseen {files : ℕ → Option Text} {s s' : ProgramState} {e : Failure}
    (hfails : FailsUnseen files s e) (hfails' : FailsUnseen files s' e)
    {result result' : Except Failure Unit} (hs : s.progress = .ended result)
    (hs' : s'.progress = .ended result') (onlyOpen : Bool) : w.EndAlike w' onlyOpen s s' := by
  refine ⟨?_, ?_, [], ?_, ?_⟩
  · rw [hs, hs', hfails.result _ hs, hfails'.result _ hs']
  · rw [hfails.sent, hfails'.sent]
  · rw [hfails.stdout, hfails'.stdout]
    exact .none
  · rw [hfails.files_eq, hfails'.files_eq]
    exact Writes.Alike.refl (fun _ => ⟨.normal, .inl rfl⟩) files

/-- **Calls beside one another are refused alike or scan alike**, when their flags make no
difference outside the scan. -/
theorem ended_of_beside (hbeside : w.Beside w') {cli : Cli} (hcli : w.parsed = some cli)
    (hcli' : w'.parsed = some (g cli)) (hm : cli.Matches (g cli)) {files : ℕ → Option Text}
    {s s' : ProgramState} (h : w.Reaches files s) (h' : w'.Reaches files s')
    {result result' : Except Failure Unit} (hs : s.progress = .ended result)
    (hs' : s'.progress = .ended result') :
    (∃ e, FailsUnseen files s e ∧ FailsUnseen files s' e) ∨
      ∃ p, w.prepare = .ok p ∧ w'.prepare = .ok (p.reflag g) ∧ cli = p.cli ∧
        w.scanOutcome p files = ⟨result, s.stdout, s.files⟩ ∧
        w'.scanOutcome (p.reflag g) files = ⟨result', s'.stdout, s'.files⟩ := by
  have hprepare := prepare_of_beside hbeside hcli hcli' hm
  cases hp : w.prepare with
  | error e =>
      rw [hp] at hprepare
      exact .inl ⟨e, failsUnseen_of_refusal h (by rw [refusal, hp]),
        failsUnseen_of_refusal h' (by rw [refusal, hprepare]; rfl)⟩
  | ok p =>
      rw [hp] at hprepare
      exact .inr ⟨p, rfl, hprepare, Option.some.inj (hcli.symm.trans (parsed_of_prepare hp)),
        scanOutcome_of_ended h hs hp, scanOutcome_of_ended h' hs' hprepare⟩

/-- **When two calls end alike**: when their flags make no difference outside the scan, and the scan
has the same results and sends the same. -/
theorem same_end (hbeside : w.Beside w') {cli : Cli} (hcli : w.parsed = some cli)
    (hcli' : w'.parsed = some (g cli)) (hm : cli.Matches (g cli))
    (hresults : ∀ p, w.prepare = .ok p → w.results (p.reflag g) = w.results p)
    (hstages : ∀ p, w.prepare = .ok p → w.allStages (p.reflag g) = w.allStages p)
    {files : ℕ → Option Text} {s s' : ProgramState} (h : w.Reaches files s)
    (h' : w'.Reaches files s') (hend : Ended s) (hend' : Ended s') :
    w.EndAlike w' cli.open s s' := by
  obtain ⟨result, hs⟩ := hend
  obtain ⟨result', hs'⟩ := hend'
  rcases ended_of_beside hbeside hcli hcli' hm h h' hs hs' with
    ⟨e, hfails, hfails'⟩ | ⟨p, hp, hp', rfl, houtcome, houtcome'⟩
  · exact endAlike_of_failsUnseen hfails hfails' hs hs' cli.open
  · obtain ⟨hresult, hstdout, hfiles⟩ := scanOutcome_alike hbeside hm (hresults p hp) files
    rw [houtcome, houtcome'] at hresult hstdout hfiles
    have hallStages : w'.allStages (p.reflag g) = w.allStages p := by
      rw [← hstages p hp, allStages, allStages, script_of_beside hbeside]
    have hsent : s.sent.Perm s'.sent :=
      sent_perm_of_ended hp hp' hm.pingFault hallStages h h' ⟨_, hs⟩ ⟨_, hs'⟩
    refine ⟨?_, hsent, w.results p, hstdout, hfiles⟩
    rw [hs, hs', show result = result' from hresult]

/-! ### Limits -/

/-- A semaphore has the permits of every template. -/
theorem maxParallel_le (level : UInt8) : (Timing.new level).maxParallel ≤ 1000 := by
  unfold Timing.new
  split_ifs <;> decide

/-- The permits a call asks for. -/
theorem permits_le {cli : Cli} (hc : ∀ n ∈ cli.concurrency, n ≤ maxPermits) :
    max cli.scanTiming.maxParallel 1 ≤ maxPermits := by
  have hone : 1000 ≤ maxPermits := by decide
  have htemplate := maxParallel_le cli.timing
  have hparallel : cli.scanTiming.maxParallel =
      cli.concurrency.getD (Timing.new cli.timing).maxParallel := rfl
  rw [hparallel]
  cases hconcurrency : cli.concurrency with
  | none =>
      rw [Option.getD_none]
      omega
  | some n =>
      have hn := hc n hconcurrency
      rw [Option.getD_some]
      omega

end World

/-- The flags with another `-c` and `--host-timeout`. -/
def Cli.limit (concurrency : Option ℕ) (hostTimeout : Option UInt64) (cli : Cli) : Cli :=
  { cli with concurrency := concurrency, hostTimeout := hostTimeout }

namespace World

variable {w w' : World}

/-- **Limits have no influence on what a call does**: two calls in one world whose flags differ in
`-c` and `--host-timeout` only, however many probes they allow at a time, as long as a semaphore can
count them, end alike under any schedules. -/
theorem limits_ignored (hbeside : w.Beside w') {cli : Cli} (hcli : w.parsed = some cli)
    {c : Option ℕ} {secs : Option UInt64} (hcli' : w'.parsed = some (cli.limit c secs))
    (hpermits : ∀ n ∈ cli.concurrency, n ≤ maxPermits) (hpermits' : ∀ n ∈ c, n ≤ maxPermits)
    {files : ℕ → Option Text} {s s' : ProgramState} (h : w.Reaches files s)
    (h' : w'.Reaches files s') (hend : Ended s) (hend' : Ended s') :
    w.EndAlike w' cli.open s s' := by
  have hm : cli.Matches (cli.limit c secs) :=
    ⟨rfl, rfl, rfl, rfl, permits_le hpermits, permits_le hpermits', rfl, rfl, rfl, rfl, rfl, rfl⟩
  refine same_end hbeside hcli hcli' hm ?_ ?_ h h' hend hend'
  · -- neither the permits nor the host timeout occur in a result
    intro p _
    rfl
  · intro p _
    rfl

/-- The world of the sample call for one with `-c 64 --host-timeout 1` that is made an hour
later. -/
def limitedWorld : World :=
  { sampleWorld with
    args := ["rnmap".toList, "-Pn".toList, "-sV".toList, "-p".toList, "22,80".toList,
      "--open".toList, "-c".toList, "64".toList, "--host-timeout".toList, "1".toList,
      "-oJ".toList, "scan.json".toList, "192.168.0.1".toList]
    parseFrom := fun _ => some (sampleCli.limit (some 64) (some 1))
    startedAt := ⟨3600, 0⟩
    endedAt := ⟨3601, 0⟩ }

/-- Both calls print the normal report of the same hosts. -/
theorem limits_ignored_sample :
    ∃ s s', sampleWorld.Reaches (fun _ => none) s ∧ limitedWorld.Reaches (fun _ => none) s' ∧
      Ended s ∧ Ended s' ∧ sampleWorld.EndAlike limitedWorld true s s' := by
  obtain ⟨s, result, hs, hend⟩ := exists_reaches_ended sampleWorld fun _ => none
  obtain ⟨s', result', hs', hend'⟩ := exists_reaches_ended limitedWorld fun _ => none
  have hbeside : sampleWorld.Beside limitedWorld := ⟨rfl, rfl, rfl, rfl, rfl, rfl, rfl, rfl⟩
  have hparsed : sampleWorld.parsed = some sampleCli := rfl
  have hparsed' : limitedWorld.parsed = some (sampleCli.limit (some 64) (some 1)) := rfl
  have hpermits : ∀ n ∈ sampleCli.concurrency, n ≤ maxPermits := by
    rintro n ⟨⟩
  have hpermits' : ∀ n ∈ some 64, n ≤ maxPermits := by
    rintro n ⟨⟩
    decide
  exact ⟨s, s', hs, hs', ⟨result, hend⟩, ⟨result', hend'⟩, limits_ignored hbeside hparsed hparsed'
    hpermits hpermits' hs hs' ⟨result, hend⟩ ⟨result', hend'⟩⟩

/-! ### SYN scans without raw sockets -/

end World

/-- The flags with `-sS`. -/
def Cli.withSyn (cli : Cli) : Cli := { cli with sS := true }

/-- A SYN scan that gets no raw socket sends nothing and has no result. -/
theorem scanBlocking_of_no_socket {env : SynEnv} {e : IoError} (h : env.socket = .error e)
    (target : Ipv4Addr) (port : UInt16) (timing : Timing) :
    scanBlocking target port timing env = none ∨
      ∃ e', scanBlocking target port timing env = some ⟨.error e', []⟩ := by
  unfold scanBlocking
  cases pickSourceIpv4For env with
  | error e' => exact .inr ⟨e', rfl⟩
  | ok srcIp =>
      cases env.random with
      | none => exact .inl rfl
      | some random =>
          have hsend : ∀ pkt, sendSyn env pkt = .error (socketError "raw TCP socket".toList e) := by
            intro pkt
            rw [sendSyn, h]
            rfl
          refine .inr ⟨socketError "raw TCP socket".toList e, ?_⟩
          simp only [Option.bind_eq_bind, Option.bind_some, hsend]

namespace World

variable {w w' : World}

variable (w) in
/-- Raw sockets cannot be opened, for want of privilege or otherwise. -/
def NoRawSockets : Prop := ∀ i port, ∃ e, ((w.happens i).port port).syn.socket = .error e

/-- `-sS` makes no difference outside the scan. -/
theorem matches_withSyn {cli : Cli} (h : ∀ n ∈ cli.concurrency, n ≤ maxPermits) :
    cli.Matches cli.withSyn :=
  ⟨rfl, rfl, rfl, rfl, permits_le h, permits_le h, rfl, rfl, rfl, rfl, rfl, rfl⟩

/-- The scripts of the hosts of a call are those of its world. -/
theorem port_of_mem_hosts {p : Prepared} {h : HostScript} (hh : h ∈ (p.script w).hosts) :
    ∃ i, h.port = (w.happens i).port := by
  obtain ⟨i, hi, rfl⟩ := List.mem_mapIdx.1 hh
  exact ⟨i, rfl⟩

/-- Without a raw socket a port has the result of its connect scan. -/
theorem probeResult_of_no_socket {run : CliRun} {plan : HostPlan} {port : UInt16} {e : IoError}
    (h : (plan.task port).syn.socket = .error e) :
    run.probeResult plan port = run.connectResult plan port := by
  have hsyn : run.synResult plan port = none := by
    unfold CliRun.synResult
    split
    · rename_i target _ _
      rcases scanBlocking_of_no_socket h target port run.timing with hscan | ⟨e', hscan⟩
      · rw [hscan]
      · rw [hscan]
    · rfl
  rw [CliRun.probeResult_eq, hsyn, Option.none_or]

/-- Without a raw socket the task of a port only connects. -/
theorem toSend_of_no_socket {sc : ScanScript} {h : HostScript} {port : UInt16} {e : IoError}
    (hsocket : (h.port port).syn.socket = .error e) :
    sc.toSend h port (sc.run.firstPhase (sc.plan h)) = sc.connectContacts h port := by
  unfold CliRun.firstPhase
  split
  · split
    · rename_i target hip
      have hip' : h.ip = .v4 target := hip
      have hscan := scanBlocking_of_no_socket hsocket target port sc.timing
      have hsyn : sc.synContacts h port = [] := by
        unfold ScanScript.synContacts
        rw [hip']
        rcases hscan with hscan | ⟨e', hscan⟩
        · simp only [hscan]
        · simp only [hscan, List.map_nil]
      have hafter : sc.run.afterSyn (sc.plan h) port = .connect := by
        have htask : scanBlocking target port sc.run.timing ((sc.plan h).task port).syn =
            scanBlocking target port sc.timing (h.port port).syn := rfl
        unfold CliRun.afterSyn
        rw [hip]
        rcases hscan with hscan | ⟨e', hscan⟩
        · simp only [htask, hscan]
        · simp only [htask, hscan]
      rw [ScanScript.toSend, hsyn, hafter, List.nil_append, ScanScript.fallbackContacts]
      exact fun _ h => nomatch h
    · rfl
  · rfl

/-- A host has the same result with `-sS`. -/
theorem hostResult_withSyn (hraw : w.NoRawSockets) {p : Prepared} {h : HostScript}
    (hh : h ∈ (p.script w).hosts) :
    ((p.reflag Cli.withSyn).script w).run.hostResult
        (((p.reflag Cli.withSyn).script w).plan h) =
      (p.script w).run.hostResult ((p.script w).plan h) := by
  obtain ⟨i, hport⟩ := port_of_mem_hosts hh
  have hprobe : ∀ port,
      ((p.reflag Cli.withSyn).script w).run.probeResult
          (((p.reflag Cli.withSyn).script w).plan h) port =
        (p.script w).run.probeResult ((p.script w).plan h) port := by
    intro port
    obtain ⟨e, he⟩ := hraw i port
    have hsocket : (h.port port).syn.socket = .error e := hport ▸ he
    rw [probeResult_of_no_socket (show ((((p.reflag Cli.withSyn).script w).plan h).task
      port).syn.socket = .error e from hsocket), probeResult_of_no_socket (show (((p.script w).plan
      h).task port).syn.socket = .error e from hsocket)]
    rfl
  unfold CliRun.hostResult
  rw [funext hprobe]
  rfl

/-- A host is sent the same with `-sS`. -/
theorem stages_withSyn (hraw : w.NoRawSockets) {p : Prepared} {h : HostScript}
    (hh : h ∈ (p.script w).hosts) :
    ((p.reflag Cli.withSyn).script w).stages h = (p.script w).stages h := by
  obtain ⟨i, hport⟩ := port_of_mem_hosts hh
  have hsends : ∀ port,
      ((p.reflag Cli.withSyn).script w).toSend h port
          (((p.reflag Cli.withSyn).script w).run.firstPhase
            (((p.reflag Cli.withSyn).script w).plan h)) =
        (p.script w).toSend h port ((p.script w).run.firstPhase ((p.script w).plan h)) := by
    intro port
    obtain ⟨e, he⟩ := hraw i port
    have hsocket : (h.port port).syn.socket = .error e := hport ▸ he
    rw [toSend_of_no_socket hsocket, toSend_of_no_socket hsocket]
    rfl
  have hprobes : ((p.reflag Cli.withSyn).script w).probes h = (p.script w).probes h := by
    unfold ScanScript.probes
    rw [funext hsends]
    rfl
  have hdetection :
      ((p.reflag Cli.withSyn).script w).detection h = (p.script w).detection h := by
    unfold ScanScript.detection
    rw [hostResult_withSyn hraw hh]
    rfl
  unfold ScanScript.stages
  rw [hprobes, hdetection]
  rfl

/-- **A SYN scan without raw sockets is a connect scan**: when no raw socket can be opened, a call
and the same call with `-sS` beside it end alike under any schedules. -/
theorem syn_falls_back (hraw : w.NoRawSockets) (hbeside : w.Beside w') {cli : Cli}
    (hcli : w.parsed = some cli) (hcli' : w'.parsed = some cli.withSyn)
    (hpermits : ∀ n ∈ cli.concurrency, n ≤ maxPermits) {files : ℕ → Option Text}
    {s s' : ProgramState} (h : w.Reaches files s) (h' : w'.Reaches files s') (hend : Ended s)
    (hend' : Ended s') : w.EndAlike w' cli.open s s' := by
  refine same_end hbeside hcli hcli' (matches_withSyn hpermits) ?_ ?_ h h' hend hend'
  · intro p _
    unfold results ScanScript.run
    rw [List.map_map, List.map_map]
    exact List.map_congr_left fun h hh => hostResult_withSyn hraw hh
  · intro p _
    exact List.flatMap_congr fun h hh => stages_withSyn (p := p) hraw hh

/-- The world of the sample call without the privilege to open raw sockets. -/
def unprivilegedWorld : World :=
  { sampleWorld with happens := fun i =>
      { sampleWorld.happens i with port := fun port =>
          { (sampleWorld.happens i).port port with syn :=
              { ((sampleWorld.happens i).port port).syn with
                socket := .error
                  ⟨.other, some 1, "Operation not permitted (os error 1)".toList⟩ } } } }

/-- The world of a call for the same call with `-sS`. -/
def synWorld (w : World) : World :=
  { w with
    args := ["rnmap".toList, "-sS".toList, "-Pn".toList, "-sV".toList, "-p".toList,
      "22,80".toList, "--open".toList, "-oJ".toList, "scan.json".toList, "192.168.0.1".toList]
    parseFrom := fun _ => some sampleCli.withSyn }

/-- In it the sample call ends as it does with `-sS`. -/
theorem syn_falls_back_unprivileged :
    ∃ s s', unprivilegedWorld.Reaches (fun _ => none) s ∧
      (synWorld unprivilegedWorld).Reaches (fun _ => none) s' ∧ Ended s ∧ Ended s' ∧
      unprivilegedWorld.EndAlike (synWorld unprivilegedWorld) true s s' := by
  obtain ⟨s, result, hs, hend⟩ := exists_reaches_ended unprivilegedWorld fun _ => none
  obtain ⟨s', result', hs', hend'⟩ :=
    exists_reaches_ended (synWorld unprivilegedWorld) fun _ => none
  have hraw : unprivilegedWorld.NoRawSockets := fun i port => ⟨_, rfl⟩
  have hbeside : unprivilegedWorld.Beside (synWorld unprivilegedWorld) :=
    ⟨rfl, rfl, rfl, rfl, rfl, rfl, rfl, rfl⟩
  have hparsed : unprivilegedWorld.parsed = some sampleCli := rfl
  have hparsed' : (synWorld unprivilegedWorld).parsed = some sampleCli.withSyn := rfl
  have hpermits : ∀ n ∈ sampleCli.concurrency, n ≤ maxPermits := by
    rintro n ⟨⟩
  exact ⟨s, s', hs, hs', ⟨result, hend⟩, ⟨result', hend'⟩, syn_falls_back hraw hbeside hparsed
    hparsed' hpermits hs hs' ⟨result, hend⟩ ⟨result', hend'⟩⟩

end World

end Rnmap
