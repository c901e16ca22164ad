/-
**Calls in parts.**

A call takes its targets one after the other, and nothing it has found out about one changes what it
does about the next.  So the targets of a call can be divided between two calls with the same flags,
as long as the hosts behave as they would have.  What both accept the whole call accepts; it ends as
they do, reports the hosts of the one and then those of the other, and sends all that the one sends
before what the other sends.

Main definitions:

* `Rnmap.World.PartOf` — the world of a call that has some of the targets only;
* `Rnmap.Prepared.join` — the whole of two calls.

Main results:

* `Rnmap.parseMany_append` — the hosts of targets in two lists;
* `Rnmap.World.prepare_join` — what the parts accept the whole accepts;
* `Rnmap.World.results_join`, `Rnmap.World.allStages_join` — the results and the contacts;
* `Rnmap.World.parts_add_up` — **the parts of a call add up to the call**.
-/

import Rnmap.CallReports

set_option relaxedAutoImplicit false
set_option autoImplicit false

namespace Rnmap

open Runs

/-! ### Targets in two lists -/

/-- **The hosts of targets in two lists** are those of the one list and then those of the other. -/
theorem parseMany_append {env : Resolver} {inputs inputs' : List Text} {resolveDns : Bool}
    {spec spec' : TargetSpec} (h : parseMany env inputs resolveDns = .ok spec)
    (h' : parseMany env inputs' resolveDns = .ok spec') :
    parseMany env (inputs ++ inputs') resolveDns =
      .ok ⟨inputs ++ inputs', spec.addrs ++ spec'.addrs⟩ := by
  obtain ⟨all, hall, hne, rfl⟩ := parseMany_eq_ok_iff.1 h
  obtain ⟨all', hall', -, rfl⟩ := parseMany_eq_ok_iff.1 h'
  refine parseMany_eq_ok_iff.2 ⟨all ++ all', ?_, ?_, ?_⟩
  · rw [List.mapM_append, hall, hall']
    rfl
  · rw [List.flatten_append]
    exact List.append_ne_nil_of_left_ne_nil hne _
  · rw [List.flatten_append]

/-- The flags with other targets. -/
def Cli.aimAt (targets : List Text) (cli : Cli) : Cli := { cli with targets := targets }

/-- The whole of two calls with the flags of the first. -/
def Prepared.join (p p' : Prepared) : Prepared where
  cli := p.cli.aimAt (p.targets.inputs ++ p'.targets.inputs)
  targets := ⟨p.targets.inputs ++ p'.targets.inputs, p.targets.addrs ++ p'.targets.addrs⟩
  portSpec := p.portSpec

namespace World

/-- The world of a call that has these targets only and otherwise the flags of the whole call, whose
host number `first` is its first.  Its times and its files are its own; what goes wrong with its
printing and its writing is what goes wrong with the whole call's. -/
structure PartOf (w : World) (targets : List Text) (first : ℕ) (part : World) : Prop where
  parsed : part.parsed = w.parsed.map (Cli.aimAt targets)
  resolver : part.resolver = w.resolver
  lookupAddr : part.lookupAddr = w.lookupAddr
  happens : ∀ i, part.happens i = w.happens (first + i)
  printed : part.printed = w.printed
  fault : part.fault = w.fault

variable {w part part' : World} {ts ts' : List Text} {first first' : ℕ} {p p' : Prepared}

/-- What is known of a part that is accepted. -/
theorem PartOf.of_prepare (hpart : w.PartOf ts first part) (h : part.prepare = .ok p) :
    ∃ cli, w.parsed = some cli ∧ p.cli = cli.aimAt ts ∧
      parseMany w.resolver ts (!cli.noDns) = .ok p.targets ∧
      portSet cli.ports cli.topPorts = .ok p.portSpec ∧
      max cli.scanTiming.maxParallel 1 ≤ maxPermits := by
  have hparsed := hpart.parsed
  rw [parsed_of_prepare h] at hparsed
  obtain ⟨cli, hcli, hp⟩ := Option.map_eq_some_iff.1 hparsed.symm
  obtain ⟨-, htargets, hports, hpermits⟩ := accept_eq_ok (prepare_eq_ok h)
  rw [← hp] at htargets hports hpermits
  rw [hpart.resolver] at htargets
  exact ⟨cli, hcli, hp.symm, htargets, hports, hpermits⟩

/-- The parts of a call have its flags and its ports. -/
theorem alike_of_parts (hpart : w.PartOf ts first part) (hpart' : w.PartOf ts' first' part')
    (h : part.prepare = .ok p) (h' : part'.prepare = .ok p') :
    p'.cli = p.cli.aimAt ts' ∧ p'.portSpec = p.portSpec := by
  obtain ⟨cli, hcli, hp, -, hports, -⟩ := hpart.of_prepare h
  obtain ⟨cli', hcli', hp', -, hports', -⟩ := hpart'.of_prepare h'
  obtain rfl : cli = cli' := Option.some.inj (hcli.symm.trans hcli')
  refine ⟨?_, Except.ok.inj (hports'.symm.trans hports)⟩
  rw [hp, hp']
  rfl

/-- **What the parts accept the whole accepts.** -/
theorem prepare_join (htargets : ∀ cli, w.parsed = some cli → cli.targets = ts ++ ts')
    (hpart : w.PartOf ts first part) (hpart' : w.PartOf ts' first' part')
    (h : part.prepare = .ok p) (h' : part'.prepare = .ok p') : w.prepare = .ok (p.join p') := by
  obtain ⟨cli, hcli, hp, hfirst, hports, hpermits⟩ := hpart.of_prepare h
  obtain ⟨cli', hcli', -, hrest, -, -⟩ := hpart'.of_prepare h'
  obtain rfl : cli = cli' := Option.some.inj (hcli.symm.trans hcli')
  have hall := htargets cli hcli
  have hinputs : p.targets.inputs ++ p'.targets.inputs = ts ++ ts' := by
    obtain ⟨_, -, -, hspec⟩ := parseMany_eq_ok_iff.1 hfirst
    obtain ⟨_, -, -, hspec'⟩ := parseMany_eq_ok_iff.1 hrest
    rw [hspec, hspec']
  have hjoin : p.join p' = ⟨cli, ⟨ts ++ ts', p.targets.addrs ++ p'.targets.addrs⟩, p.portSpec⟩ := by
    rw [Prepared.join, hinputs, hp, ← hall]
    rfl
  have hne : ¬ cli.targets.isEmpty = true := by
    intro hempty
    have hts : ts = [] := (List.append_eq_nil_iff.1 (hall ▸ List.isEmpty_iff.1 hempty)).1
    rw [hts] at hfirst
    exact parseMany_nil w.resolver _ _ hfirst
  rw [prepare_of_parsed hcli, hjoin, accept, if_neg hne, hall, parseMany_append hfirst hrest,
    hports]
  exact if_neg (Nat.not_lt.2 hpermits)

/-! ### The scan of the whole -/

/-- The hosts of the whole are those of the parts. -/
theorem hosts_join (hpart : w.PartOf ts 0 part)
    (hpart' : w.PartOf ts' p.targets.addrs.length part') (p' : Prepared) :
    ((p.join p').script w).hosts = (p.script part).hosts ++ (p'.script part').hosts := by
  have hrest : ∀ i, part'.happens i = w.happens (i + p.targets.addrs.length) := by
    intro i
    rw [hpart'.happens, Nat.add_comm]
  unfold Prepared.script Prepared.join
  simp only [List.mapIdx_append, hpart.happens, Nat.zero_add, hrest, hpart.lookupAddr,
    hpart'.lookupAddr]

/-- **The whole reports what the parts report.** -/
theorem results_join (hpart : w.PartOf ts 0 part)
    (hpart' : w.PartOf ts' p.targets.addrs.length part') (h : part.prepare = .ok p)
    (h' : part'.prepare = .ok p') : w.results (p.join p') = part.results p ++ part'.results p' := by
  obtain ⟨hcli, hports⟩ := alike_of_parts hpart hpart' h h'
  obtain ⟨cli', targets', portSpec'⟩ := p'
  obtain rfl : cli' = p.cli.aimAt ts' := hcli
  obtain rfl : portSpec' = p.portSpec := hports
  unfold results ScanScript.run
  rw [List.map_map, List.map_map, List.map_map, hosts_join hpart hpart', List.map_append]
  rfl

/-- **The whole sends what the parts send**, stage after stage. -/
theorem allStages_join (hpart : w.PartOf ts 0 part)
    (hpart' : w.PartOf ts' p.targets.addrs.length part') (h : part.prepare = .ok p)
    (h' : part'.prepare = .ok p') :
    w.allStages (p.join p') = part.allStages p ++ part'.allStages p' := by
  obtain ⟨hcli, hports⟩ := alike_of_parts hpart hpart' h h'
  obtain ⟨cli', targets', portSpec'⟩ := p'
  obtain rfl : cli' = p.cli.aimAt ts' := hcli
  obtain rfl : portSpec' = p.portSpec := hports
  unfold allStages
  rw [hosts_join hpart hpart', List.flatMap_append]
  rfl

/-! ### The parts of a call -/

/-- A call that has ended ends with what its outcome says. -/
theorem result_of_ended {files : ℕ → Option Text} {s : ProgramState} (h : w.Reaches files s)
    {r : Except Failure Unit} (hend : s.progress = .ended r) (hprepare : w.prepare = .ok p) :
    (w.scanOutcome p files).result = r :=
  congrArg Outcome.result (scanOutcome_of_ended h hend hprepare)

/-- The call has sent what the parts have sent, one after the other. -/
theorem sent_join (hjoin : w.prepare = .ok (p.join p')) (hpart : w.PartOf ts 0 part)
    (hprepare : part.prepare = .ok p) (hpart' : w.PartOf ts' p.targets.addrs.length part')
    (hprepare' : part'.prepare = .ok p') {files files₁ files₂ : ℕ → Option Text}
    {s s₁ s₂ : ProgramState} (h : w.Reaches files s) (h₁ : part.Reaches files₁ s₁)
    (h₂ : part'.Reaches files₂ s₂) (hend : Ended s) (hend₁ : Ended s₁) (hend₂ : Ended s₂) :
    ∃ sent sent', s.sent = sent ++ sent' ∧ sent.Perm s₁.sent ∧ sent'.Perm s₂.sent := by
  obtain ⟨hcli, -⟩ := alike_of_parts hpart hpart' hprepare hprepare'
  have hfault : (p.join p').cli.pingFault = p.cli.pingFault := rfl
  have hfault' : p'.cli.pingFault = p.cli.pingFault := by
    rw [hcli]
    rfl
  have hsent := sent_of_ended hjoin h hend
  have hsent₁ := sent_of_ended hprepare h₁ hend₁
  have hsent₂ := sent_of_ended hprepare' h₂ hend₂
  rw [hfault] at hsent
  rw [hfault'] at hsent₂
  by_cases hnone : p.cli.pingFault = none
  · obtain ⟨-, hstaged⟩ := hsent.resolve_left fun hrefused => hrefused.1 hnone
    obtain ⟨-, hstaged₁⟩ := hsent₁.resolve_left fun hrefused => hrefused.1 hnone
    obtain ⟨-, hstaged₂⟩ := hsent₂.resolve_left fun hrefused => hrefused.1 hnone
    rw [allStages_join hpart hpart' hprepare hprepare'] at hstaged
    obtain ⟨sent, sent', heq, hfirst, hrest⟩ := staged_append_iff.1 hstaged
    exact ⟨sent, sent', heq, hfirst.perm.trans hstaged₁.perm.symm,
      hrest.perm.trans hstaged₂.perm.symm⟩
  · obtain ⟨-, hnil⟩ := hsent.resolve_right fun hscanned => hnone hscanned.1
    obtain ⟨-, hnil₁⟩ := hsent₁.resolve_right fun hscanned => hnone hscanned.1
    obtain ⟨-, hnil₂⟩ := hsent₂.resolve_right fun hscanned => hnone hscanned.1
    exact ⟨[], [], hnil, hnil₁ ▸ List.Perm.refl [], hnil₂ ▸ List.Perm.refl []⟩

/-- **The parts of a call add up to the call**, under any schedules: what two calls with its flags
accept, between which its targets are divided in their order, it accepts as a whole.  When standard
output and the files fail them as they fail the call, they end as it does; the call has sent first
what the one has sent, up to the order, and then what the other has sent; and when they end well it
has printed a report of the hosts of the one and then those of the other. -/
theorem parts_add_up (htargets : ∀ cli, w.parsed = some cli → cli.targets = ts ++ ts')
    (hpart : w.PartOf ts 0 part) (hprepare : part.prepare = .ok p)
    (hpart' : w.PartOf ts' p.targets.addrs.length part') (hprepare' : part'.prepare = .ok p')
    {files files₁ files₂ : ℕ → Option Text} {s s₁ s₂ : ProgramState} (h : w.Reaches files s)
    (h₁ : part.Reaches files₁ s₁) (h₂ : part'.Reaches files₂ s₂) {r r₁ r₂ : Except Failure Unit}
    (hend : s.progress = .ended r) (hend₁ : s₁.progress = .ended r₁)
    (hend₂ : s₂.progress = .ended r₂) :
    w.prepare = .ok (p.join p') ∧ r₁ = r ∧ r₂ = r ∧
    (∃ sent sent', s.sent = sent ++ sent' ∧ sent.Perm s₁.sent ∧ sent'.Perm s₂.sent) ∧
    (r = .ok () → ∃ hosts hosts',
      s.stdout = some (renderNormal w.fmt (w.report (hosts ++ hosts')) p.cli.open) ∧
      s₁.stdout = some (renderNormal part.fmt (part.report hosts) p.cli.open) ∧
      s₂.stdout = some (renderNormal part'.fmt (part'.report hosts') p.cli.open)) := by
  have hjoin := prepare_join htargets hpart hpart' hprepare hprepare'
  obtain ⟨hcli, -⟩ := alike_of_parts hpart hpart' hprepare hprepare'
  have hfault : (p.join p').cli.pingFault = p.cli.pingFault := rfl
  have hfault' : p'.cli.pingFault = p.cli.pingFault := by
    rw [hcli]
    rfl
  have hpaths : p.cli.paths = (p.join p').cli.paths := rfl
  have hpaths' : p'.cli.paths = p.cli.paths := by
    rw [hcli]
    rfl
  have hresult := result_of_ended h hend hjoin
  have hresult₁ : r₁ = r := by
    rw [← hresult, ← result_of_ended h₁ hend₁ hprepare]
    exact result_scanOutcome hfault.symm hpart.printed hpart.fault (congrArg List.length hpaths)
      files files₁
  have hresult₂ : r₂ = r := by
    rw [← hresult, ← result_of_ended h₂ hend₂ hprepare']
    exact result_scanOutcome (hfault'.trans hfault.symm) hpart'.printed hpart'.fault
      (congrArg List.length (hpaths'.trans hpaths)) files files₂
  refine ⟨hjoin, hresult₁, hresult₂, ?_, ?_⟩
  · exact sent_join hjoin hpart hprepare hpart' hprepare' h h₁ h₂ ⟨_, hend⟩ ⟨_, hend₁⟩ ⟨_, hend₂⟩
  · intro hok
    obtain ⟨hstdout, -⟩ := written_of_prepare hjoin h (hok ▸ hend)
    obtain ⟨hstdout₁, -⟩ := written_of_prepare hprepare h₁ (hok ▸ hresult₁ ▸ hend₁)
    obtain ⟨hstdout₂, -⟩ := written_of_prepare hprepare' h₂ (hok ▸ hresult₂ ▸ hend₂)
    have hopen' : p'.cli.open = p.cli.open := by
      rw [hcli]
      rfl
    rw [results_join hpart hpart' hprepare hprepare'] at hstdout
    refine ⟨_, _, hstdout, hstdout₁, ?_⟩
    rw [hstdout₂, Prepared.normal, hopen']

/-! ### Two hosts -/

/-- The world of the sample call with other targets. -/
def aimedWorld (targets : List Text) : World :=
  { sampleWorld with
    args := ["rnmap".toList, "-Pn".toList, "-sV".toList, "-p".toList, "22,80".toList,
      "--open".toList, "-oJ".toList, "scan.json".toList] ++ targets
    parseFrom := fun _ => some (sampleCli.aimAt targets) }

/-- The call with one of two targets is a part of the call with both. -/
theorem partOf_aimedWorld (targets : List Text) (first : ℕ)
    (h : (rewriteNmapArgs (aimedWorld targets).args).isSome = true) :
    (aimedWorld ["192.168.0.1".toList, "192.168.0.2".toList]).PartOf targets first
      (aimedWorld targets) := by
  obtain ⟨rewritten, hrewritten⟩ := Option.isSome_iff_exists.1 h
  have hparsed : (aimedWorld targets).parsed = some (sampleCli.aimAt targets) := by
    rw [parsed, hrewritten]
    rfl
  have hwhole : (aimedWorld ["192.168.0.1".toList, "192.168.0.2".toList]).parsed =
      some (sampleCli.aimAt ["192.168.0.1".toList, "192.168.0.2".toList]) := rfl
  exact ⟨by rw [hparsed, hwhole]; rfl, rfl, rfl, fun _ => rfl, rfl, rfl⟩

/-- Two calls for a host each, and the call for both. -/
theorem parts_add_up_sample :
    ∃ s s₁ s₂ hosts hosts',
      (aimedWorld ["192.168.0.1".toList, "192.168.0.2".toList]).Reaches (fun _ => none) s ∧
      (aimedWorld ["192.168.0.1".toList]).Reaches (fun _ => none) s₁ ∧
      (aimedWorld ["192.168.0.2".toList]).Reaches (fun _ => none) s₂ ∧
      s.stdout = some (renderNormal epochFormats ((aimedWorld ["192.168.0.1".toList,
        "192.168.0.2".toList]).report (hosts ++ hosts')) true) ∧
      s₁.stdout = some (renderNormal epochFormats
        ((aimedWorld ["192.168.0.1".toList]).report hosts) true) ∧
      s₂.stdout = some (renderNormal epochFormats
        ((aimedWorld ["192.168.0.2".toList]).report hosts') true) := by
  let whole := aimedWorld ["192.168.0.1".toList, "192.168.0.2".toList]
  let one := aimedWorld ["192.168.0.1".toList]
  let other := aimedWorld ["192.168.0.2".toList]
  obtain ⟨s, r, hs, hend⟩ := exists_reaches_ended whole fun _ => none
  obtain ⟨s₁, r₁, hs₁, hend₁⟩ := exists_reaches_ended one fun _ => none
  obtain ⟨s₂, r₂, hs₂, hend₂⟩ := exists_reaches_ended other fun _ => none
  obtain rfl : r = .ok () := (congrArg Outcome.result (outcome_of_ended hs hend)).symm
  have htargets : ∀ cli, whole.parsed = some cli →
      cli.targets = ["192.168.0.1".toList] ++ ["192.168.0.2".toList] := by
    rintro cli ⟨⟩
    rfl
  have hprepare : one.prepare = .ok
      ⟨sampleCli.aimAt ["192.168.0.1".toList], ⟨["192.168.0.1".toList],
        [⟨"192.168.0.1".toList, .v4 ⟨192, 168, 0, 1⟩⟩]⟩, ⟨[22, 80]⟩⟩ := rfl
  have hprepare' : other.prepare = .ok
      ⟨sampleCli.aimAt ["192.168.0.2".toList], ⟨["192.168.0.2".toList],
        [⟨"192.168.0.2".toList, .v4 ⟨192, 168, 0, 2⟩⟩]⟩, ⟨[22, 80]⟩⟩ := rfl
  obtain ⟨-, -, -, -, hprinted⟩ := parts_add_up htargets (partOf_aimedWorld _ 0 rfl) hprepare
    (partOf_aimedWorld _ _ rfl) hprepare' hs hs₁ hs₂ hend hend₁ hend₂
  obtain ⟨hosts, hosts', hstdout, hstdout₁, hstdout₂⟩ := hprinted rfl
  exact ⟨s, s₁, s₂, hosts, hosts', hs, hs₁, hs₂, hstdout, hstdout₁, hstdout₂⟩

end World

end Rnmap
