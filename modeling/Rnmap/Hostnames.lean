/-
**Hostnames and reverse lookups.**

The name of a host in a report is what the user called it, or else what a reverse lookup finds.
The flag `-n` is read when the targets are parsed and nowhere else, so that it does not keep a
reverse lookup from being made.

Main definitions:

* `Rnmap.hostnameFor` — the name of a host;
* `Rnmap.CliCall`, `Rnmap.CliCall.run` — a call of the command line, and the run it makes;
* `Rnmap.CliCall.IgnoresReverseDns` — the reverse lookups have no influence on the names reported.

Main results:

* `Rnmap.hostnames_of_finished` — the names a run reports;
* `Rnmap.CliCall.no_dns_iff` — **when a call with `-n` ignores reverse lookups**.
-/

import Rnmap.Targets
import Rnmap.HostLoop

set_option relaxedAutoImplicit false
set_option autoImplicit false

namespace Rnmap

open Runs

/-! ### The name of a host -/

/-- `hostname_for`, when `lookupAddr` is what `dns_lookup::lookup_addr` answers. -/
def hostnameFor (lookupAddr : IpAddr → Option Text) (label : Text) (ip : IpAddr) : Option Text :=
  if label ≠ ip.display then some label
  else if ip = .v4 .localhost then some "localhost".toList
  else lookupAddr ip

/-- The host is named without a lookup. -/
def ResolvedHost.NamedLocally (r : ResolvedHost) : Prop :=
  r.ip = .v4 .localhost ∨ r.label ≠ r.ip.display

theorem hostnameFor_of_namedLocally {r : ResolvedHost} (h : r.NamedLocally)
    (lookup₁ lookup₂ : IpAddr → Option Text) :
    hostnameFor lookup₁ r.label r.ip = hostnameFor lookup₂ r.label r.ip := by
  unfold hostnameFor
  split_ifs with hlabel hlocal
  · rfl
  · rfl
  · exact absurd h (not_or.2 ⟨hlocal, hlabel⟩)

theorem hostnameFor_of_not_namedLocally {r : ResolvedHost} (h : ¬ r.NamedLocally)
    (lookupAddr : IpAddr → Option Text) :
    hostnameFor lookupAddr r.label r.ip = lookupAddr r.ip := by
  obtain ⟨hlocal, hlabel⟩ := not_or.1 h
  rw [hostnameFor, if_neg hlabel, if_neg hlocal]

/-! ### The run of a call -/

/-- A call of the command line. -/
structure CliCall where
  targets : List Text
  /-- Disable reverse DNS lookup. -/
  noDns : Bool
  pn : Bool
  pe : Bool
  sS : Bool
  sV : Bool
  ports : List UInt16
  timing : Timing

namespace CliCall

/-- The run of a call, if its targets can be parsed: `happens i` says what happens when its `i`th
host is scanned, and `lookupAddr` answers the reverse lookups. -/
def run (call : CliCall) (env : Resolver) (lookupAddr : IpAddr → Option Text)
    (happens : ℕ → HostPlan) : Option CliRun :=
  if call.targets.isEmpty then none
  else
    match parseMany env call.targets (!call.noDns) with
    | .error _ => none
    | .ok spec => some {
        pn := call.pn
        pe := call.pe
        sS := call.sS
        sV := call.sV
        ports := call.ports
        timing := call.timing
        hosts := spec.addrs.mapIdx fun i r =>
          { happens i with ip := r.ip, hostname := hostnameFor lookupAddr r.label r.ip } }

/-- **The reverse lookups have no influence on the names reported**: in any two environments the
finished runs of a call report the same names. -/
def IgnoresReverseDns (call : CliCall) (env : Resolver) (happens : ℕ → HostPlan) : Prop :=
  ∀ lookup₁ lookup₂ run₁ run₂ s₁ s₂,
    call.run env lookup₁ happens = some run₁ → call.run env lookup₂ happens = some run₂ →
    run₁.LoopReachable s₁ → s₁.Finished → run₂.LoopReachable s₂ → s₂.Finished →
    s₁.hosts.map HostResult.hostname = s₂.hosts.map HostResult.hostname

end CliCall

/-! ### The names a run reports -/

/-- A host is reported under its name, whether it is scanned or not. -/
theorem hostname_hostResult (run : CliRun) (plan : HostPlan) :
    (run.hostResult plan).hostname = plan.hostname := by
  unfold CliRun.hostResult
  split_ifs
  · rfl
  · rfl

/-- And at its address. -/
theorem address_hostResult (run : CliRun) (plan : HostPlan) :
    (run.hostResult plan).address = plan.ip := by
  unfold CliRun.hostResult
  split_ifs
  · rfl
  · rfl

theorem hostnames_of_finished {run : CliRun} {s : LoopState} (h : run.LoopReachable s)
    (hfin : s.Finished) :
    s.hosts.map HostResult.hostname = run.hosts.map HostPlan.hostname := by
  rw [CliRun.hosts_of_finished h hfin, List.map_map]
  exact List.map_congr_left fun plan _ => hostname_hostResult run plan

namespace CliCall

variable {call : CliCall} {env : Resolver} {happens : ℕ → HostPlan}

/-- The names of the hosts of a call's run. -/
theorem hostnames_of_run {lookupAddr : IpAddr → Option Text} {run : CliRun}
    (h : call.run env lookupAddr happens = some run) :
    ∃ spec, parseMany env call.targets (!call.noDns) = .ok spec ∧
      run.hosts.map HostPlan.hostname =
        spec.addrs.map fun r => hostnameFor lookupAddr r.label r.ip := by
  unfold CliCall.run at h
  split_ifs at h
  cases hspec : parseMany env call.targets (!call.noDns) with
  | error e =>
      rw [hspec] at h
      cases h
  | ok spec =>
      simp only [hspec, Option.some.injEq] at h
      subst h
      refine ⟨spec, rfl, List.ext_getElem (by simp) fun i _ _ => ?_⟩
      simp only [List.getElem_map, List.getElem_mapIdx]

/-- A call whose targets can be parsed has a run. -/
theorem exists_run {spec : TargetSpec}
    (hspec : parseMany env call.targets (!call.noDns) = .ok spec) (happens : ℕ → HostPlan)
    (lookupAddr : IpAddr → Option Text) :
    ∃ run, call.run env lookupAddr happens = some run := by
  unfold CliCall.run
  split_ifs with hempty
  · rw [List.isEmpty_iff.1 hempty] at hspec
    exact absurd hspec (parseMany_nil env _ spec)
  · rw [hspec]
    exact ⟨_, rfl⟩

/-- The finished runs of a call report the names of its hosts, and there are such runs. -/
theorem exists_finished_run {spec : TargetSpec}
    (hspec : parseMany env call.targets (!call.noDns) = .ok spec) (happens : ℕ → HostPlan)
    (lookupAddr : IpAddr → Option Text) :
    ∃ run s, call.run env lookupAddr happens = some run ∧ run.LoopReachable s ∧ s.Finished ∧
      s.hosts.map HostResult.hostname =
        spec.addrs.map fun r => hostnameFor lookupAddr r.label r.ip := by
  obtain ⟨run, hrun⟩ := exists_run hspec happens lookupAddr
  have hstart : run.LoopReachable run.start := Reachable.init
  obtain ⟨s, hs, hfin⟩ := CliRun.exists_finished_of_reachable hstart
  obtain ⟨spec', hspec', hnames⟩ := hostnames_of_run hrun
  obtain rfl := Except.ok.inj (hspec.symm.trans hspec')
  exact ⟨run, s, hrun, hs, hfin, by rw [hostnames_of_finished hs hfin, hnames]⟩

/-- A call ignores reverse lookups exactly when it makes none that matters. -/
theorem ignoresReverseDns_iff (call : CliCall) (env : Resolver) (happens : ℕ → HostPlan) :
    call.IgnoresReverseDns env happens ↔
      ∀ spec, parseMany env call.targets (!call.noDns) = .ok spec →
        ∀ r ∈ spec.addrs, r.NamedLocally := by
  constructor
  · intro hignores spec hspec r hr
    by_contra hlookup
    -- one environment knows a name for every address and the other knows none
    obtain ⟨run₁, s₁, hrun₁, hs₁, hfin₁, hnames₁⟩ :=
      exists_finished_run hspec happens fun _ => some []
    obtain ⟨run₂, s₂, hrun₂, hs₂, hfin₂, hnames₂⟩ :=
      exists_finished_run hspec happens fun _ => none
    have hsame := hignores _ _ run₁ run₂ s₁ s₂ hrun₁ hrun₂ hs₁ hfin₁ hs₂ hfin₂
    rw [hnames₁, hnames₂, List.map_inj_left] at hsame
    have hr' := hsame r hr
    rw [hostnameFor_of_not_namedLocally hlookup, hostnameFor_of_not_namedLocally hlookup] at hr'
    cases hr'
  · intro hlocal lookup₁ lookup₂ run₁ run₂ s₁ s₂ hrun₁ hrun₂ hs₁ hfin₁ hs₂ hfin₂
    obtain ⟨spec, hspec, hnames₁⟩ := hostnames_of_run hrun₁
    obtain ⟨spec', hspec', hnames₂⟩ := hostnames_of_run hrun₂
    obtain rfl := Except.ok.inj (hspec.symm.trans hspec')
    rw [hostnames_of_finished hs₁ hfin₁, hostnames_of_finished hs₂ hfin₂, hnames₁, hnames₂]
    exact List.map_congr_left fun r hr =>
      hostnameFor_of_namedLocally (hlocal spec hspec r hr) lookup₁ lookup₂

/-- **When a call with `-n` ignores reverse lookups**: when each of its addresses is `127.0.0.1` or
was written in another way than it is printed. -/
theorem no_dns_iff (call : CliCall) (env : Resolver) (happens : ℕ → HostPlan) :
    ({ call with noDns := true } : CliCall).IgnoresReverseDns env happens ↔
      ∀ spec, parseMany env call.targets false = .ok spec → ∀ r ∈ spec.addrs, r.NamedLocally :=
  ignoresReverseDns_iff { call with noDns := true } env happens

/-- `rnmap -n -Pn 8.8.8.8`. -/
def noDnsCall : CliCall where
  targets := ["8.8.8.8".toList]
  noDns := true
  pn := true
  pe := false
  sS := false
  sV := false
  ports := [53]
  timing := Timing.new 3

/-- A resolver that knows no name. -/
def noNames : Resolver where
  netHosts := fun _ => .error "invalid IP address syntax".toList
  ipv4Network := fun _ => none
  lookupHost := fun _ => .error "failed to lookup address information".toList

/-- What happens when its host is scanned. -/
def noDnsHappens : ℕ → HostPlan :=
  fun _ => CliRun.sampleRun.hosts.head (List.cons_ne_nil _ _)

/-- The name a reverse lookup finds is reported in spite of `-n`. -/
theorem no_dns_looks_up : ¬ noDnsCall.IgnoresReverseDns noNames noDnsHappens := by
  intro hignores
  have hlocal := (ignoresReverseDns_iff _ _ _).1 hignores
    ⟨noDnsCall.targets, [⟨"8.8.8.8".toList, .v4 ⟨8, 8, 8, 8⟩⟩]⟩ rfl _
    List.mem_cons_self
  rcases hlocal with hip | hlabel
  · cases hip
  · exact hlabel (by decide)

end CliCall

end Rnmap
