/-
**What a SYN scan reports is what listens.**

The handshake of a probe with its port is made over a network that loses, repeats and reorders
datagrams, beside those of all other ports of the host; the call around it spawns its tasks,
schedules them in any order, sorts, detects and prints.  Put together, what a call with `-sS` prints
can be relied on in one direction: a port it reports as open listens, and one it reports as closed
does not.  Only of a filtered port nothing is known.

Main definitions:

* `Rnmap.HostNetwork` — the probes of a host and the ports they meet, in a state of one of their
  runs;
* `Rnmap.HostNetwork.Carries`, `Rnmap.World.Networked` — scans that are carried by such a run.

Main results:

* `Rnmap.HostNetwork.inv` — the invariant of each of the handshakes;
* `Rnmap.HostNetwork.Carries.state_tells` — what the result of a port tells of it;
* `Rnmap.World.open_ports_listen` — **the ports a call reports as open listen**.
-/

import Rnmap.CallReports
import Rnmap.HandshakesAtOnce

set_option relaxedAutoImplicit false
set_option autoImplicit false

namespace Rnmap

open Runs

/-! ### The network of a host -/

/-- A port before it is probed. -/
def portOf (listens : Bool) : Tcp.Conn := if listens then .listen else .closed

theorem portOf_cases (listens : Bool) : portOf listens = .closed ∨ portOf listens = .listen := by
  cases listens with
  | true => exact .inr rfl
  | false => exact .inl rfl

theorem listening_portOf (listens : Bool) : (portOf listens).listening = listens := by
  cases listens with
  | true => rfl
  | false => rfl

/-- The probes of the ports of a host, of which some listen, in a state of one of their runs. -/
structure HostNetwork (target : Ipv4Addr) (listens : UInt16 → Bool) where
  probe : UInt16 → Exchange
  state : UInt16 → Exchange.State
  target_eq : ∀ port, (probe port).p.target = target
  port_eq : ∀ port, (probe port).p.port = port
  reaches : Reachable (Exchange.AtOnce probe) (fun port => .start (portOf (listens port))) state

namespace HostNetwork

variable {target : Ipv4Addr} {listens : UInt16 → Bool} (n : HostNetwork target listens)

/-- The probes are of different ports. -/
theorem apart : Exchange.Apart n.probe := by
  intro i j hij
  refine .inr ?_
  rw [n.port_eq i, n.port_eq j]
  exact hij

/-- **Each of the handshakes keeps the invariant of a single one.** -/
theorem inv (port : UInt16) : (n.probe port).Inv (listens port) (n.state port) := by
  have hreaches := Exchange.reaches_component n.apart n.reaches port
  have hinv := Exchange.inv_of_reaches (portOf_cases (listens port)) hreaches
  rwa [listening_portOf] at hinv

/-- A state that is reported of a port tells whether it listens. -/
theorem state_tells (port : UInt16) :
    ((n.state port).client.state = .open → listens port = true) ∧
      ((n.state port).client.state = .closed → listens port = false) := by
  have hinv := n.inv port
  rw [← listening_portOf (listens port)] at hinv
  obtain ⟨hopen, hclosed⟩ := hinv.state_tells (portOf_cases (listens port))
  constructor
  · intro hstate
    rw [← listening_portOf (listens port), hopen hstate]
    rfl
  · intro hstate
    rw [← listening_portOf (listens port), hclosed hstate]
    rfl

/-- The run carries the SYN scans of these ports. -/
def Carries (timing : Timing) (ports : List UInt16) (env : UInt16 → SynEnv) : Prop :=
  ∀ port ∈ ports, ∃ srcPort, (n.probe port).Follows (n.state port) timing (env port) srcPort

variable {n}

/-- **The result of a SYN scan tells whether its port listens.** -/
theorem Carries.state_tells {timing : Timing} {ports : List UInt16} {env : UInt16 → SynEnv}
    (h : n.Carries timing ports env) {port : UInt16} (hport : port ∈ ports) :
    ∃ scan r, scanBlocking target port timing (env port) = some scan ∧ scan.result = .ok r ∧
      (r.state = .open → listens port = true) ∧ (r.state = .closed → listens port = false) := by
  obtain ⟨srcPort, hfollows⟩ := h port hport
  obtain ⟨scan, r, hscan, hr, -, hstate⟩ := hfollows.scanBlocking_eq (n.inv port)
  rw [n.target_eq, n.port_eq] at hscan
  exact ⟨scan, r, hscan, hr, hstate ▸ n.state_tells port⟩

end HostNetwork

/-! ### The results of a call -/

namespace World

variable (w : World)

/-- The SYN scans of each of the hosts of a call are carried by a network in which these ports of
the host listen. -/
def Networked (p : Prepared) (listens : IpAddr → UInt16 → Bool) : Prop :=
  ∀ h ∈ (p.script w).hosts, ∀ target, h.ip = .v4 target →
    ∃ n : HostNetwork target (listens h.ip),
      n.Carries p.cli.scanTiming p.portSpec.ports fun port => (h.port port).syn

variable {w}

/-- The ports of a host tell which of them listen. -/
theorem Networked.ports_tell {p : Prepared} {listens : IpAddr → UInt16 → Bool}
    (hnet : w.Networked p listens) (hsS : p.cli.sS = true) {h : HostScript}
    (hh : h ∈ (p.script w).hosts) {target : Ipv4Addr} (hip : h.ip = .v4 target) {r : PortResult}
    (hr : r ∈ ((p.script w).run.hostResult ((p.script w).plan h)).ports) :
    (r.state = .open → listens h.ip r.port = true) ∧
      (r.state = .closed → listens h.ip r.port = false) := by
  obtain ⟨probed, hport, hresult, hdetect⟩ := CliRun.exists_probed hr
  obtain ⟨n, hn⟩ := hnet h hh target hip
  obtain ⟨scan, scanned, hscan, hok, htells⟩ := hn.state_tells hport
  have hscanned : (p.script w).run.probeResult ((p.script w).plan h) r.port = some scanned :=
    CliRun.probeResult_of_scan hsS hip hscan hok
  obtain rfl : scanned = probed := Option.some.inj (hscanned.symm.trans hresult)
  have hstate : r.state = scanned.state := by
    rw [← hdetect, CliRun.state_detectOn]
  rw [hstate]
  exact htells

/-- **The ports a call reports as open listen**, and those it reports as closed do not: of every
host with an IPv4 address in the report a call with `-sS` prints, whatever its network loses,
repeats or reorders and however its tasks are scheduled. -/
theorem open_ports_listen {p : Prepared} (hprepare : w.prepare = .ok p) (hsS : p.cli.sS = true)
    {listens : IpAddr → UInt16 → Bool} (hnet : w.Networked p listens) {files : ℕ → Option Text}
    {s : ProgramState} (h : w.Reaches files s) (hend : s.progress = .ended (.ok ())) :
    ∃ hosts, s.stdout = some (p.normal w hosts) ∧
      ∀ host ∈ hosts, ∀ target, host.address = .v4 target → ∀ r ∈ host.ports,
        (r.state = .open → listens host.address r.port = true) ∧
        (r.state = .closed → listens host.address r.port = false) := by
  obtain ⟨hstdout, -⟩ := written_of_prepare hprepare h hend
  refine ⟨w.results p, hstdout, ?_⟩
  intro host hhost target hip r hr
  obtain ⟨plan, hplan, rfl⟩ := List.mem_map.1 hhost
  obtain ⟨script, hscript, rfl⟩ := List.mem_map.1 hplan
  rw [address_hostResult] at hip ⊢
  exact hnet.ports_tell hsS hscript hip hr

/-! ### A port that listens -/

/-- `rnmap -Pn -sS -p 80 --open -oJ scan.json 192.168.0.1`, on a network on which the answer of the
port arrives. -/
def listeningWorld : World :=
  { sampleWorld with
    parseFrom := fun _ => some { sampleCli with sS := true, sV := false, ports := some "80".toList }
    happens := fun i =>
      { sampleWorld.happens i with port := fun port =>
          { (sampleWorld.happens i).port port with syn := sampleEnv (roundsOf port .synAck) } } }

/-- The probes of the ports of its host, of which port 80 alone listens and has been probed. -/
def sampleNetwork : HostNetwork ⟨192, 168, 0, 1⟩ fun port => port = 80 where
  probe port := { Exchange.sample with p := { Exchange.sample.p with port := port } }
  state := Function.update (fun port => .start (portOf (port = 80))) 80 Exchange.sampleAnswered
  target_eq _ := rfl
  port_eq _ := rfl
  reaches := Exchange.reachable_update Exchange.reaches_sampleAnswered

/-- The call is accepted. -/
def listeningPrepared : Prepared where
  cli := { sampleCli with sS := true, sV := false, ports := some "80".toList }
  targets := samplePrepared.targets
  portSpec := ⟨[80]⟩

theorem networked_listeningWorld :
    listeningWorld.Networked listeningPrepared fun _ port => port = 80 := by
  intro h hh target hip
  obtain rfl := List.mem_singleton.1 hh
  cases hip
  refine ⟨sampleNetwork, fun port hport => ?_⟩
  obtain rfl := List.mem_singleton.1 hport
  have hstate : sampleNetwork.state 80 = Exchange.sampleAnswered := rfl
  refine ⟨⟨40000, by decide⟩, ?_⟩
  rw [hstate]
  exact Exchange.follows_sample

/-- The call comes to its end and has printed a report in which no port but 80 is open. -/
theorem open_ports_listen_sample :
    ∃ s hosts, listeningWorld.Reaches (fun _ => none) s ∧ s.progress = .ended (.ok ()) ∧
      s.stdout = some (listeningPrepared.normal listeningWorld hosts) ∧
      ∀ host ∈ hosts, ∀ target, host.address = .v4 target → ∀ r ∈ host.ports,
        r.state = .open → r.port = 80 := by
  obtain ⟨s, result, hs, hend⟩ := exists_reaches_ended listeningWorld fun _ => none
  obtain rfl : result = .ok () := (congrArg Outcome.result (outcome_of_ended hs hend)).symm
  have hprepare : listeningWorld.prepare = .ok listeningPrepared := rfl
  obtain ⟨hosts, hstdout, htells⟩ :=
    open_ports_listen hprepare rfl networked_listeningWorld hs hend
  refine ⟨s, hosts, hs, hend, hstdout, fun host hhost target hip r hr hstate => ?_⟩
  exact of_decide_eq_true ((htells host hhost target hip r hr).1 hstate)

end World

end Rnmap
