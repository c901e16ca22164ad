/-
**What a run sends.**

A script gives what happens to each connection and packet of a run, host by host; the plans of the
host loop follow from it.  Every step of the loop is told what it sends: the discovery of a host,
the packets and the connection attempts of a port's task, the connections of service detection.
Where in a step something is sent is not told, so that the log of a host's port tasks is known up
to their order.

Main definitions:

* `Rnmap.PortScript`, `Rnmap.HostScript`, `Rnmap.ScanScript` — what happens in a run;
* `Rnmap.HostScript.plan`, `Rnmap.ScanScript.run` — the run of the host loop;
* `Rnmap.Contact`, `Rnmap.ScanScript.Emits` — what is sent, and the steps that send it;
* `Rnmap.ScanScript.stages` — what a run sends to a host.

Main results:

* `Rnmap.ScanScript.loopStep_of_emits`, `Rnmap.ScanScript.exists_emits` — the steps with what they
  send are the steps of the loop;
* `Rnmap.ScanScript.spends_of_emits` — a step spends what it sends;
* `Rnmap.ScanScript.sent_in_stages` — **what a run sends**, in whatever order its steps are taken.
-/

import Rnmap.Logs
import Rnmap.Detect
import Rnmap.TcpPing
import Rnmap.HostLoop

set_option relaxedAutoImplicit false
set_option autoImplicit false

namespace Rnmap

open Runs Text Utf8

/-! ### Scripts -/

/-- What happens to one port of a host. -/
structure PortScript where
  syn : SynEnv
  /-- The clock at the start of the connect scan. -/
  started : Duration
  attempts : ℕ → Attempt
  /-- The attempt of the connect scan that panics, if it is made. -/
  panics : Option ℕ
  detect : DetectEnv

/-- What happens to a host. -/
structure HostScript where
  ip : IpAddr
  /-- What `hostname_for` finds. -/
  hostname : Option Text
  icmp : PingEnv
  /-- How connecting to a port ends when the host is pinged. -/
  ping : UInt16 → ConnectOutcome × Duration
  port : UInt16 → PortScript
  startedAt : DateTime
  endedAt : DateTime
  elapsed : Duration

/-- What happens in a run: its flags, the ports to ping and to scan, its timing and its hosts. -/
structure ScanScript where
  pn : Bool
  pe : Bool
  sS : Bool
  sV : Bool
  pingPorts : List UInt16
  ports : List UInt16
  timing : Timing
  hosts : List HostScript

namespace PortScript

/-- The connect scan, were it not to panic. -/
def scan (s : PortScript) (port : UInt16) (timing : Timing) : ConnectRun :=
  connectScan port timing s.attempts s.started

/-- The connect scan ends before the attempt that panics. -/
def survives (s : PortScript) (port : UInt16) (timing : Timing) : Bool :=
  match s.panics with
  | some k => (s.scan port timing).attempts ≤ k
  | none => true

/-- The number of connection attempts the connect scan makes. -/
def made (s : PortScript) (port : UInt16) (timing : Timing) : ℕ :=
  match s.panics with
  | some k => min (k + 1) (s.scan port timing).attempts
  | none => (s.scan port timing).attempts

end PortScript

/-- The probes of a ping. -/
def HostScript.pings (h : HostScript) (ports : List UInt16) : List PingProbe :=
  ports.map fun port => ⟨port, (h.ping port).1, (h.ping port).2⟩

namespace ScanScript

variable (sc : ScanScript)

/-- What the host loop is told of a host. -/
def plan (h : HostScript) : HostPlan where
  ip := h.ip
  hostname := h.hostname
  icmp := h.icmp
  tcp := tcpPing (h.pings sc.pingPorts)
  task := fun port =>
    ⟨(h.port port).syn,
      if (h.port port).survives port sc.timing then
        some ((h.port port).started, (h.port port).attempts)
      else none⟩
  banner := fun port =>
    match (h.port port).detect.connect with
    | .connected => some (decodeLossy (heard port (h.port port).detect).bytes)
    | .failed _ => none
    | .elapsed => none
  startedAt := h.startedAt
  endedAt := h.endedAt
  elapsed := h.elapsed

/-- The run of the host loop. -/
def run : CliRun := ⟨sc.pn, sc.pe, sc.sS, sc.sV, sc.ports, sc.timing, sc.hosts.map sc.plan⟩

/-- Service detection of the loop is the one over the connection. -/
theorem detectOn_plan (h : HostScript) (pr : PortResult) :
    sc.run.detectOn (sc.plan h) pr =
      if sc.sV ∧ pr.state = .open then
        { pr with service := (detect pr.port (h.port pr.port).detect).service }
      else pr := by
  have hservice : ((sc.plan h).banner pr.port).map (serviceInfo pr.port) =
      (detect pr.port (h.port pr.port).detect).service := by
    rw [detect, plan]
    dsimp only
    cases (h.port pr.port).detect.connect with
    | connected => rfl
    | failed e => rfl
    | elapsed => rfl
  rw [← hservice]
  rfl

/-! ### What is sent -/

end ScanScript

/-- What is sent: a connection attempt of discovery, an echo request, a segment of the SYN scan of
a port, a connection attempt of the connect scan, one of service detection, and a payload that
detection writes.  Name lookups, those of the resolver and those in reverse, are not counted. -/
inductive Contact
  | ping (ip : IpAddr) (port : UInt16)
  | echo (ip : IpAddr) (packet : Bytes)
  | segment (target : Ipv4Addr) (port : UInt16) (packet : Bytes)
  | connect (ip : IpAddr) (port : UInt16)
  | detect (ip : IpAddr) (port : UInt16)
  | payload (ip : IpAddr) (port : UInt16) (payload : Bytes)
  deriving DecidableEq

/-- The probes of a ping that are made: none after a connection. -/
def pingsMade : List PingProbe → List PingProbe
  | [] => []
  | p :: ps =>
      match p.outcome with
      | .connected => [p]
      | .failed _ => p :: pingsMade ps
      | .elapsed => p :: pingsMade ps

/-- The echo requests of a ping. -/
def echoesSent (ip : IpAddr) (env : IcmpEnv) : List Bytes :=
  match ip with
  | .v6 _ => []
  | .v4 target =>
      match sendEcho target env with
      | .ok () => [buildIcmpEcho (echoId env.pid) echoSeq echoPayload]
      | .error _ => []

namespace ScanScript

variable (sc : ScanScript)

/-- What discovery sends to a host. -/
def discovery (h : HostScript) : List Contact :=
  if sc.pn then []
  else if sc.pe then (echoesSent h.ip h.icmp.env).map (.echo h.ip)
  else (pingsMade (h.pings sc.pingPorts)).map fun p => .ping h.ip p.port

/-- What the SYN scan of a port sends. -/
def synContacts (h : HostScript) (port : UInt16) : List Contact :=
  match h.ip with
  | .v6 _ => []
  | .v4 target =>
      match scanBlocking target port sc.timing (h.port port).syn with
      | some run => run.sent.map (.segment target port)
      -- it panics before it sends anything
      | none => []

/-- What the connect scan of a port sends. -/
def connectContacts (h : HostScript) (port : UInt16) : List Contact :=
  List.replicate ((h.port port).made port sc.timing) (.connect h.ip port)

/-- What the task of a port sends in its next step. -/
def taskContacts (h : HostScript) (port : UInt16) : Phase → List Contact
  | .syn => sc.synContacts h port
  | .connect => sc.connectContacts h port
  | .finished _ => []

/-- What the task of a port sends after its SYN scan. -/
def fallbackContacts (h : HostScript) (port : UInt16) : Phase → List Contact
  | .finished _ => []
  | _ => sc.connectContacts h port

/-- What the task of a port goes on to send. -/
def toSend (h : HostScript) (port : UInt16) : Phase → List Contact
  | .finished _ => []
  | .connect => sc.connectContacts h port
  | .syn =>
      sc.synContacts h port ++ sc.fallbackContacts h port (sc.run.afterSyn (sc.plan h) port)

/-- What service detection sends to a port. -/
def detectContacts (h : HostScript) (pr : PortResult) : List Contact :=
  if sc.sV ∧ pr.state = .open then
    .detect h.ip pr.port ::
      (detect pr.port (h.port pr.port).detect).sent.map (.payload h.ip pr.port)
  else []

/-! ### The steps that send -/

/-- The host the main task is at. -/
def current (s : LoopState) : Option HostScript := sc.hosts[s.hosts.length]?

/-- **The steps of the host loop, with what they send.** -/
inductive Emits : LoopState → List Contact → LoopState → Prop
  | skip {s : LoopState} {plan : HostPlan} {left : List HostPlan} {h : HostScript} :
      sc.current s = some h → s.pc = .next → s.left = plan :: left → sc.run.skips plan = true →
      Emits s (sc.discovery h)
        { s with left := left, hosts := s.hosts ++ [sc.run.skippedResult plan] }
  | begin {s : LoopState} {plan : HostPlan} {left : List HostPlan} {h : HostScript} :
      sc.current s = some h → s.pc = .next → s.left = plan :: left → sc.run.skips plan = false →
      Emits s (sc.discovery h)
        { s with pc := .spawning plan sc.run.ports, left := left, tasks := [] }
  | spawn {s : LoopState} {plan : HostPlan} {port : UInt16} {ports : List UInt16} {free : ℕ} :
      s.pc = .spawning plan (port :: ports) → s.free = free + 1 →
      Emits s [] { s with
        pc := .spawning plan ports
        tasks := s.tasks ++ [⟨plan, port, sc.run.firstPhase plan⟩]
        free := free }
  | task {s : LoopState} {pre post : List PortTask} {t : PortTask} {h : HostScript} :
      sc.current s = some h → s.tasks = pre ++ t :: post → t.phase.held = 1 →
      Emits s (sc.taskContacts h t.port t.phase) { s with
        tasks := pre ++ sc.run.advance t :: post
        free := s.free + (1 - (sc.run.advance t).phase.held) }
  | spawned {s : LoopState} {plan : HostPlan} :
      s.pc = .spawning plan [] → Emits s [] { s with pc := .joining plan 0 [] }
  | join {s : LoopState} {plan : HostPlan} {awaited : ℕ} {results : List PortResult}
      {t : PortTask} {result : Option PortResult} :
      s.pc = .joining plan awaited results → s.tasks[awaited]? = some t →
      t.phase = .finished result →
      Emits s [] { s with pc := .joining plan (awaited + 1) (results ++ result.toList) }
  | report {s : LoopState} {plan : HostPlan} {results : List PortResult} {h : HostScript} :
      sc.current s = some h → s.pc = .joining plan s.tasks.length results →
      Emits s ((sortByPort results).flatMap (sc.detectContacts h))
        { s with pc := .next, hosts := s.hosts ++ [sc.run.scannedResult plan results] }

/-- The states a run reaches, with what it sent. -/
def Sends (s : LoopState) (log : List Contact) : Prop :=
  Reachable (Logged sc.Emits) (sc.run.start, []) (s, log)

/-! ### What a run sends to a host -/

/-- What the tasks of the ports send. -/
def probes (h : HostScript) : List Contact :=
  if sc.run.skips (sc.plan h) then []
  else sc.ports.flatMap fun port => sc.toSend h port (sc.run.firstPhase (sc.plan h))

/-- What service detection sends. -/
def detection (h : HostScript) : List Contact :=
  (sc.run.hostResult (sc.plan h)).ports.flatMap (sc.detectContacts h)

/-- **What a run sends to a host**: discovery, one after the other, then what the tasks send, in
some order, then service detection, one after the other. -/
def stages (h : HostScript) : List (List Contact) :=
  (sc.discovery h).map (fun c => [c]) ++ sc.probes h :: (sc.detection h).map fun c => [c]

/-- What is left to send, at the host whose tasks are about. -/
def scanning (s : LoopState) (ports : List UInt16) : List (List Contact) :=
  match sc.hosts.drop s.hosts.length with
  | [] => []
  | h :: rest =>
      ((s.tasks.flatMap fun t => sc.toSend h t.port t.phase) ++
        ports.flatMap fun port => sc.toSend h port (sc.run.firstPhase (sc.plan h))) ::
      ((sc.detection h).map (fun c => [c]) ++ rest.flatMap sc.stages)

/-- What is left to send. -/
def todo (s : LoopState) : List (List Contact) :=
  match s.pc with
  | .next => (sc.hosts.drop s.hosts.length).flatMap sc.stages
  | .spawning _ ports => sc.scanning s ports
  | .joining _ _ _ => sc.scanning s []

variable {sc}

theorem loopStep_of_emits {s t : LoopState} {log : List Contact} (h : sc.Emits s log t) :
    sc.run.LoopStep s t := by
  cases h with
  | skip _ hpc hleft hskip => exact .skip hpc hleft hskip
  | begin _ hpc hleft hskip => exact .begin hpc hleft hskip
  | spawn hpc hfree => exact .spawn hpc hfree
  | task _ htasks hheld => exact .task htasks hheld
  | spawned hpc => exact .spawned hpc
  | join hpc htask hphase => exact .join hpc htask hphase
  | report _ hpc => exact .report hpc

theorem afterSyn_ne_syn (plan : HostPlan) (port : UInt16) : sc.run.afterSyn plan port ≠ .syn := by
  unfold CliRun.afterSyn
  split
  · exact Phase.noConfusion
  · split
    · exact Phase.noConfusion
    · exact Phase.noConfusion
    · exact Phase.noConfusion

/-- What a task sends in its next step is the first of what it goes on to send. -/
theorem toSend_advance {h : HostScript} {t : PortTask} (hplan : t.plan = sc.plan h) :
    sc.toSend h t.port t.phase =
      sc.taskContacts h t.port t.phase ++ sc.toSend h t.port (sc.run.advance t).phase := by
  obtain ⟨plan, port, phase⟩ := t
  obtain rfl : plan = sc.plan h := hplan
  cases phase with
  | finished result => rfl
  | connect => exact (List.append_nil _).symm
  | syn =>
      change sc.synContacts h port ++ _ =
        sc.synContacts h port ++ sc.toSend h port (sc.run.afterSyn (sc.plan h) port)
      cases hafter : sc.run.afterSyn (sc.plan h) port with
      | finished result => rfl
      | connect => rfl
      | syn => exact absurd hafter (afterSyn_ne_syn _ _)

/-- The plans not yet reported are those of the last scripts. -/
theorem pending_eq {s : LoopState} (h : sc.run.LoopInv s) :
    s.pending = (sc.hosts.drop s.hosts.length).map sc.plan := by
  obtain ⟨past, hpast, hhosts⟩ := h.reported
  have hplans : sc.hosts.map sc.plan = past ++ s.pending := hpast
  rw [List.map_drop, hplans, hhosts, List.length_map, List.drop_left]

/-- The host the main task is at, and the ones behind it. -/
theorem pending_cons {s : LoopState} (h : sc.run.LoopInv s) {plan : HostPlan}
    {left : List HostPlan} (hpending : s.pending = plan :: left) :
    ∃ host rest, sc.hosts.drop s.hosts.length = host :: rest ∧ plan = sc.plan host ∧
      left = rest.map sc.plan ∧ sc.current s = some host ∧
      sc.hosts.drop (s.hosts.length + 1) = rest := by
  have hscripts := (pending_eq h).symm.trans hpending
  obtain ⟨host, rest, hdrop, hplan, hleft⟩ := List.map_eq_cons_iff.1 hscripts
  refine ⟨host, rest, hdrop, hplan.symm, hleft.symm, ?_, ?_⟩
  · have hhead := congrArg List.head? hdrop
    rwa [List.head?_drop] at hhead
  · rw [← List.drop_drop, hdrop]
    rfl

theorem pending_of_next {s : LoopState} {plan : HostPlan} {left : List HostPlan}
    (hpc : s.pc = .next) (hleft : s.left = plan :: left) : s.pending = plan :: left := by
  rw [LoopState.pending, hpc]
  exact hleft

theorem pending_of_spawning {s : LoopState} {plan : HostPlan} {ports : List UInt16}
    (hpc : s.pc = .spawning plan ports) : s.pending = plan :: s.left := by
  rw [LoopState.pending, hpc]

theorem pending_of_joining {s : LoopState} {plan : HostPlan} {awaited : ℕ}
    {results : List PortResult} (hpc : s.pc = .joining plan awaited results) :
    s.pending = plan :: s.left := by
  rw [LoopState.pending, hpc]

/-- A task that runs belongs to the host the main task is at. -/
theorem plan_of_task {s : LoopState} (h : sc.run.LoopInv s) {t : PortTask} (ht : t ∈ s.tasks)
    (hheld : t.phase.held = 1) : s.pc ≠ .next ∧ s.pending = t.plan :: s.left := by
  have hpc := h.pc
  unfold CliRun.PcInv at hpc
  unfold LoopState.pending
  cases hs : s.pc with
  | next =>
      rw [hs] at hpc
      have hheld : (s.tasks.map fun t => t.phase.held).sum = 0 := hpc
      have hzero := List.sum_eq_zero_iff.1 hheld
      have h0 := hzero t.phase.held (List.mem_map_of_mem ht)
      omega
  | spawning plan ports =>
      rw [hs] at hpc
      obtain ⟨-, -, hcourse⟩ := hpc
      exact ⟨MainPc.noConfusion, by rw [(hcourse t ht).plan_eq]⟩
  | joining plan awaited results =>
      rw [hs] at hpc
      obtain ⟨-, -, hcourse, -⟩ := hpc
      exact ⟨MainPc.noConfusion, by rw [(hcourse t ht).plan_eq]⟩

/-- Every step of the loop sends something, perhaps nothing. -/
theorem exists_emits {s t : LoopState} (h : sc.run.LoopInv s) (hs : sc.run.LoopStep s t) :
    ∃ log, sc.Emits s log t := by
  cases hs with
  | skip hpc hleft hskip =>
      obtain ⟨host, -, -, -, -, hcurrent, -⟩ := pending_cons h (pending_of_next hpc hleft)
      exact ⟨_, .skip hcurrent hpc hleft hskip⟩
  | begin hpc hleft hskip =>
      obtain ⟨host, -, -, -, -, hcurrent, -⟩ := pending_cons h (pending_of_next hpc hleft)
      exact ⟨_, .begin hcurrent hpc hleft hskip⟩
  | spawn hpc hfree => exact ⟨_, .spawn hpc hfree⟩
  | @task pre post t htasks hheld =>
      have ht : t ∈ s.tasks := htasks ▸ List.mem_append_right _ List.mem_cons_self
      obtain ⟨host, -, -, -, -, hcurrent, -⟩ := pending_cons h (plan_of_task h ht hheld).2
      exact ⟨_, .task hcurrent htasks hheld⟩
  | spawned hpc => exact ⟨_, .spawned hpc⟩
  | join hpc htask hphase => exact ⟨_, .join hpc htask hphase⟩
  | report hpc =>
      obtain ⟨host, -, -, -, -, hcurrent, -⟩ := pending_cons h (pending_of_joining hpc)
      exact ⟨_, .report hcurrent hpc⟩

/-! ### A step spends what it sends -/

theorem detectContacts_detectOn (h : HostScript) (plan : HostPlan) (pr : PortResult) :
    sc.detectContacts h (sc.run.detectOn plan pr) = sc.detectContacts h pr := by
  rw [detectContacts, detectContacts, CliRun.state_detectOn, CliRun.port_detectOn]

/-- A host that is skipped is only discovered. -/
theorem stages_of_skips {h : HostScript} (hskip : sc.run.skips (sc.plan h) = true) :
    sc.stages h = (sc.discovery h).map (fun c => [c]) ++ [[]] := by
  rw [stages, probes, if_pos hskip, detection, CliRun.hostResult, if_pos hskip]
  rfl

/-- What detection sends to a host that is scanned. -/
theorem detection_eq {h : HostScript} (hskip : sc.run.skips (sc.plan h) = false) :
    sc.detection h =
      (sortByPort (sc.ports.filterMap (sc.run.probeResult (sc.plan h)))).flatMap
        (sc.detectContacts h) := by
  rw [detection, CliRun.ports_hostResult hskip, List.flatMap_map]
  simp only [detectContacts_detectOn]
  rfl

/-- **A step spends what it sends.** -/
theorem spends_of_emits {s t : LoopState} {log : List Contact} (hinv : sc.run.LoopInv s)
    (h : sc.Emits s log t) : Spends (sc.todo s) log (sc.todo t) := by
  have hafter : ∀ r : HostResult, (s.hosts ++ [r]).length = s.hosts.length + 1 :=
    fun r => List.length_append
  cases h with
  | @skip plan left host hcurrent hpc hleft hskip =>
      have hpending := pending_of_next hpc hleft
      obtain ⟨host', rest, hdrop, rfl, -, hcurrent', hrest⟩ := pending_cons hinv hpending
      obtain rfl := Option.some.inj (hcurrent'.symm.trans hcurrent)
      simp only [todo, hpc, hdrop, hafter, hrest, List.flatMap_cons, stages_of_skips hskip,
        List.append_assoc]
      have hspends := (spends_singletons (sc.discovery host')
        ([] :: rest.flatMap sc.stages)).trans .next
      rwa [List.append_nil] at hspends
  | @begin plan left host hcurrent hpc hleft hskip =>
      have hpending := pending_of_next hpc hleft
      obtain ⟨host', rest, hdrop, rfl, -, hcurrent', -⟩ := pending_cons hinv hpending
      obtain rfl := Option.some.inj (hcurrent'.symm.trans hcurrent)
      have hprobes : sc.probes host' = sc.ports.flatMap fun port =>
          sc.toSend host' port (sc.run.firstPhase (sc.plan host')) := by
        rw [probes, hskip]
        rfl
      simp only [todo, hpc, scanning, hdrop, List.flatMap_cons, stages, List.append_assoc,
        List.cons_append, hprobes, List.flatMap_nil, List.nil_append]
      exact spends_singletons _ _
  | @spawn plan port ports free hpc hfree =>
      obtain ⟨host, rest, hdrop, rfl, -⟩ := pending_cons hinv (pending_of_spawning hpc)
      simp only [todo, hpc, scanning, hdrop]
      -- the task is one of the tasks now, no longer one of the ports that are left
      refine .emit ?_
      simp
  | @task pre post t host hcurrent htasks hheld =>
      have ht : t ∈ s.tasks := htasks ▸ List.mem_append_right _ List.mem_cons_self
      obtain ⟨hnext, hpending⟩ := plan_of_task hinv ht hheld
      obtain ⟨host', rest, hdrop, hplan, -, hcurrent', -⟩ := pending_cons hinv hpending
      obtain rfl := Option.some.inj (hcurrent'.symm.trans hcurrent)
      have hscanning : ∀ ports, Spends (sc.scanning s ports) (sc.taskContacts host' t.port t.phase)
          (sc.scanning { s with tasks := pre ++ sc.run.advance t :: post } ports) := by
        intro ports
        simp only [scanning, hdrop, htasks]
        refine .emit ?_
        simp only [List.flatMap_append, List.flatMap_cons, CliRun.port_advance,
          toSend_advance hplan, List.append_assoc]
        exact List.perm_append_comm_assoc _ _ _
      cases hpc : s.pc with
      | next => exact absurd hpc hnext
      | spawning plan ports =>
          simp only [todo, hpc]
          exact hscanning ports
      | joining plan awaited results =>
          simp only [todo, hpc]
          exact hscanning []
  | spawned hpc =>
      simp only [todo, hpc]
      exact .refl _
  | join hpc htask hphase =>
      simp only [todo, hpc]
      exact .refl _
  | @report plan results host hcurrent hpc =>
      obtain ⟨host', rest, hdrop, rfl, -, hcurrent', hrest⟩ :=
        pending_cons hinv (pending_of_joining hpc)
      obtain rfl := Option.some.inj (hcurrent'.symm.trans hcurrent)
      have hpcInv := hinv.pc
      simp only [CliRun.PcInv, hpc] at hpcInv
      obtain ⟨hskip, hports, -, -, hdone, hresults⟩ := hpcInv
      rw [List.take_length] at hdone
      -- all tasks have ended, so that nothing is left for them to send
      have hnone : (s.tasks.flatMap fun t => sc.toSend host' t.port t.phase) = [] := by
        refine List.flatMap_eq_nil_iff.2 fun t ht => ?_
        have hheld := hdone t ht
        cases hphase : t.phase with
        | finished result => rfl
        | connect =>
            rw [hphase] at hheld
            cases hheld
        | syn =>
            rw [hphase] at hheld
            cases hheld
      have hall : results = sc.ports.filterMap (sc.run.probeResult (sc.plan host')) := by
        have hlen : s.tasks.length = sc.run.ports.length := by rw [← hports, List.length_map]
        rw [hresults, hlen, List.take_length]
        rfl
      simp only [todo, hpc, scanning, hdrop, hafter, hrest, hnone, List.flatMap_nil,
        List.append_nil, detection_eq hskip, hall]
      exact Spends.next.trans (spends_singletons _ _)

/-! ### What a run sends -/

/-- What a run sent so far, and what it still has to send. -/
theorem spends_of_sends {s : LoopState} {log : List Contact} (h : sc.Sends s log) :
    sc.run.LoopInv s ∧ Spends (sc.hosts.flatMap sc.stages) log (sc.todo s) :=
  spends_of_reachable CliRun.loopInv_start
    (fun _ _ _ hinv hemits => hinv.step (loopStep_of_emits hemits))
    (fun _ _ _ hinv hemits => spends_of_emits hinv hemits) h

/-- At its end a run has nothing left to send. -/
theorem todo_of_finished {s : LoopState} (hinv : sc.run.LoopInv s) (hfin : s.Finished) :
    sc.todo s = [] := by
  obtain ⟨hpc, hleft⟩ := hfin
  have hpending : s.pending = [] := by
    rw [LoopState.pending, hpc]
    exact hleft
  have hdrop : sc.hosts.drop s.hosts.length = [] :=
    List.map_eq_nil_iff.1 ((pending_eq hinv).symm.trans hpending)
  simp only [todo, hpc, hdrop, List.flatMap_nil]

/-- What a run sent so far is the beginning of what goes through the stages of its hosts. -/
theorem staged_of_sends {s : LoopState} {log : List Contact} (h : sc.Sends s log) :
    Staged (log ++ (sc.todo s).flatten) (sc.hosts.flatMap sc.stages) :=
  (spends_of_sends h).2.staged (staged_flatten _)

/-- Every run has a log. -/
theorem exists_sends {s : LoopState} (h : sc.run.LoopReachable s) : ∃ log, sc.Sends s log :=
  exists_logged (fun _ _ hs hst => exists_emits (CliRun.loopInv_of_reachable hs) hst) h

/-- **What a run sends**: every run of the host loop has a log, and every log goes, host after host,
through what discovery sends, then what the tasks of the ports send, in some order, then what
service detection sends; at the end of the run it has gone through all of this. -/
theorem sent_in_stages {s : LoopState} (h : sc.run.LoopReachable s) :
    (∃ log, sc.Sends s log) ∧
      ∀ log, sc.Sends s log → ∃ rest, Staged (log ++ rest) (sc.hosts.flatMap sc.stages) ∧
        (s.Finished → rest = []) := by
  refine ⟨exists_sends h, ?_⟩
  intro log hlog
  refine ⟨_, staged_of_sends hlog, fun hfin => ?_⟩
  rw [todo_of_finished (spends_of_sends hlog).1 hfin]
  rfl

/-- A scan with service detection of two ports of one host, which refuses the first ping and
accepts the second; SSH greets and HTTP waits to be asked. -/
def sampleScript : ScanScript where
  pn := false
  pe := false
  sS := false
  sV := true
  pingPorts := [443, 22, 80]
  ports := [22, 80]
  timing := Timing.new 3
  hosts := [{
    ip := .v4 ⟨192, 168, 0, 1⟩
    hostname := none
    icmp := ⟨.delivering 4321 [], [], 0⟩
    ping := fun port =>
      if port = 443 then (.failed ⟨.connectionRefused, some 111, []⟩, fromMillis 1)
      else (.connected, fromMillis 1)
    port := fun port => {
      syn := {
        started := 0
        localAddr := .ok (.v4 ⟨192, 168, 0, 7⟩)
        random := none
        ipIds := (1, 2)
        socket := .ok ()
        setHeaderIncluded := .ok ()
        setReadTimeout := .ok ()
        setWriteTimeout := .ok ()
        sendTo := fun _ => .ok ()
        entered := 0
        calls := [] }
      started := 0
      attempts := fun n =>
        if n = 0 then ⟨.elapsed, fromSecs 3, 0⟩ else ⟨.connected, fromMillis 1, 0⟩
      panics := none
      detect := {
        connect := .connected
        greeting :=
          if port = 22 then .ready (.ok (encode "SSH-2.0-OpenSSH_9.9p1\r\n".toList)) else .elapsed
        write := .ready (.ok ())
        reply := .ready (.ok (encode "HTTP/1.0 200 OK\r\n\r\n".toList)) } }
    startedAt := ⟨0, 0⟩
    endedAt := ⟨1, 0⟩
    elapsed := fromSecs 1 }]

/-- Such a scan ends. -/
theorem exists_finished_sample : ∃ s, sampleScript.run.LoopReachable s ∧ s.Finished :=
  CliRun.exists_finished_of_reachable Reachable.init

theorem exists_sent_sample : ∃ s log, sampleScript.Sends s log ∧ s.Finished := by
  obtain ⟨s, hs, hfin⟩ := exists_finished_sample
  obtain ⟨log, hlog⟩ := exists_sends hs
  exact ⟨s, log, hlog, hfin⟩

/-- At its end such a scan has sent all there is to send. -/
theorem sent_in_stages_sample :
    ∃ s log, sampleScript.Sends s log ∧ s.Finished ∧
      Staged log (sampleScript.hosts.flatMap sampleScript.stages) := by
  obtain ⟨s, hs, hfin⟩ := exists_finished_sample
  obtain ⟨⟨log, hlog⟩, hstaged⟩ := sent_in_stages hs
  obtain ⟨rest, hrest, hnil⟩ := hstaged log hlog
  rw [hnil hfin, List.append_nil] at hrest
  exact ⟨s, log, hlog, hfin, hrest⟩

example : sampleScript.hosts.flatMap (fun h => sampleScript.discovery h ++ sampleScript.probes h) =
    let ip : IpAddr := .v4 ⟨192, 168, 0, 1⟩
    [.ping ip 443, .ping ip 22, .connect ip 22, .connect ip 22, .connect ip 80,
      .connect ip 80] := by
  decide +kernel

end ScanScript

end Rnmap
