/-
**The host loop.**

The command line scans one host after the other.  For each it spawns a task per port, holding a
permit of one semaphore from before the task starts until it ends, then awaits the tasks in the
order of the ports and sorts the results.  The tasks run side by side; a step of the system is one
step of the main task or of any task, so that a run is one interleaving.  What the network, the
resolver and the clock do in a run is given with each host.  Messages on standard error are left
out, and that they can fail.

Main definitions:

* `Rnmap.CliRun`, `Rnmap.HostPlan`, `Rnmap.TaskEnv` — a run, and what happens in it;
* `Rnmap.LoopState`, `Rnmap.CliRun.LoopStep` — the states and the steps;
* `Rnmap.CliRun.probeResult`, `Rnmap.CliRun.hostResult` — the result of a port and of a host, as
  functions of what happens;
* `Rnmap.CliRun.LoopInv` — the invariant.

Main results:

* `Rnmap.CliRun.loopInv_of_reachable` — the invariant of every run;
* `Rnmap.CliRun.bounded_concurrency` — **never more probes than permits**, and no permit is lost;
* `Rnmap.CliRun.loopStep_decreases`, `Rnmap.CliRun.exists_loopStep` — runs end, and only when all
  hosts are reported;
* `Rnmap.CliRun.host_ports_complete` — **every host is reported with each requested port once, in
  ascending order and with its own state**, in whatever order the tasks finish.
-/

import Rnmap.SynScan
import Rnmap.ConnectScan
import Rnmap.IcmpPing
import Rnmap.Service
import Rnmap.Runs

set_option relaxedAutoImplicit false
set_option autoImplicit false

namespace Rnmap

open Runs

/-! ### A run and what happens in it -/

/-- What happens to the probe of one port: to its SYN scan, and to its connect scan, which starts
at a clock reading and meets a script of attempts; `none` when the connect scan panics. -/
structure TaskEnv where
  syn : SynEnv
  connect : Option (Duration × (ℕ → Attempt))

/-- What happens to the ICMP ping of a host: to its blocking thread, the text of the join error
should that panic, and the time it takes. -/
structure PingEnv where
  env : IcmpEnv
  joinError : Text
  elapsed : Duration

/-- A host to scan and what happens when it is scanned. -/
structure HostPlan where
  ip : IpAddr
  /-- What `hostname_for` finds. -/
  hostname : Option Text
  icmp : PingEnv
  /-- What `tcp_ping` returns, when it is asked. -/
  tcp : DiscoveryOutcome
  task : UInt16 → TaskEnv
  /-- The decoded banner service detection gets from a port; `none` when it cannot connect. -/
  banner : UInt16 → Option Text
  startedAt : DateTime
  endedAt : DateTime
  elapsed : Duration

/-- A run of the command line: its flags, its ports, its timing and its hosts. -/
structure CliRun where
  pn : Bool
  pe : Bool
  sS : Bool
  sV : Bool
  ports : List UInt16
  timing : Timing
  hosts : List HostPlan

/-- What a task is doing, or the result it ended with; `none` when it panicked. -/
inductive Phase
  | syn
  | connect
  | finished (result : Option PortResult)

/-- The permits a task holds. -/
def Phase.held : Phase → ℕ
  | .finished _ => 0
  | _ => 1

theorem Phase.held_le (p : Phase) : p.held ≤ 1 := by
  cases p <;> simp [Phase.held]

/-- Whether a task has ended. -/
def Phase.ended : Phase → Bool
  | .finished _ => true
  | _ => false

/-- The steps a task still has to take. -/
def Phase.work : Phase → ℕ
  | .syn => 2
  | .connect => 1
  | .finished _ => 0

/-- The task of one port of a host. -/
structure PortTask where
  plan : HostPlan
  port : UInt16
  phase : Phase

/-- What the main task is doing: it takes the next host, it spawns tasks for the ports that are
left, or it has awaited some tasks and collected their results. -/
inductive MainPc
  | next
  | spawning (plan : HostPlan) (left : List UInt16)
  | joining (plan : HostPlan) (awaited : ℕ) (results : List PortResult)

/-- A state of a run: the main task, the hosts not yet begun, the tasks of the current host in the
order they were spawned, the free permits and the hosts reported. -/
structure LoopState where
  pc : MainPc
  left : List HostPlan
  tasks : List PortTask
  free : ℕ
  hosts : List HostResult

/-- The permits all tasks hold. -/
def LoopState.held (s : LoopState) : ℕ := (s.tasks.map fun t => t.phase.held).sum

/-- The number of port probes in flight: of the tasks that have started and not ended. -/
def LoopState.inFlight (s : LoopState) : ℕ := (s.tasks.filter fun t => !t.phase.ended).length

/-- The hosts not yet reported. -/
def LoopState.pending (s : LoopState) : List HostPlan :=
  match s.pc with
  | .next => s.left
  | .spawning plan _ => plan :: s.left
  | .joining plan _ _ => plan :: s.left

/-- All hosts are reported. -/
def LoopState.Finished (s : LoopState) : Prop := s.pc = .next ∧ s.left = []

/-- `sort_by_key(|p| p.port)`. -/
def sortByPort (results : List PortResult) : List PortResult :=
  results.mergeSort fun p q => p.port ≤ q.port

namespace CliRun

variable (run : CliRun)

/-- The permits of the semaphore. -/
def permits : ℕ := max run.timing.maxParallel 1

/-- What discovery says about a host. -/
def discover (plan : HostPlan) : HostState × Text :=
  if run.pn then (.up, "skipped".toList)
  else if run.pe then
    match icmpPing plan.ip plan.icmp.env plan.icmp.joinError plan.icmp.elapsed with
    | .ok o => (o.state, o.reason)
    | .error _ => (.unknown, "icmp-error".toList)
  else (plan.tcp.state, plan.tcp.reason)

/-- Whether a host is reported without a scan. -/
def skips (plan : HostPlan) : Bool := (run.discover plan).1 ≠ .up && !run.pn

/-- The result of a host that is not scanned. -/
def skippedResult (plan : HostPlan) : HostResult where
  address := plan.ip
  hostname := plan.hostname
  state := (run.discover plan).1
  reason := (run.discover plan).2
  ports := []
  startedAt := plan.startedAt
  endedAt := plan.endedAt
  elapsed := plan.elapsed

/-- Service detection on one port. -/
def detectOn (plan : HostPlan) (pr : PortResult) : PortResult :=
  if run.sV ∧ pr.state = .open then
    { pr with service := (plan.banner pr.port).map fun banner => serviceInfo pr.port banner }
  else pr

/-- The result of a host that is scanned. -/
def scannedResult (plan : HostPlan) (results : List PortResult) : HostResult where
  address := plan.ip
  hostname := plan.hostname
  state := .up
  reason := (run.discover plan).2
  ports := (sortByPort results).map (run.detectOn plan)
  startedAt := plan.startedAt
  endedAt := plan.endedAt
  elapsed := plan.elapsed

/-- What the task of a port does first. -/
def firstPhase (plan : HostPlan) : Phase :=
  if run.sS then
    match plan.ip with
    | .v4 _ => .syn
    | .v6 _ => .connect
  else .connect

/-- What the connect scan of a port ends with. -/
def connectResult (plan : HostPlan) (port : UInt16) : Option PortResult :=
  (plan.task port).connect.map fun (started, script) =>
    (connectScan port run.timing script started).result

/-- What a task does after the SYN scan: a result ends it, an error or a panic of the blocking
thread makes it fall back to the connect scan.  Telling so on standard error is taken to succeed; a
failing `eprintln!` would panic. -/
def afterSyn (plan : HostPlan) (port : UInt16) : Phase :=
  match plan.ip with
  | .v6 _ => .connect
  | .v4 target =>
      match scanBlocking target port run.timing (plan.task port).syn with
      | some ⟨.ok r, _⟩ => .finished (some r)
      | some ⟨.error _, _⟩ => .connect
      -- `spawn_blocking` returns a join error
      | none => .connect

/-- What a task does next. -/
def advance (t : PortTask) : PortTask :=
  match t.phase with
  | .syn => { t with phase := run.afterSyn t.plan t.port }
  | .connect => { t with phase := .finished (run.connectResult t.plan t.port) }
  | .finished _ => t

/-- Before the first host. -/
def start : LoopState := ⟨.next, run.hosts, [], run.permits, []⟩

/-- **The steps**: the main task skips a host or begins with it, acquires a permit and spawns the
task of the next port, turns to the tasks it has spawned, awaits the next of them, keeping a result
if there is one, or reports the host; a task does what it does next, and returns its permit when
that ends it. -/
inductive LoopStep : LoopState → LoopState → Prop
  | skip {s : LoopState} {plan : HostPlan} {left : List HostPlan} :
      s.pc = .next → s.left = plan :: left → run.skips plan = true →
      LoopStep s { s with left := left, hosts := s.hosts ++ [run.skippedResult plan] }
  | begin {s : LoopState} {plan : HostPlan} {left : List HostPlan} :
      s.pc = .next → s.left = plan :: left → run.skips plan = false →
      LoopStep s { s with pc := .spawning plan run.ports, left := left, tasks := [] }
  | spawn {s : LoopState} {plan : HostPlan} {port : UInt16} {ports : List UInt16} {free : ℕ} :
      s.pc = .spawning plan (port :: ports) → s.free = free + 1 →
      LoopStep s { s with
        pc := .spawning plan ports
        tasks := s.tasks ++ [⟨plan, port, run.firstPhase plan⟩]
        free := free }
  | task {s : LoopState} {pre post : List PortTask} {t : PortTask} :
      s.tasks = pre ++ t :: post → t.phase.held = 1 →
      LoopStep s { s with
        tasks := pre ++ run.advance t :: post
        free := s.free + (1 - (run.advance t).phase.held) }
  | spawned {s : LoopState} {plan : HostPlan} :
      s.pc = .spawning plan [] → LoopStep s { s with pc := .joining plan 0 [] }
  | join {s : LoopState} {plan : HostPlan} {awaited : ℕ} {results : List PortResult}
      {t : PortTask} {result : Option PortResult} :
      s.pc = .joining plan awaited results → s.tasks[awaited]? = some t →
      t.phase = .finished result →
      LoopStep s { s with pc := .joining plan (awaited + 1) (results ++ result.toList) }
  | report {s : LoopState} {plan : HostPlan} {results : List PortResult} :
      s.pc = .joining plan s.tasks.length results →
      LoopStep s { s with pc := .next, hosts := s.hosts ++ [run.scannedResult plan results] }

/-- The states a run reaches. -/
def LoopReachable (s : LoopState) : Prop := Reachable run.LoopStep run.start s

/-! ### What is reported, as a function of what happens -/

/-- What a task goes on to do ends with this result. -/
def resultOf (plan : HostPlan) (port : UInt16) : Phase → Option PortResult
  | .finished result => result
  | .connect => run.connectResult plan port
  | .syn =>
      match run.afterSyn plan port with
      | .finished result => result
      | _ => run.connectResult plan port

/-- The result of the task of a port. -/
def probeResult (plan : HostPlan) (port : UInt16) : Option PortResult :=
  run.resultOf plan port (run.firstPhase plan)

/-- The result of a host. -/
def hostResult (plan : HostPlan) : HostResult :=
  if run.skips plan then run.skippedResult plan
  else run.scannedResult plan (run.ports.filterMap (run.probeResult plan))

/-- A task on the way to the result of its port. -/
structure OnCourse (plan : HostPlan) (t : PortTask) : Prop where
  plan_eq : t.plan = plan
  result : run.resultOf plan t.port t.phase = run.probeResult plan t.port

/-- What the main task knows of the tasks. -/
def PcInv (s : LoopState) : Prop :=
  match s.pc with
  | .next => s.held = 0
  | .spawning plan left =>
      run.skips plan = false ∧ s.tasks.map PortTask.port ++ left = run.ports ∧
        ∀ t ∈ s.tasks, run.OnCourse plan t
  | .joining plan awaited results =>
      run.skips plan = false ∧ s.tasks.map PortTask.port = run.ports ∧
        (∀ t ∈ s.tasks, run.OnCourse plan t) ∧ awaited ≤ s.tasks.length ∧
        (∀ t ∈ s.tasks.take awaited, t.phase.held = 0) ∧
        results = (run.ports.take awaited).filterMap (run.probeResult plan)

/-- **The invariant**: free and held permits add up, the hosts already done are reported with
their results, and the tasks of the current host are on course. -/
structure LoopInv (s : LoopState) : Prop where
  permits : s.free + s.held = run.permits
  reported : ∃ past, run.hosts = past ++ s.pending ∧ s.hosts = past.map run.hostResult
  pc : run.PcInv s

variable {run}

/-! ### Steps keep the invariant -/

/-- A sum over the tasks, taken apart at one of them. -/
theorem sum_append (f : Phase → ℕ) (pre post : List PortTask) (t : PortTask) :
    ((pre ++ t :: post).map fun t => f t.phase).sum =
      (pre.map fun t => f t.phase).sum + f t.phase + (post.map fun t => f t.phase).sum := by
  rw [List.map_append, List.map_cons, List.sum_append, List.sum_cons, Nat.add_assoc]

/-- What a task does next keeps it on course. -/
theorem onCourse_advance {plan : HostPlan} {t : PortTask} (h : run.OnCourse plan t) :
    run.OnCourse plan (run.advance t) := by
  obtain ⟨rfl, hres⟩ := h
  unfold advance
  cases hphase : t.phase with
  | finished r => exact ⟨rfl, hres⟩
  | connect =>
      rw [hphase] at hres
      exact ⟨rfl, hres⟩
  | syn =>
      rw [hphase, resultOf] at hres
      refine ⟨rfl, ?_⟩
      dsimp only
      rw [← hres]
      cases hafter : run.afterSyn t.plan t.port with
      | finished r => rfl
      | connect => rfl
      | syn =>
          -- no task goes back to the SYN scan
          unfold afterSyn at hafter
          split at hafter
          · cases hafter
          · split at hafter <;> cases hafter

theorem port_advance (t : PortTask) : (run.advance t).port = t.port := by
  unfold advance
  cases t.phase <;> rfl

theorem loopInv_start : run.LoopInv run.start :=
  ⟨rfl, ⟨[], rfl, rfl⟩, rfl⟩

/-- A step of a task keeps what the main task knows. -/
theorem PcInv.task {s : LoopState} {pre post : List PortTask} {t : PortTask} {free : ℕ}
    (h : run.PcInv s) (htasks : s.tasks = pre ++ t :: post) (hrun : t.phase.held = 1) :
    run.PcInv { s with tasks := pre ++ run.advance t :: post, free := free } := by
  have hports : (pre ++ run.advance t :: post).map PortTask.port = s.tasks.map PortTask.port := by
    rw [htasks, List.map_append, List.map_append, List.map_cons, List.map_cons, port_advance]
  have hcourse : ∀ {plan}, (∀ x ∈ s.tasks, run.OnCourse plan x) →
      ∀ x ∈ pre ++ run.advance t :: post, run.OnCourse plan x := by
    intro plan hall x hx
    rw [htasks] at hall
    rcases List.mem_append.1 hx with hpre | hx
    · exact hall x (List.mem_append_left _ hpre)
    · rcases List.mem_cons.1 hx with rfl | hpost
      · exact onCourse_advance (hall t (by simp))
      · exact hall x (by simp [hpost])
  unfold PcInv at h ⊢
  cases hpc : s.pc with
  | next =>
      simp only [hpc] at h ⊢
      rw [LoopState.held, htasks, sum_append Phase.held] at h
      omega
  | spawning plan left =>
      simp only [hpc] at h ⊢
      exact ⟨h.1, hports ▸ h.2.1, hcourse h.2.2⟩
  | joining plan awaited results =>
      simp only [hpc] at h ⊢
      obtain ⟨hskip, hmap, hall, hle, hdone, hres⟩ := h
      rw [htasks] at hle hdone
      -- a task that still runs has not been awaited
      have hpre : awaited ≤ pre.length := by
        by_contra hlt
        have hmem : t ∈ (pre ++ t :: post).take awaited := by
          rw [List.take_append, List.take_of_length_le (by omega)]
          obtain ⟨k, hk⟩ : ∃ k, awaited - pre.length = k + 1 :=
            ⟨awaited - pre.length - 1, by omega⟩
          simp [hk]
        have := hdone t hmem
        omega
      have htake : ∀ x, (pre ++ x :: post).take awaited = pre.take awaited := by
        intro x
        rw [List.take_append_of_le_length hpre]
      refine ⟨hskip, hports ▸ hmap, hcourse hall, by simpa using hle, ?_, hres⟩
      rw [htake] at hdone ⊢
      exact hdone

/-- **A step keeps the invariant.** -/
theorem LoopInv.step {s t : LoopState} (h : run.LoopInv s) (hs : run.LoopStep s t) :
    run.LoopInv t := by
  obtain ⟨hpermits, ⟨past, hpast, hhosts⟩, hpcinv⟩ := h
  cases hs with
  | @skip plan left hpc hleft hskip =>
      rw [LoopState.pending, hpc] at hpast
      refine ⟨hpermits, ⟨past ++ [plan], ?_, ?_⟩, ?_⟩
      · simp only [LoopState.pending, hpc]
        rw [hpast, hleft, List.append_assoc, List.singleton_append]
      · simp [hhosts, hostResult, hskip]
      · simp only [PcInv, hpc] at hpcinv ⊢
        exact hpcinv
  | @begin plan left hpc hleft hskip =>
      simp only [PcInv, hpc] at hpcinv
      rw [LoopState.pending, hpc] at hpast
      refine ⟨?_, ⟨past, ?_, hhosts⟩, ?_⟩
      · rw [← hpermits, hpcinv]
        rfl
      · rw [hpast, LoopState.pending, hleft]
      · exact ⟨hskip, rfl, fun x hx => absurd hx List.not_mem_nil⟩
  | @spawn plan port ports free hpc hfree =>
      simp only [PcInv, hpc] at hpcinv
      simp only [LoopState.pending, hpc] at hpast
      obtain ⟨hskip, hports, hcourse⟩ := hpcinv
      have hheld : (run.firstPhase plan).held = 1 := by
        unfold firstPhase
        cases plan.ip <;> split_ifs <;> rfl
      refine ⟨?_, ⟨past, hpast, hhosts⟩, hskip, ?_, ?_⟩
      · have := sum_append Phase.held s.tasks [] ⟨plan, port, run.firstPhase plan⟩
        simp only [LoopState.held] at hpermits ⊢
        simp only [this, hheld, List.map_nil, List.sum_nil]
        omega
      · rw [← hports, List.map_append, List.append_assoc]
        rfl
      · intro x hx
        rcases List.mem_append.1 hx with hold | hnew
        · exact hcourse x hold
        · obtain rfl := List.mem_singleton.1 hnew
          exact ⟨rfl, rfl⟩
  | @task pre post x htasks hrun =>
      refine ⟨?_, ⟨past, hpast, hhosts⟩, hpcinv.task htasks hrun⟩
      have hle := (run.advance x).phase.held_le
      simp only [LoopState.held, htasks, sum_append Phase.held] at hpermits ⊢
      omega
  | @spawned plan hpc =>
      simp only [PcInv, hpc, List.append_nil] at hpcinv
      simp only [LoopState.pending, hpc] at hpast
      refine ⟨hpermits, ⟨past, hpast, hhosts⟩, hpcinv.1, hpcinv.2.1, hpcinv.2.2, Nat.zero_le _, ?_,
        ?_⟩
      · intro x hx
        rw [List.take_zero] at hx
        cases hx
      · rw [List.take_zero]
        rfl
  | @join plan awaited results x result hpc hget hfin =>
      simp only [PcInv, hpc] at hpcinv
      simp only [LoopState.pending, hpc] at hpast
      obtain ⟨hskip, hmap, hcourse, hle, hdone, hres⟩ := hpcinv
      have hport : run.ports[awaited]? = some x.port := by
        rw [← hmap, List.getElem?_map, hget]
        rfl
      have hresult : run.probeResult plan x.port = result := by
        rw [← (hcourse x (List.mem_of_getElem? hget)).result, hfin]
        rfl
      -- the results collected so far are those of the ports awaited, whatever the others do
      refine ⟨hpermits, ⟨past, hpast, hhosts⟩, hskip, hmap, hcourse, ?_, ?_, ?_⟩
      · exact (List.getElem?_eq_some_iff.1 hget).1
      · intro y hy
        rw [List.take_add_one, hget] at hy
        rcases List.mem_append.1 hy with hold | hnew
        · exact hdone y hold
        · obtain rfl := List.mem_singleton.1 hnew
          rw [hfin]
          rfl
      · rw [List.take_add_one, hport, List.filterMap_append, hres]
        congr 1
        cases hr : result <;> simp [hresult, hr]
  | @report plan results hpc =>
      simp only [PcInv, hpc] at hpcinv
      simp only [LoopState.pending, hpc] at hpast
      obtain ⟨hskip, hmap, -, -, hdone, hres⟩ := hpcinv
      refine ⟨hpermits, ⟨past ++ [plan], ?_, ?_⟩, ?_⟩
      · rw [hpast, List.append_assoc]
        rfl
      · have hall : run.ports.take s.tasks.length = run.ports := by
          rw [← hmap, ← List.length_map (f := PortTask.port), List.take_length]
        rw [hall] at hres
        simp [hhosts, hostResult, hskip, hres]
      · -- every task has been awaited, so no permit is held
        rw [List.take_length] at hdone
        refine List.sum_eq_zero fun n hn => ?_
        obtain ⟨x, hx, rfl⟩ := List.mem_map.1 hn
        exact hdone x hx

/-- **The invariant holds in every run.** -/
theorem loopInv_of_reachable {s : LoopState} (h : run.LoopReachable s) : run.LoopInv s :=
  h.invariant loopInv_start fun _ _ hinv hs => hinv.step hs

/-! ### Permits -/

/-- Each probe in flight holds a permit, and nothing else does. -/
theorem inFlight_eq_held (s : LoopState) : s.inFlight = s.held := by
  unfold LoopState.inFlight LoopState.held
  induction s.tasks with
  | nil => rfl
  | cons t tasks ih =>
      rw [List.map_cons, List.sum_cons, ← ih, List.filter_cons]
      cases t.phase with
      | finished result => simp [Phase.ended, Phase.held]
      | syn => simp [Phase.ended, Phase.held, Nat.add_comm]
      | connect => simp [Phase.ended, Phase.held, Nat.add_comm]

/-- **Bounded concurrency**: at every moment of every run at most as many probes are in flight as
there are permits, no permit is lost or made, and every host begins with all of them free. -/
theorem bounded_concurrency {s : LoopState} (h : run.LoopReachable s) :
    s.inFlight ≤ max 1 run.timing.maxParallel ∧
      s.free + s.held = max 1 run.timing.maxParallel ∧
      (s.pc = .next → s.free = max 1 run.timing.maxParallel) := by
  have hinv := loopInv_of_reachable h
  have hpermits : s.free + s.held = max 1 run.timing.maxParallel := by
    rw [hinv.permits, permits, Nat.max_comm]
  refine ⟨?_, hpermits, fun hnext => ?_⟩
  · rw [inFlight_eq_held]
    omega
  · -- between two hosts no task runs
    have hheld : s.held = 0 := by
      have hpc := hinv.pc
      simpa only [PcInv, hnext] using hpc
    omega

/-! ### Every run ends, with every host reported -/

variable (run) in
/-- The work left in a run: each step does some. -/
def work (s : LoopState) : ℕ :=
  s.left.length * (4 * run.ports.length + 3) + (s.tasks.map fun t => t.phase.work).sum +
    match s.pc with
    | .next => 0
    | .spawning _ left => 4 * left.length + s.tasks.length + 2
    | .joining _ awaited _ => s.tasks.length - awaited + 1

/-- What a running task does next leaves it less work. -/
theorem work_advance {t : PortTask} (h : t.phase.held = 1) :
    (run.advance t).phase.work < t.phase.work := by
  unfold advance
  cases hphase : t.phase with
  | finished r =>
      rw [hphase] at h
      cases h
  | connect => exact Nat.zero_lt_one
  | syn =>
      have hafter : ∀ p, run.afterSyn t.plan t.port = p → p.work < 2 := by
        intro p hp
        unfold afterSyn at hp
        split at hp
        · subst hp
          decide
        · split at hp <;> subst hp <;> simp [Phase.work]
      exact hafter _ rfl

/-- Every step does some of the work. -/
theorem loopStep_decreases {s t : LoopState} (hs : run.LoopStep s t) : run.work t < run.work s := by
  cases hs with
  | skip hpc hleft hskip =>
      simp only [work, hpc, hleft, List.length_cons, Nat.add_mul]
      omega
  | begin hpc hleft hskip =>
      simp only [work, hpc, hleft, List.length_cons, Nat.add_mul, List.map_nil, List.sum_nil,
        List.length_nil]
      omega
  | @spawn plan port ports free hpc hfree =>
      have hfirst : (run.firstPhase plan).work ≤ 2 := by
        cases run.firstPhase plan <;> simp [Phase.work]
      simp only [work, hpc, List.length_cons, List.length_append, List.length_nil,
        sum_append Phase.work, List.map_nil, List.sum_nil]
      omega
  | @task pre post x htasks hrun =>
      have hx : (run.advance x).phase.work < x.phase.work := work_advance hrun
      simp only [work, htasks, sum_append Phase.work, List.length_append, List.length_cons]
      omega
  | spawned hpc =>
      simp only [work, hpc, List.length_nil]
      omega
  | join hpc hget hfin =>
      have hlt := (List.getElem?_eq_some_iff.1 hget).1
      simp only [work, hpc]
      omega
  | report hpc =>
      simp only [work, hpc]
      omega

/-- A task that has not ended can do what it does next. -/
theorem exists_task_step {s : LoopState} {t : PortTask} (h : t ∈ s.tasks)
    (hrun : t.phase.held = 1) : ∃ s', run.LoopStep s s' := by
  obtain ⟨pre, post, htasks⟩ := List.append_of_mem h
  exact ⟨_, .task htasks hrun⟩

/-- A run can go on until all hosts are reported. -/
theorem exists_loopStep {s : LoopState} (h : run.LoopInv s) (hfin : ¬ s.Finished) :
    ∃ t, run.LoopStep s t := by
  have hpcinv := h.pc
  unfold PcInv at hpcinv
  cases hpc : s.pc with
  | next =>
      cases hleft : s.left with
      | nil => exact absurd ⟨hpc, hleft⟩ hfin
      | cons plan left =>
          cases hskip : run.skips plan with
          | true => exact ⟨_, .skip hpc hleft hskip⟩
          | false => exact ⟨_, .begin hpc hleft hskip⟩
  | spawning plan left =>
      cases left with
      | nil => exact ⟨_, .spawned hpc⟩
      | cons port ports =>
          cases hfree : s.free with
          | succ free => exact ⟨_, .spawn hpc hfree⟩
          | zero =>
              -- all permits are held, and there is at least one, so some task still runs
              have hheld : s.held ≠ 0 := by
                have := h.permits
                unfold permits at this
                omega
              obtain ⟨t, ht, hrun⟩ : ∃ t ∈ s.tasks, t.phase.held ≠ 0 := by
                by_contra hnone
                refine hheld (List.sum_eq_zero fun n hn => ?_)
                obtain ⟨x, hx, rfl⟩ := List.mem_map.1 hn
                exact by_contra fun hne => hnone ⟨x, hx, hne⟩
              have hle := t.phase.held_le
              exact exists_task_step ht (by omega)
  | joining plan awaited results =>
      simp only [hpc] at hpcinv
      obtain ⟨-, -, -, hle, -⟩ := hpcinv
      rcases Nat.lt_or_ge awaited s.tasks.length with hlt | hge
      · cases hphase : s.tasks[awaited].phase with
        | finished r => exact ⟨_, .join hpc (List.getElem?_eq_getElem hlt) hphase⟩
        | syn =>
            refine exists_task_step (List.getElem_mem hlt) ?_
            rw [hphase]
            rfl
        | connect =>
            refine exists_task_step (List.getElem_mem hlt) ?_
            rw [hphase]
            rfl
      · obtain rfl : awaited = s.tasks.length := Nat.le_antisymm hle hge
        exact ⟨_, .report hpc⟩

/-! ### The results of a host -/

variable (run) in
/-- The result of the SYN scan of a port, if one is made and returns. -/
def synResult (plan : HostPlan) (port : UInt16) : Option PortResult :=
  match run.sS, plan.ip with
  | true, .v4 target =>
      match scanBlocking target port run.timing (plan.task port).syn with
      | some ⟨.ok r, _⟩ => some r
      | _ => none
  | _, _ => none

/-- A port has the result of its SYN scan, or else that of its connect scan. -/
theorem probeResult_eq (plan : HostPlan) (port : UInt16) :
    run.probeResult plan port = (run.synResult plan port).or (run.connectResult plan port) := by
  unfold probeResult firstPhase synResult
  cases hsS : run.sS with
  | false => rfl
  | true =>
      cases hip : plan.ip with
      | v6 ip => rfl
      | v4 target =>
          simp only [if_true, resultOf, afterSyn, hip]
          rcases scanBlocking target port run.timing (plan.task port).syn with _ | ⟨_ | r, sent⟩
          · rfl
          · rfl
          · rfl

/-- A port whose SYN scan returns has its result. -/
theorem probeResult_of_scan {plan : HostPlan} {port : UInt16} {target : Ipv4Addr} {scan : SynRun}
    {r : PortResult} (hsS : run.sS = true) (hip : plan.ip = .v4 target)
    (hscan : scanBlocking target port run.timing (plan.task port).syn = some scan)
    (hr : scan.result = .ok r) : run.probeResult plan port = some r := by
  obtain ⟨result, sent⟩ := scan
  obtain rfl : result = .ok r := hr
  rw [probeResult_eq, synResult]
  simp only [hsS, hip, hscan, Option.some_or]

/-- Both scans report on the port they were asked for. -/
theorem isProbeOf_of_probeResult {plan : HostPlan} {port : UInt16} {r : PortResult}
    (h : run.probeResult plan port = some r) : r.IsProbeOf port := by
  rw [probeResult_eq] at h
  rcases Option.or_eq_some_iff.1 h with hsyn | ⟨-, hconnect⟩
  · unfold synResult at hsyn
    split at hsyn
    · split at hsyn
      · rename_i hscan
        cases hsyn
        exact scanBlocking_isProbeOf hscan rfl
      · cases hsyn
    · cases hsyn
  · obtain ⟨⟨started, script⟩, -, rfl⟩ := Option.map_eq_some_iff.1 hconnect
    exact connectScan_isProbeOf port run.timing script started

variable (run) in
/-- A result for each requested port and no other, in ascending order, each with the state of its
own port. -/
structure Complete (plan : HostPlan) (host : HostResult) : Prop where
  ascending : (host.ports.map PortResult.port).Pairwise (· < ·)
  requested : ∀ port, port ∈ host.ports.map PortResult.port ↔ port ∈ run.ports
  states : ∀ r ∈ host.ports, some r.state =
    ((run.synResult plan r.port).or (run.connectResult plan r.port)).map PortResult.state

theorem port_detectOn (plan : HostPlan) (r : PortResult) : (run.detectOn plan r).port = r.port := by
  unfold detectOn
  split_ifs <;> rfl

theorem state_detectOn (plan : HostPlan) (r : PortResult) :
    (run.detectOn plan r).state = r.state := by
  unfold detectOn
  split_ifs <;> rfl

/-- Sorting keeps the results and puts their ports in ascending order. -/
theorem sortByPort_spec (results : List PortResult) :
    (sortByPort results).Perm results ∧
      ((sortByPort results).map PortResult.port).Pairwise (· ≤ ·) := by
  refine ⟨List.mergeSort_perm _ _, ?_⟩
  rw [List.pairwise_map]
  have hsorted : (sortByPort results).Pairwise fun p q => decide (p.port ≤ q.port) = true :=
    List.pairwise_mergeSort (fun a b c hab hbc => by
      simp only [decide_eq_true_eq] at hab hbc ⊢
      exact UInt16.le_trans hab hbc)
      (fun a b => by simpa using UInt16.le_total a.port b.port) results
  exact hsorted.imp fun hab => of_decide_eq_true hab

/-- When every port has a result of its own, the results are those of the ports. -/
theorem map_port_filterMap {f : UInt16 → Option PortResult}
    (hport : ∀ port r, f port = some r → r.port = port) {ports : List UInt16}
    (hsome : ∀ port ∈ ports, ∃ r, f port = some r) :
    (ports.filterMap f).map PortResult.port = ports := by
  induction ports with
  | nil => rfl
  | cons port ports ih =>
      obtain ⟨r, hr⟩ := hsome port List.mem_cons_self
      rw [List.filterMap_cons_some hr, List.map_cons, hport port r hr,
        ih fun p hp => hsome p (List.mem_cons_of_mem _ hp)]

theorem ports_hostResult {plan : HostPlan} (hskip : run.skips plan = false) :
    (run.hostResult plan).ports =
      (sortByPort (run.ports.filterMap (run.probeResult plan))).map (run.detectOn plan) := by
  rw [hostResult, hskip]
  rfl

/-- A port of a host has been probed, before its service was detected. -/
theorem exists_probed {plan : HostPlan} {r : PortResult} (hr : r ∈ (run.hostResult plan).ports) :
    ∃ probed, r.port ∈ run.ports ∧ run.probeResult plan r.port = some probed ∧
      run.detectOn plan probed = r := by
  cases hskip : run.skips plan with
  | true =>
      rw [hostResult, if_pos hskip] at hr
      cases hr
  | false =>
      rw [ports_hostResult hskip] at hr
      obtain ⟨probed, hprobed, rfl⟩ := List.mem_map.1 hr
      obtain ⟨port, hport, hresult⟩ :=
        List.mem_filterMap.1 ((sortByPort_spec _).1.mem_iff.1 hprobed)
      obtain rfl : probed.port = port := (isProbeOf_of_probeResult hresult).port_eq
      rw [port_detectOn]
      exact ⟨probed, hport, hresult, rfl⟩

/-- **The results of a scanned host are complete**, when no connect scan panics. -/
theorem complete_hostResult (hnodup : run.ports.Nodup) {plan : HostPlan}
    (hconnect : ∀ port ∈ run.ports, (plan.task port).connect ≠ none)
    (hskip : run.skips plan = false) : run.Complete plan (run.hostResult plan) := by
  have hsome : ∀ port ∈ run.ports, ∃ r, run.probeResult plan port = some r := by
    intro port hport
    refine Option.isSome_iff_exists.1 ?_
    rw [probeResult_eq, Option.isSome_or, connectResult, Option.isSome_map,
      Option.isSome_iff_ne_none.2 (hconnect port hport), Bool.or_true]
  have hports := map_port_filterMap (fun _ _ h => (isProbeOf_of_probeResult h).port_eq) hsome
  obtain ⟨hperm, hle⟩ := sortByPort_spec (run.ports.filterMap (run.probeResult plan))
  have hperm' := hports ▸ hperm.map PortResult.port
  have hmap : (run.hostResult plan).ports.map PortResult.port =
      (sortByPort (run.ports.filterMap (run.probeResult plan))).map PortResult.port := by
    simp only [ports_hostResult hskip, List.map_map, Function.comp_def, port_detectOn]
  refine ⟨?_, ?_, ?_⟩
  · -- sorted and without duplicates is strictly ascending
    rw [hmap]
    have hne : ((sortByPort (run.ports.filterMap (run.probeResult plan))).map
        PortResult.port).Pairwise (· ≠ ·) := hperm'.nodup_iff.2 hnodup
    exact (hle.and hne).imp fun ⟨hab, hne⟩ => UInt16.lt_of_le_of_ne hab hne
  · intro port
    rw [hmap]
    exact hperm'.mem_iff
  · intro r hr
    rw [ports_hostResult hskip] at hr
    obtain ⟨x, hx, rfl⟩ := List.mem_map.1 hr
    obtain ⟨port, -, hres⟩ := List.mem_filterMap.1 (hperm.mem_iff.1 hx)
    rw [state_detectOn, port_detectOn, (isProbeOf_of_probeResult hres).port_eq, ← probeResult_eq,
      hres]
    rfl

/-- No run goes on forever. -/
theorem acc_of_reachable {s : LoopState} (h : run.LoopReachable s) :
    Acc (fun t s => run.LoopStep s t) s :=
  finite_runs (fun _ _ hinv hs => hinv.step hs) run.work (fun _ _ _ hs => loopStep_decreases hs)
    (loopInv_of_reachable h)

/-- A run can be brought to its end. -/
theorem exists_finished_of_reachable {s : LoopState} (h : run.LoopReachable s) :
    ∃ t, Reachable run.LoopStep s t ∧ t.Finished :=
  exists_finished (fun _ _ hinv hs => hinv.step hs) (fun _ hinv => exists_loopStep hinv)
    (loopInv_of_reachable h) (acc_of_reachable h)

/-- At its end a run has reported all hosts. -/
theorem hosts_of_finished {s : LoopState} (h : run.LoopReachable s) (hfin : s.Finished) :
    s.hosts = run.hosts.map run.hostResult := by
  obtain ⟨hpc, hleft⟩ := hfin
  obtain ⟨past, hpast, hhosts⟩ := (loopInv_of_reachable h).reported
  rw [LoopState.pending, hpc] at hpast
  simp only [hleft, List.append_nil] at hpast
  rw [hhosts, hpast]

/-- **The results of every host are complete, in every run**: a run ends whatever the order of its
steps, no run gets stuck, and the hosts it has reported at any time are the first ones, each with
the result that what happens determines. -/
theorem host_ports_complete (hnodup : run.ports.Nodup)
    (hconnect : ∀ plan ∈ run.hosts, ∀ port ∈ run.ports, (plan.task port).connect ≠ none)
    {s : LoopState} (h : run.LoopReachable s) :
    Acc (fun t s => run.LoopStep s t) s ∧
    (∃ t, Reachable run.LoopStep s t ∧ t.Finished) ∧
    (∃ past, run.hosts = past ++ s.pending ∧ s.hosts = past.map run.hostResult) ∧
    (s.Finished → s.hosts = run.hosts.map run.hostResult) ∧
    ∀ plan ∈ run.hosts, run.skips plan = false → run.Complete plan (run.hostResult plan) := by
  refine ⟨acc_of_reachable h, exists_finished_of_reachable h, (loopInv_of_reachable h).reported,
    hosts_of_finished h, ?_⟩
  intro plan hplan hskip
  exact complete_hostResult hnodup (hconnect plan hplan) hskip

/-- A run with `-Pn -sS` on one host, where the SYN scans panic. -/
def sampleRun : CliRun where
  pn := true
  pe := false
  sS := true
  sV := false
  ports := [443, 22]
  timing := Timing.new 3
  hosts := [{
    ip := .v4 ⟨192, 168, 0, 1⟩
    hostname := none
    icmp := ⟨.delivering 4321 [], [], 0⟩
    tcp := ⟨.down, [], none⟩
    task := fun _ => {
      syn := {
        started := 0
        localAddr := .ok (.v4 ⟨192, 168, 0, 7⟩)
        random := none
        ipIds := (1, 2)
        socket := .ok ()
        setHeaderIncluded := .ok ()
        setReadTimeout := .ok ()
        setWriteTimeout := .ok ()
        sendTo := fun _ => .ok ()
        entered := 0
        calls := [] }
      connect := some (0, fun _ => ⟨.connected, fromMillis 20, 0⟩) }
    banner := fun _ => none
    startedAt := ⟨0, 0⟩
    endedAt := ⟨1, 0⟩
    elapsed := fromSecs 1 }]

/-- Such a run ends with the one host and both ports reported. -/
theorem host_ports_complete_sample :
    ∃ t, sampleRun.LoopReachable t ∧ t.Finished ∧
      t.hosts = sampleRun.hosts.map sampleRun.hostResult ∧
      ∀ plan ∈ sampleRun.hosts, sampleRun.Complete plan (sampleRun.hostResult plan) := by
  have hnodup : sampleRun.ports.Nodup := by decide
  have hconnect : ∀ plan ∈ sampleRun.hosts, ∀ port ∈ sampleRun.ports,
      (plan.task port).connect ≠ none := by
    intro plan hplan port _
    obtain rfl := List.mem_singleton.1 hplan
    exact Option.some_ne_none _
  obtain ⟨-, ⟨t, ht, hfin⟩, -⟩ := host_ports_complete hnodup hconnect Reachable.init
  obtain ⟨-, -, -, hhosts, hcomplete⟩ := host_ports_complete hnodup hconnect ht
  refine ⟨t, ht, hfin, hhosts hfin, fun plan hplan => hcomplete plan hplan ?_⟩
  obtain rfl := List.mem_singleton.1 hplan
  rfl

/-- Such a run with both SYN scans under way. -/
theorem bounded_concurrency_sample :
    ∃ s, sampleRun.LoopReachable s ∧ s.inFlight = 2 ∧
      s.inFlight ≤ max 1 sampleRun.timing.maxParallel ∧
      s.free + s.held = max 1 sampleRun.timing.maxParallel ∧
      (s.pc = .next → s.free = max 1 sampleRun.timing.maxParallel) := by
  have hstart : sampleRun.LoopReachable sampleRun.start := Reachable.init
  have hbegun := hstart.step (.begin rfl rfl rfl)
  have hone := hbegun.step (.spawn rfl rfl)
  have htwo := hone.step (.spawn rfl rfl)
  exact ⟨_, htwo, rfl, bounded_concurrency htwo⟩

end CliRun

end Rnmap
