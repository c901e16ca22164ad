/-
**The command line as a whole.**

A call rewrites and parses its arguments, resolves its targets, picks its ports and its timing, and
then scans one host after the other; at the end it prints the normal report and writes the files
that were asked for.  What is around the program is given as a world: the parser of the flags, the
resolver, the clock, what happens to the hosts, and what goes wrong with the printing and the
writing.  The steps of a call are those of the host loop, with what they send, between those of the
main function.  What is told on standard error is left out, and with it the panic of a message that
cannot be written there.

Main definitions:

* `Rnmap.Cli`, `Rnmap.Failure` — the flags of a call, and how it fails;
* `Rnmap.World`, `Rnmap.World.prepare` — what is around a call, and what is done before the scan;
* `Rnmap.Prepared.script`, `Rnmap.World.report`, `Rnmap.Prepared.writes` — the scan, its report,
  and the files that are written;
* `Rnmap.ProgramState`, `Rnmap.World.Step` — the states and the steps of a call;
* `Rnmap.World.outcome` — how a call ends, as a function of its world;
* `Rnmap.World.FailsUnseen`, `Rnmap.World.Wrote` — what is seen of a call that is refused, and how
  the files are between two writes.

Main results:

* `Rnmap.World.programInv_of_reaches` — the invariant of every run;
* `Rnmap.World.ends_as_outcome` — **every run of a call ends, and ends as its world determines**;
* `Rnmap.World.refused_or_scanned` — **a call is refused as a whole or goes through its scan**;
* `Rnmap.World.files_of_reaches` — **what a call leaves behind**;
* `Rnmap.World.files_in_order` — **the files are written in their order and one at a time**.
-/

import Rnmap.Writes
import Rnmap.CliArgs
import Rnmap.Hostnames
import Rnmap.TopPorts
import Rnmap.OutputFiles
import Rnmap.JsonDocument
import Rnmap.Traffic

set_option relaxedAutoImplicit false
set_option autoImplicit false

namespace Rnmap

open Runs

/-! ### Calls -/

/-- The flags and values of a call. -/
structure Cli where
  targets : List Text
  sS : Bool
  sV : Bool
  pn : Bool
  ps : Option Text
  pe : Bool
  ports : Option Text
  topPorts : Option ℕ
  timing : UInt8
  concurrency : Option ℕ
  noDns : Bool
  «open» : Bool
  oN : Option Text
  oX : Option Text
  oJ : Option Text
  oA : Option Text
  maxRetries : Option UInt32
  hostTimeout : Option UInt64

/-- How a call fails: it panics, the parser of the flags ends it, or there is an error, with the
message in front and its cause. -/
inductive Failure
  | panicked
  | usage
  | error (message : Text) (cause : Option Error)

/-- `.context(..)`. -/
def context {α : Type} (message : String) (x : Except Error α) : Except Failure α :=
  x.mapError fun e => .error message.toList (some e)

/-- The error `?` makes of an `std::io::Error`. -/
def Failure.ofIo (e : IoError) : Failure := .error e.display none

/-- What is around a call. -/
structure World where
  /-- The arguments, the name of the program among them. -/
  args : List Text
  /-- `Cli::parse_from`; `none` when it ends the program. -/
  parseFrom : List Text → Option Cli
  resolver : Resolver
  /-- What reverse lookups find. -/
  lookupAddr : IpAddr → Option Text
  /-- What happens to each of the hosts, at its address and under its name. -/
  happens : ℕ → HostScript
  startedAt : DateTime
  endedAt : DateTime
  elapsed : Duration
  fmt : Formats
  serde : Serde
  /-- What is printed before printing fails, if it does. -/
  printed : Option Text
  /-- The file a path leads to. -/
  file : Text → ℕ
  /-- What goes wrong with each of the writes. -/
  fault : ℕ → Option (Writes.Fault Text IoError)

namespace Cli

/-- The timing of a call: a template, and what overrides it. -/
def scanTiming (cli : Cli) : Timing :=
  let timing := Timing.new cli.timing
  { timing with
    maxParallel := cli.concurrency.getD timing.maxParallel
    maxRetries := cli.maxRetries.getD timing.maxRetries
    hostTimeout := (cli.hostTimeout.map fun secs => fromSecs secs.toNat).getD timing.hostTimeout }

/-- The ports of a TCP ping. -/
def probePorts (cli : Cli) : Except Failure (List UInt16) :=
  match cli.ps with
  | some spec => (context "parsing -PS ports" (PortSpec.parse spec)).map PortSpec.ports
  | none => .ok [80, 443, 22, 3389]

/-- What discovery fails with: `-PS` is parsed for each host that is pinged over TCP. -/
def pingFault (cli : Cli) : Option Failure :=
  if cli.pn || cli.pe then none
  else
    match cli.probePorts with
    | .error e => some e
    | .ok _ => none

/-- The paths of the files a call asks for, in the order they are written. -/
def paths (cli : Cli) : List Text :=
  (cli.oA.elim [] fun p => BasenameRun.extensions.map (UnixPath.withExtension p)) ++
    cli.oN.toList ++ cli.oX.toList ++ cli.oJ.toList

end Cli

/-- A call that has resolved its targets and picked its ports. -/
structure Prepared where
  cli : Cli
  targets : TargetSpec
  portSpec : PortSpec

/-- The most permits a semaphore has, on 64 bits. -/
def maxPermits : ℕ := 2 ^ 61 - 1

namespace World

variable (w : World)

/-- What is done with the flags before the scan. -/
def accept (cli : Cli) : Except Failure Prepared :=
  if cli.targets.isEmpty then
    .error (.error "no targets specified — try `rnmap --help`".toList none)
  else do
    let targets ← context "parsing targets" (parseMany w.resolver cli.targets (!cli.noDns))
    let portSpec ← context "parsing -p ports" (portSet cli.ports cli.topPorts)
    -- `Semaphore::new` panics
    if maxPermits < max cli.scanTiming.maxParallel 1 then .error .panicked
    else .ok ⟨cli, targets, portSpec⟩

/-- What is done before the scan. -/
def prepare : Except Failure Prepared :=
  match rewriteNmapArgs w.args with
  | none => .error .panicked
  | some rewritten =>
      match w.parseFrom rewritten with
      | none => .error .usage
      | some cli => w.accept cli

/-- The report of a call. -/
def report (hosts : List HostResult) : ScanReport where
  scanner := "rnmap".toList
  version := "0.1.0".toList
  args := w.args
  startedAt := w.startedAt
  endedAt := w.endedAt
  elapsed := w.elapsed
  hosts := hosts

end World

namespace Prepared

variable (w : World) (p : Prepared)

/-- The scan of a call. -/
def script : ScanScript where
  pn := p.cli.pn
  pe := p.cli.pe
  sS := p.cli.sS
  sV := p.cli.sV
  pingPorts := p.cli.probePorts.toOption.getD []
  ports := p.portSpec.ports
  timing := p.cli.scanTiming
  hosts := p.targets.addrs.mapIdx fun i r =>
    { w.happens i with ip := r.ip, hostname := hostnameFor w.lookupAddr r.label r.ip }

/-- What is printed. -/
def normal (hosts : List HostResult) : Text :=
  renderNormal w.fmt (w.report hosts) p.cli.open

/-- The files that are written: paths and contents. -/
def writes (hosts : List HostResult) : List (Text × Text) :=
  let report := w.report hosts
  (p.cli.oA.elim [] fun path =>
      BasenameRun.writes ⟨w.fmt, w.serde, report, p.cli.open, path⟩) ++
    (p.cli.oN.map fun path => (path, p.normal w hosts)).toList ++
    (p.cli.oX.map fun path => (path, renderXml w.fmt report p.cli.open)).toList ++
    (p.cli.oJ.map fun path => (path, renderJson w.serde report p.cli.open)).toList

theorem map_fst_writes (hosts : List HostResult) :
    (p.writes w hosts).map Prod.fst = p.cli.paths := by
  simp only [writes, Cli.paths, List.map_append]
  congr 1
  · congr 1
    · congr 1
      · cases p.cli.oA with
        | none => rfl
        | some path => rfl
      · cases p.cli.oN with
        | none => rfl
        | some path => rfl
    · cases p.cli.oX with
      | none => rfl
      | some path => rfl
  · cases p.cli.oJ with
    | none => rfl
    | some path => rfl

end Prepared

/-! ### The steps of a call -/

/-- How far a call has come. -/
inductive Progress
  | called
  | scanning (p : Prepared) (s : LoopState)
  | writing (p : Prepared) (left : List (Text × Text)) (done : ℕ)
  | ended (result : Except Failure Unit)

/-- A state of a call: how far it has come, what it has sent, what it has printed, if it has come to
this, and the contents of the files. -/
structure ProgramState where
  progress : Progress
  sent : List Contact
  stdout : Option Text
  files : ℕ → Option Text

/-- A call that is made. -/
def ProgramState.start (files : ℕ → Option Text) : ProgramState := ⟨.called, [], none, files⟩

/-- **The steps of a call**: it refuses its arguments or begins to scan; it fails at the first host
it cannot ping, or makes a step of the host loop; it prints the report, or fails to; it writes a
file, or fails to; and it ends. -/
inductive World.Step (w : World) : ProgramState → ProgramState → Prop
  | refuse {s : ProgramState} {e : Failure} :
      s.progress = .called → w.prepare = .error e →
      w.Step s { s with progress := .ended (.error e) }
  | begin {s : ProgramState} {p : Prepared} :
      s.progress = .called → w.prepare = .ok p →
      w.Step s { s with progress := .scanning p (p.script w).run.start }
  | badPing {s : ProgramState} {p : Prepared} {l : LoopState} {e : Failure} :
      s.progress = .scanning p l → l.pc = .next → l.left ≠ [] → p.cli.pingFault = some e →
      w.Step s { s with progress := .ended (.error e) }
  | scan {s : ProgramState} {p : Prepared} {l l' : LoopState} {log : List Contact} :
      s.progress = .scanning p l → (l.pc = .next → p.cli.pingFault = none) →
      (p.script w).Emits l log l' →
      w.Step s { s with progress := .scanning p l', sent := s.sent ++ log }
  | print {s : ProgramState} {p : Prepared} {l : LoopState} :
      s.progress = .scanning p l → l.Finished → w.printed = none →
      w.Step s { s with
        progress := .writing p (p.writes w l.hosts) 0
        stdout := some (p.normal w l.hosts) }
  | printFails {s : ProgramState} {p : Prepared} {l : LoopState} {text : Text} :
      s.progress = .scanning p l → l.Finished → w.printed = some text →
      w.Step s { s with progress := .ended (.error .panicked), stdout := some text }
  | write {s : ProgramState} {p : Prepared} {path content : Text} {left : List (Text × Text)}
      {done : ℕ} :
      s.progress = .writing p ((path, content) :: left) done → w.fault done = none →
      w.Step s { s with
        progress := .writing p left (done + 1)
        files := Writes.put s.files (w.file path) content }
  | writeFails {s : ProgramState} {p : Prepared} {path content : Text} {left : List (Text × Text)}
      {done : ℕ} {f : Writes.Fault Text IoError} :
      s.progress = .writing p ((path, content) :: left) done → w.fault done = some f →
      w.Step s { s with
        progress := .ended (.error (.ofIo f.error))
        files := f.leave s.files (w.file path) }
  | finish {s : ProgramState} {p : Prepared} {done : ℕ} :
      s.progress = .writing p [] done → w.Step s { s with progress := .ended (.ok ()) }

/-! ### How a call ends -/

/-- The end of a call: its result, what it has printed, if it has come to this, and the contents of
the files. -/
structure Outcome where
  result : Except Failure Unit
  stdout : Option Text
  files : ℕ → Option Text

namespace World

variable (w : World)

/-- The end of a call that has some files left to write. -/
def writeOut (stdout : Option Text) (done : ℕ) (left : List (Text × Text))
    (files : ℕ → Option Text) : Outcome :=
  let written := Writes.perform w.fault done (left.map fun f => (w.file f.1, f.2)) files
  ⟨written.1.mapError .ofIo, stdout, written.2⟩

/-- The end of a call that has scanned its hosts. -/
def publish (p : Prepared) (hosts : List HostResult) (files : ℕ → Option Text) : Outcome :=
  match w.printed with
  | some text => ⟨.error .panicked, some text, files⟩
  | none => w.writeOut (some (p.normal w hosts)) 0 (p.writes w hosts) files

/-- The results of the hosts of a call. -/
def results (p : Prepared) : List HostResult :=
  (p.script w).run.hosts.map (p.script w).run.hostResult

/-- The end of a call whose arguments are accepted. -/
def scanOutcome (p : Prepared) (files : ℕ → Option Text) : Outcome :=
  match p.cli.pingFault with
  | some e => ⟨.error e, none, files⟩
  | none => w.publish p (w.results p) files

/-- **How a call ends.** -/
def outcome (files : ℕ → Option Text) : Outcome :=
  match w.prepare with
  | .error e => ⟨.error e, none, files⟩
  | .ok p => w.scanOutcome p files

/-- How a call goes on to end. -/
def outlook (s : ProgramState) : Outcome :=
  match s.progress with
  | .called => w.outcome s.files
  | .scanning p _ => w.scanOutcome p s.files
  | .writing _ left done => w.writeOut s.stdout done left s.files
  | .ended result => ⟨result, s.stdout, s.files⟩

/-- What is wrong with the arguments of a call. -/
def refusal : Option Failure :=
  match w.prepare with
  | .error e => some e
  | .ok p => p.cli.pingFault

/-- The files a call may write. -/
def asked : List ℕ :=
  match w.prepare with
  | .error _ => []
  | .ok p => p.cli.paths.map w.file

/-- The arguments of a call are refused before it has done anything. -/
structure Refused (files : ℕ → Option Text) (s : ProgramState) : Prop where
  refusal : w.refusal ≠ none
  sent : s.sent = []
  stdout : s.stdout = none
  files_eq : s.files = files

/-- A call has scanned all its hosts. -/
def Scanned (p : Prepared) (s : ProgramState) : Prop :=
  w.prepare = .ok p ∧ p.cli.pingFault = none ∧ s.stdout.isSome = true ∧
    ∃ l, (p.script w).Sends l s.sent ∧ l.Finished

/-- What is known of a call by how far it has come. -/
def ProgressInv (files : ℕ → Option Text) (s : ProgramState) : Prop :=
  match s.progress with
  | .called => s = .start files
  | .scanning p l => w.prepare = .ok p ∧ (p.script w).Sends l s.sent ∧ s.stdout = none ∧
      s.files = files ∧ (p.cli.pingFault ≠ none → l = (p.script w).run.start ∧ s.sent = [])
  | .writing p left _ => w.Scanned p s ∧ left.map Prod.fst <:+ p.cli.paths
  | .ended _ => w.Refused files s ∨ ∃ p, w.Scanned p s

/-- **The invariant**: a call goes on to end as its world determines, and the files it may not write
are as they were. -/
structure ProgramInv (files : ℕ → Option Text) (s : ProgramState) : Prop where
  outlook_eq : w.outlook s = w.outcome files
  untouched : ∀ f ∉ w.asked, s.files f = files f
  known : w.ProgressInv files s

variable {w}

/-! ### What is accepted -/

/-- A call that is accepted has its targets, its ports and its permits. -/
theorem accept_eq_ok {cli : Cli} {p : Prepared} (h : w.accept cli = .ok p) :
    p.cli = cli ∧ parseMany w.resolver cli.targets (!cli.noDns) = .ok p.targets ∧
      portSet cli.ports cli.topPorts = .ok p.portSpec ∧
      max cli.scanTiming.maxParallel 1 ≤ maxPermits := by
  unfold accept at h
  split at h
  · cases h
  · cases htargets : parseMany w.resolver cli.targets (!cli.noDns) with
    | error e =>
        rw [htargets] at h
        cases h
    | ok targets =>
        cases hports : portSet cli.ports cli.topPorts with
        | error e =>
            rw [htargets, hports] at h
            cases h
        | ok ports =>
            rw [htargets, hports] at h
            change (if maxPermits < _ then _ else Except.ok _) = _ at h
            split_ifs at h with hpermits
            cases h
            exact ⟨rfl, rfl, rfl, Nat.le_of_not_lt hpermits⟩

theorem prepare_eq_ok {p : Prepared} (h : w.prepare = .ok p) : w.accept p.cli = .ok p := by
  unfold prepare at h
  split at h
  · cases h
  · split at h
    · cases h
    · rwa [(accept_eq_ok h).1]

/-- A call that is accepted has some host. -/
theorem hosts_ne_nil {p : Prepared} (h : w.prepare = .ok p) : (p.script w).hosts ≠ [] := by
  obtain ⟨-, htargets, -⟩ := accept_eq_ok (prepare_eq_ok h)
  obtain ⟨all, -, hne, hspec⟩ := parseMany_eq_ok_iff.1 htargets
  rw [Prepared.script, hspec]
  simpa using hne

/-! ### Steps keep the invariant -/

theorem programInv_start (files : ℕ → Option Text) : w.ProgramInv files (.start files) :=
  ⟨rfl, fun _ _ => rfl, rfl⟩

/-- The files a list of writes is about are files the call may write. -/
theorem file_mem_asked {p : Prepared} (h : w.prepare = .ok p) {left : List (Text × Text)}
    (hleft : left.map Prod.fst <:+ p.cli.paths) {path content : Text}
    (hmem : (path, content) ∈ left) : w.file path ∈ w.asked := by
  rw [asked, h]
  exact List.mem_map_of_mem (hleft.subset (List.mem_map_of_mem hmem))

/-- At the end of the host loop the hosts have their results. -/
theorem hosts_eq_results {p : Prepared} {l : LoopState} {log : List Contact}
    (h : (p.script w).Sends l log) (hfin : l.Finished) : l.hosts = w.results p :=
  CliRun.hosts_of_finished
    (reachable_of_logged (fun _ _ _ hemits => ScanScript.loopStep_of_emits hemits) h) hfin

/-- Before the first host there is a host to scan. -/
theorem start_not_finished {p : Prepared} (h : w.prepare = .ok p) :
    ¬ (p.script w).run.start.Finished := by
  rintro ⟨-, hleft⟩
  exact hosts_ne_nil h (List.map_eq_nil_iff.1 hleft)

/-- A call whose host loop is at its end has no fault in its ping ports. -/
theorem pingFault_of_finished {files : ℕ → Option Text} {s : ProgramState} {p : Prepared}
    {l : LoopState} (hinv : w.ProgramInv files s) (hs : s.progress = .scanning p l)
    (hfin : l.Finished) : p.cli.pingFault = none := by
  have hprogress := hinv.known
  simp only [ProgressInv, hs] at hprogress
  obtain ⟨hprepare, -, -, -, hstart⟩ := hprogress
  by_contra hfault
  rw [(hstart hfault).1] at hfin
  exact start_not_finished hprepare hfin

/-- **A step keeps the invariant.** -/
theorem ProgramInv.step {files : ℕ → Option Text} {s t : ProgramState}
    (hinv : w.ProgramInv files s) (h : w.Step s t) : w.ProgramInv files t := by
  have houtlook := hinv.outlook_eq
  have hprogress := hinv.known
  cases h with
  | @refuse e hs hprepare =>
      simp only [ProgressInv, hs] at hprogress
      subst hprogress
      refine ⟨?_, fun _ _ => rfl, .inl ⟨?_, rfl, rfl, rfl⟩⟩
      · simp only [outlook, outcome, hprepare]
        rfl
      · simp [refusal, hprepare]
  | @begin p hs hprepare =>
      simp only [ProgressInv, hs] at hprogress
      subst hprogress
      refine ⟨?_, fun _ _ => rfl, hprepare, Reachable.init, rfl, rfl, fun _ => ⟨rfl, rfl⟩⟩
      simp only [outlook, outcome, hprepare]
      rfl
  | @badPing p l e hs hnext hleft hfault =>
      simp only [ProgressInv, hs] at hprogress
      obtain ⟨hprepare, -, hstdout, hfiles, hstart⟩ := hprogress
      refine ⟨?_, hinv.untouched, .inl ⟨?_, ?_, hstdout, hfiles⟩⟩
      · simp only [outlook, hs, scanOutcome, hfault] at houtlook
        simp only [outlook, ← houtlook, hstdout]
      · simp [refusal, hprepare, hfault]
      · exact (hstart (by simp [hfault])).2
  | @scan p l l' log hs hping hemits =>
      simp only [ProgressInv, hs] at hprogress
      obtain ⟨hprepare, hsends, hstdout, hfiles, hstart⟩ := hprogress
      refine ⟨?_, hinv.untouched, hprepare, hsends.step ⟨log, hemits, rfl⟩, hstdout, hfiles, ?_⟩
      · simpa only [outlook, hs] using houtlook
      · -- the first step of the loop already asks for the ports
        intro hfault
        rw [(hstart hfault).1] at hping
        exact absurd (hping rfl) hfault
  | @print p l hs hfin hprinted =>
      have hfault := pingFault_of_finished hinv hs hfin
      simp only [ProgressInv, hs] at hprogress
      obtain ⟨hprepare, hsends, hstdout, hfiles, -⟩ := hprogress
      refine ⟨?_, hinv.untouched, ⟨hprepare, hfault, rfl, l, hsends, hfin⟩, ?_⟩
      · simp only [outlook, hs, scanOutcome, hfault, publish, hprinted] at houtlook
        simp only [outlook, ← houtlook, hosts_eq_results hsends hfin]
      · rw [Prepared.map_fst_writes]
  | @printFails p l text hs hfin hprinted =>
      have hfault := pingFault_of_finished hinv hs hfin
      simp only [ProgressInv, hs] at hprogress
      obtain ⟨hprepare, hsends, hstdout, hfiles, -⟩ := hprogress
      refine ⟨?_, hinv.untouched, .inr ⟨p, hprepare, hfault, rfl, l, hsends, hfin⟩⟩
      simp only [outlook, hs, scanOutcome, hfault, publish, hprinted] at houtlook
      simp only [outlook, ← houtlook]
  | @write p path content left done hs hfault =>
      simp only [ProgressInv, hs] at hprogress
      obtain ⟨hscanned, hleft⟩ := hprogress
      refine ⟨?_, ?_, hscanned, ?_⟩
      · simp only [outlook, hs, writeOut, List.map_cons, Writes.perform, hfault] at houtlook
        simp only [outlook, writeOut, ← houtlook]
      · intro f hf
        have hne : f ≠ w.file path := fun heq =>
          hf (heq ▸ file_mem_asked hscanned.1 hleft List.mem_cons_self)
        exact (Writes.put_of_ne hne content).trans (hinv.untouched f hf)
      · exact (List.suffix_cons _ _).trans hleft
  | @writeFails p path content left done fault hs hfault =>
      simp only [ProgressInv, hs] at hprogress
      obtain ⟨hscanned, hleft⟩ := hprogress
      refine ⟨?_, ?_, .inr ⟨p, hscanned⟩⟩
      · simp only [outlook, hs, writeOut, List.map_cons, Writes.perform, hfault] at houtlook
        simp only [outlook, ← houtlook]
        rfl
      · intro f hf
        have hne : f ≠ w.file path := fun heq =>
          hf (heq ▸ file_mem_asked hscanned.1 hleft List.mem_cons_self)
        exact (fault.leave_of_ne hne).trans (hinv.untouched f hf)
  | @finish p done hs =>
      simp only [ProgressInv, hs] at hprogress
      refine ⟨?_, hinv.untouched, .inr ⟨p, hprogress.1⟩⟩
      simp only [outlook, hs, writeOut, List.map_nil, Writes.perform] at houtlook
      simp only [outlook, ← houtlook]
      rfl

/-- The states a call reaches. -/
def Reaches (w : World) (files : ℕ → Option Text) (s : ProgramState) : Prop :=
  Reachable w.Step (.start files) s

/-- **The invariant holds in every run.** -/
theorem programInv_of_reaches {files : ℕ → Option Text} {s : ProgramState}
    (h : w.Reaches files s) : w.ProgramInv files s :=
  h.invariant (programInv_start files) fun _ _ hinv hs => hinv.step hs

/-! ### Every run of a call ends -/

/-- The work left in a call. -/
def work (w : World) (s : ProgramState) : ℕ :=
  match s.progress with
  | .called =>
      match w.prepare with
      | .error _ => 1
      | .ok p => (p.script w).run.work (p.script w).run.start + p.cli.paths.length + 3
  | .scanning p l => (p.script w).run.work l + p.cli.paths.length + 2
  | .writing _ left _ => left.length + 1
  | .ended _ => 0

/-- Every step does some of the work. -/
theorem step_decreases {s t : ProgramState} (h : w.Step s t) : w.work t < w.work s := by
  cases h with
  | refuse hs hprepare => simp [work, hs, hprepare]
  | begin hs hprepare => simp [work, hs, hprepare]
  | badPing hs _ _ _ => simp [work, hs]
  | scan hs _ hemits =>
      have hless := CliRun.loopStep_decreases (ScanScript.loopStep_of_emits hemits)
      simp only [work, hs]
      omega
  | @print p l hs _ _ =>
      have hlen := congrArg List.length (Prepared.map_fst_writes w p l.hosts)
      rw [List.length_map] at hlen
      simp only [work, hs]
      omega
  | printFails hs _ _ => simp [work, hs]
  | write hs _ => simp [work, hs]
  | writeFails hs _ => simp [work, hs]
  | finish hs => simp [work, hs]

/-- A call has ended. -/
def Ended (s : ProgramState) : Prop := ∃ result, s.progress = .ended result

/-- A call can go on until it has ended. -/
theorem exists_step {files : ℕ → Option Text} {s : ProgramState} (hinv : w.ProgramInv files s)
    (hend : ¬ Ended s) : ∃ t, w.Step s t := by
  cases hs : s.progress with
  | ended result => exact absurd ⟨result, hs⟩ hend
  | called =>
      cases hprepare : w.prepare with
      | error e => exact ⟨_, .refuse hs hprepare⟩
      | ok p => exact ⟨_, .begin hs hprepare⟩
  | scanning p l =>
      have hknown := hinv.known
      simp only [ProgressInv, hs] at hknown
      obtain ⟨hprepare, hsends, -⟩ := hknown
      by_cases hfin : l.Finished
      · cases hprinted : w.printed with
        | none => exact ⟨_, .print hs hfin hprinted⟩
        | some text => exact ⟨_, .printFails hs hfin hprinted⟩
      · have hloop := (ScanScript.spends_of_sends hsends).1
        obtain ⟨l', hstep⟩ := CliRun.exists_loopStep hloop hfin
        obtain ⟨log, hemits⟩ := ScanScript.exists_emits hloop hstep
        by_cases hping : l.pc = .next → p.cli.pingFault = none
        · exact ⟨_, .scan hs hping hemits⟩
        · obtain ⟨hnext, hfault⟩ := Classical.not_imp.1 hping
          obtain ⟨e, he⟩ := Option.ne_none_iff_exists'.1 hfault
          exact ⟨_, .badPing hs hnext (fun hleft => hfin ⟨hnext, hleft⟩) he⟩
  | writing p left done =>
      cases left with
      | nil => exact ⟨_, .finish hs⟩
      | cons file left =>
          obtain ⟨path, content⟩ := file
          cases hfault : w.fault done with
          | none => exact ⟨_, .write hs hfault⟩
          | some f => exact ⟨_, .writeFails hs hfault⟩

/-- No run of a call goes on forever. -/
theorem acc_of_reaches {files : ℕ → Option Text} {s : ProgramState} (h : w.Reaches files s) :
    Acc (fun t s => w.Step s t) s :=
  finite_runs (fun _ _ hinv hs => hinv.step hs) w.work (fun _ _ _ hs => step_decreases hs)
    (programInv_of_reaches h)

/-- A call can be brought to its end. -/
theorem exists_ended {files : ℕ → Option Text} {s : ProgramState} (h : w.Reaches files s) :
    ∃ t, Reachable w.Step s t ∧ Ended t :=
  exists_finished (fun _ _ hinv hs => hinv.step hs) (fun _ hinv => exists_step hinv)
    (programInv_of_reaches h) (acc_of_reaches h)

/-- At its end a call has come to its outcome. -/
theorem outcome_of_ended {files : ℕ → Option Text} {s : ProgramState} (h : w.Reaches files s)
    {result : Except Failure Unit} (hend : s.progress = .ended result) :
    w.outcome files = ⟨result, s.stdout, s.files⟩ := by
  rw [← (programInv_of_reaches h).outlook_eq, outlook, hend]

/-- Some run of a call comes to its end. -/
theorem exists_reaches_ended (w : World) (files : ℕ → Option Text) :
    ∃ t result, w.Reaches files t ∧ t.progress = .ended result := by
  have hstart : w.Reaches files (.start files) := Reachable.init
  obtain ⟨t, ht, result, hend⟩ := exists_ended hstart
  exact ⟨t, result, ht, hend⟩

/-- A call whose arguments are accepted has come to the outcome of its scan. -/
theorem scanOutcome_of_ended {files : ℕ → Option Text} {s : ProgramState} (h : w.Reaches files s)
    {result : Except Failure Unit} (hend : s.progress = .ended result) {p : Prepared}
    (hprepare : w.prepare = .ok p) : w.scanOutcome p files = ⟨result, s.stdout, s.files⟩ := by
  rw [← outcome_of_ended h hend, outcome, hprepare]

/-- **Every run of a call ends, and ends as its world determines**, in whatever order the tasks of
its ports are scheduled. -/
theorem ends_as_outcome {files : ℕ → Option Text} {s : ProgramState} (h : w.Reaches files s) :
    Acc (fun t s => w.Step s t) s ∧
    (∃ t, Reachable w.Step s t ∧ Ended t) ∧
    ∀ result, s.progress = .ended result → w.outcome files = ⟨result, s.stdout, s.files⟩ :=
  ⟨acc_of_reaches h, exists_ended h, fun _ hend => outcome_of_ended h hend⟩

/-! ### A sample -/

/-- `rnmap -Pn -sV -p 22,80 --open -oJ scan.json 192.168.0.1`. -/
def sampleCli : Cli where
  targets := ["192.168.0.1".toList]
  sS := false
  sV := true
  pn := true
  ps := none
  pe := false
  ports := some "22,80".toList
  topPorts := none
  timing := 3
  concurrency := none
  noDns := false
  «open» := true
  oN := none
  oX := none
  oJ := some "scan.json".toList
  oA := none
  maxRetries := none
  hostTimeout := none

/-- A world in which this call is made and nothing goes wrong. -/
def sampleWorld : World where
  args := ["rnmap".toList, "-Pn".toList, "-sV".toList, "-p".toList, "22,80".toList,
    "--open".toList, "-oJ".toList, "scan.json".toList, "192.168.0.1".toList]
  parseFrom := fun _ => some sampleCli
  resolver := CliCall.noNames
  lookupAddr := fun _ => none
  happens := fun _ => ScanScript.sampleScript.hosts.head (List.cons_ne_nil _ _)
  startedAt := ⟨0, 0⟩
  endedAt := ⟨1, 0⟩
  elapsed := fromSecs 1
  fmt := epochFormats
  serde := JsonFormats.ofOneSecond.serde
  printed := none
  file := List.length
  fault := fun _ => none

/-- The call is accepted. -/
def samplePrepared : Prepared where
  cli := sampleCli
  targets := ⟨sampleCli.targets, [⟨"192.168.0.1".toList, .v4 ⟨192, 168, 0, 1⟩⟩]⟩
  portSpec := ⟨[22, 80]⟩

theorem prepare_sampleWorld : sampleWorld.prepare = .ok samplePrepared := rfl

/-- However the tasks of its two ports are scheduled, the call ends and has its outcome. -/
theorem ends_as_outcome_sample :
    ∃ t result, sampleWorld.Reaches (fun _ => none) t ∧ t.progress = .ended result ∧
      sampleWorld.outcome (fun _ => none) = ⟨result, t.stdout, t.files⟩ := by
  obtain ⟨t, result, ht, hend⟩ := exists_reaches_ended sampleWorld fun _ => none
  exact ⟨t, result, ht, hend, (ends_as_outcome ht).2.2 result hend⟩

/-! ### Refused calls -/

theorem refusal_of_scanned {p : Prepared} {s : ProgramState} (h : w.Scanned p s) :
    w.refusal = none := by
  rw [refusal, h.1]
  exact h.2.1

/-- A call that is refused has done nothing. -/
theorem refused_of_refusal {files : ℕ → Option Text} {s : ProgramState}
    (hinv : w.ProgramInv files s) (h : w.refusal ≠ none) : w.Refused files s := by
  have hknown := hinv.known
  cases hs : s.progress with
  | called =>
      simp only [ProgressInv, hs] at hknown
      subst hknown
      exact ⟨h, rfl, rfl, rfl⟩
  | scanning p l =>
      simp only [ProgressInv, hs] at hknown
      obtain ⟨hprepare, -, hstdout, hfiles, hstart⟩ := hknown
      have hfault : p.cli.pingFault ≠ none := by
        rwa [refusal, hprepare] at h
      exact ⟨h, (hstart hfault).2, hstdout, hfiles⟩
  | writing p left done =>
      simp only [ProgressInv, hs] at hknown
      exact absurd (refusal_of_scanned hknown.1) h
  | ended result =>
      simp only [ProgressInv, hs] at hknown
      rcases hknown with hrefused | ⟨p, hscanned⟩
      · exact hrefused
      · exact absurd (refusal_of_scanned hscanned) h

theorem result_outcome_of_refusal {e : Failure} (h : w.refusal = some e)
    (files : ℕ → Option Text) : (w.outcome files).result = .error e := by
  unfold refusal at h
  unfold outcome
  cases hprepare : w.prepare with
  | error e' =>
      rw [hprepare] at h
      rw [← Option.some.inj h]
  | ok p =>
      rw [hprepare] at h
      simp only [scanOutcome, h]

/-- A call that has ended and was not refused has scanned all its hosts. -/
theorem scanned_of_ended {files : ℕ → Option Text} {s : ProgramState} (h : w.Reaches files s)
    (hend : Ended s) (hrefusal : w.refusal = none) : ∃ p, w.Scanned p s := by
  obtain ⟨result, hs⟩ := hend
  have hknown := (programInv_of_reaches h).known
  simp only [ProgressInv, hs] at hknown
  exact hknown.resolve_left fun hrefused => hrefused.refusal hrefusal

/-- What a scan has sent at its end. -/
theorem staged_of_scanned {p : Prepared} {s : ProgramState} (h : w.Scanned p s) :
    Staged s.sent ((p.script w).hosts.flatMap (p.script w).stages) := by
  obtain ⟨-, -, -, l, hsends, hfin⟩ := h
  have hstaged := ScanScript.staged_of_sends hsends
  rwa [ScanScript.todo_of_finished (ScanScript.spends_of_sends hsends).1 hfin, List.flatten_nil,
    List.append_nil] at hstaged

/-- The ports of `-PS` are parsed when neither `-Pn` nor `-PE` is given. -/
theorem pingFault_eq_some {cli : Cli} {e : Failure} (hpn : cli.pn = false) (hpe : cli.pe = false)
    (h : cli.probePorts = .error e) : cli.pingFault = some e := by
  rw [Cli.pingFault, hpn, hpe, h]
  rfl

theorem pingFault_eq_none {cli : Cli}
    (h : cli.pn = true ∨ cli.pe = true ∨ ∃ ports, cli.probePorts = .ok ports) :
    cli.pingFault = none := by
  unfold Cli.pingFault
  rcases h with hpn | hpe | ⟨ports, hports⟩
  · rw [hpn]
    rfl
  · rw [hpe, Bool.or_true]
    rfl
  · rw [hports]
    exact ite_self _

/-- Nothing of a call is seen but its failure, once it has ended. -/
structure FailsUnseen (files : ℕ → Option Text) (s : ProgramState) (e : Failure) : Prop where
  sent : s.sent = []
  stdout : s.stdout = none
  files_eq : s.files = files
  result : ∀ result, s.progress = .ended result → result = .error e

theorem failsUnseen_of_refusal {files : ℕ → Option Text} {s : ProgramState} (h : w.Reaches files s)
    {e : Failure} (he : w.refusal = some e) : FailsUnseen files s e := by
  obtain ⟨-, hsent, hstdout, hfiles⟩ := refused_of_refusal (programInv_of_reaches h) (by simp [he])
  refine ⟨hsent, hstdout, hfiles, fun result hend => ?_⟩
  rw [← result_outcome_of_refusal he files, outcome_of_ended h hend]

/-- **A call is refused as a whole or goes through its whole scan.**  If something is wrong with its
targets or its ports, or with the ports of `-PS`, which are parsed in the host loop and only when
hosts are pinged over TCP, it never sends, prints or writes anything, and ends with what is wrong.
Otherwise it has sent all there is to send to each of its hosts when it ends, and has printed its
report, unless printing has failed and it has panicked. -/
theorem refused_or_scanned {files : ℕ → Option Text} {s : ProgramState} (h : w.Reaches files s) :
    (∀ e, w.prepare = .error e → FailsUnseen files s e) ∧
    ∀ p, w.prepare = .ok p →
      (∀ e, p.cli.pn = false → p.cli.pe = false → p.cli.probePorts = .error e →
        FailsUnseen files s e) ∧
      (p.cli.pn = true ∨ p.cli.pe = true ∨ (∃ ports, p.cli.probePorts = .ok ports) → Ended s →
        Staged s.sent ((p.script w).hosts.flatMap (p.script w).stages) ∧
        (w.printed = none → s.stdout = some (p.normal w (w.results p))) ∧
        ∀ text, w.printed = some text →
          s.stdout = some text ∧ s.progress = .ended (.error .panicked) ∧ s.files = files) := by
  refine ⟨fun e he => failsUnseen_of_refusal h (by rw [refusal, he]), fun p hp =>
    ⟨fun e hpn hpe he => failsUnseen_of_refusal h ?_, fun hping hend => ?_⟩⟩
  · rw [refusal, hp]
    exact pingFault_eq_some hpn hpe he
  · have hfault := pingFault_eq_none hping
    have hrefusal : w.refusal = none := by rwa [refusal, hp]
    obtain ⟨p', hscanned⟩ := scanned_of_ended h hend hrefusal
    obtain rfl : p = p' := Except.ok.inj (hp.symm.trans hscanned.1)
    obtain ⟨result, hs⟩ := hend
    have houtcome := scanOutcome_of_ended h hs hp
    simp only [scanOutcome, hfault, publish] at houtcome
    refine ⟨staged_of_scanned hscanned, fun hprinted => ?_, fun text hprinted => ?_⟩
    · rw [hprinted] at houtcome
      exact (congrArg Outcome.stdout houtcome).symm
    · rw [hprinted] at houtcome
      obtain ⟨hresult, hstdout, hfiles⟩ := Outcome.mk.inj houtcome
      exact ⟨hstdout.symm, hs.trans (congrArg Progress.ended hresult.symm), hfiles.symm⟩

/-- The same call with `-PS 443-80`, a range that ends before it begins, beside `-Pn` or in place
of it. -/
def badPingWorld (pn : Bool) : World :=
  { sampleWorld with
    parseFrom := fun _ => some { sampleCli with pn := pn, ps := some "443-80".toList } }

/-- It has resolved its target when it fails, and has sent nothing; but with `-Pn` nobody reads the
range, and it prints its report. -/
theorem refused_or_scanned_badPing :
    ∃ t u, ∃ p : Prepared, (badPingWorld false).Reaches (fun _ => none) t ∧ Ended t ∧
      t.sent = [] ∧ t.stdout = none ∧ (badPingWorld true).Reaches (fun _ => none) u ∧ Ended u ∧
      u.stdout = some (p.normal (badPingWorld true) ((badPingWorld true).results p)) := by
  obtain ⟨t, result, ht, hend⟩ := exists_reaches_ended (badPingWorld false) fun _ => none
  obtain ⟨u, result', hu, hend'⟩ := exists_reaches_ended (badPingWorld true) fun _ => none
  obtain ⟨p, hp, hpn, hpe, e, he⟩ : ∃ p : Prepared, (badPingWorld false).prepare = .ok p ∧
      p.cli.pn = false ∧ p.cli.pe = false ∧ ∃ e, p.cli.probePorts = .error e :=
    ⟨_, rfl, rfl, rfl, _, rfl⟩
  obtain ⟨q, hq, hqn⟩ : ∃ q : Prepared, (badPingWorld true).prepare = .ok q ∧ q.cli.pn = true :=
    ⟨_, rfl, rfl⟩
  have hfails := ((refused_or_scanned ht).2 p hp).1 e hpn hpe he
  obtain ⟨-, hprinted, -⟩ := ((refused_or_scanned hu).2 q hq).2 (.inl hqn) ⟨result', hend'⟩
  exact ⟨t, u, q, ht, ⟨result, hend⟩, hfails.sent, hfails.stdout, hu, ⟨result', hend'⟩,
    hprinted rfl⟩

/-! ### The files -/

variable (w) in
/-- What a call whose hosts are scanned is to write. -/
def wanted (p : Prepared) : List (ℕ × Text) :=
  (p.writes w (w.results p)).map fun file => (w.file file.1, file.2)

/-- When a call ends well, all its writes are done. -/
theorem written_of_ended {files : ℕ → Option Text} {s : ProgramState} (h : w.Reaches files s)
    (hend : s.progress = .ended (.ok ())) :
    ∃ p, w.prepare = .ok p ∧ s.stdout = some (p.normal w (w.results p)) ∧
      ∀ f, s.files f = (Writes.last (w.wanted p) f).or (files f) := by
  have houtcome := outcome_of_ended h hend
  unfold outcome at houtcome
  cases hprepare : w.prepare with
  | error e =>
      rw [hprepare] at houtcome
      cases houtcome
  | ok p =>
      simp only [hprepare, scanOutcome] at houtcome
      cases hfault : p.cli.pingFault with
      | some e =>
          rw [hfault] at houtcome
          cases houtcome
      | none =>
          simp only [hfault, publish] at houtcome
          cases hprinted : w.printed with
          | some text =>
              rw [hprinted] at houtcome
              cases houtcome
          | none =>
              simp only [hprinted, writeOut, Outcome.mk.injEq] at houtcome
              obtain ⟨hresult, hstdout, hfiles⟩ := houtcome
              refine ⟨p, rfl, hstdout.symm, fun f => ?_⟩
              rw [← hfiles]
              apply Writes.perform_of_ok
              cases hperform : (Writes.perform w.fault 0 _ files).1 with
              | error e =>
                  rw [hperform] at hresult
                  cases hresult
              | ok u => rfl

/-- A call that is accepted as `p` and ends well has printed the report of `p` and done its
writes. -/
theorem written_of_prepare {p : Prepared} (hprepare : w.prepare = .ok p)
    {files : ℕ → Option Text} {s : ProgramState} (h : w.Reaches files s)
    (hend : s.progress = .ended (.ok ())) :
    s.stdout = some (p.normal w (w.results p)) ∧
      ∀ f, s.files f = (Writes.last (w.wanted p) f).or (files f) := by
  obtain ⟨q, hq, hwritten⟩ := written_of_ended h hend
  obtain rfl : p = q := Except.ok.inj (hprepare.symm.trans hq)
  exact hwritten

/-- **What a call leaves behind.**  At no time does it change a file it was not asked for.  When it
ends well it has printed the normal report of its hosts, and each file has what was written to it
last, in the order `-oA`, `-oN`, `-oX`, `-oJ`, or what it had before. -/
theorem files_of_reaches {files : ℕ → Option Text} {s : ProgramState} (h : w.Reaches files s) :
    (∀ f ∉ w.asked, s.files f = files f) ∧
    (s.progress = .ended (.ok ()) → ∃ p, w.prepare = .ok p ∧
      s.stdout = some (p.normal w (w.results p)) ∧
      ∀ f, s.files f = (Writes.last (w.wanted p) f).or (files f)) :=
  ⟨(programInv_of_reaches h).untouched, fun hend => written_of_ended h hend⟩

/-- The sample call ends well, with its report in `scan.json` and every other file as it was. -/
theorem files_of_reaches_sample :
    ∃ t, sampleWorld.Reaches (fun _ => none) t ∧ t.progress = .ended (.ok ()) ∧
      t.files (sampleWorld.file "scan.json".toList) =
        some (renderJson sampleWorld.serde
          (sampleWorld.report (sampleWorld.results samplePrepared)) true) ∧
      t.files (sampleWorld.file "scan.xml".toList) = none := by
  obtain ⟨t, result, ht, hend⟩ := exists_reaches_ended sampleWorld fun _ => none
  obtain rfl : result = .ok () := (congrArg Outcome.result (outcome_of_ended ht hend)).symm
  obtain ⟨huntouched, hwritten⟩ := files_of_reaches ht
  obtain ⟨p, hprepare, -, hfiles⟩ := hwritten hend
  obtain rfl : samplePrepared = p := Except.ok.inj (prepare_sampleWorld.symm.trans hprepare)
  exact ⟨t, ht, hend, hfiles _, huntouched _ (by decide)⟩

/-! ### The order of the files -/

variable (w) in
/-- What a call writes one after the other, if its arguments are accepted. -/
def agenda : List (ℕ × Text) :=
  match w.prepare with
  | .error _ => []
  | .ok p => w.wanted p

variable (w) in
/-- The files are as the writes before leave them; or the next write has failed, has ended the call
with its error, and has done to its own file what such a failure does. -/
def Wrote (files : ℕ → Option Text) (s : ProgramState) (before after : List (ℕ × Text)) : Prop :=
  s.files = Writes.done before files ∨
    ∃ file text rest fault, after = (file, text) :: rest ∧ w.fault before.length = some fault ∧
      s.progress = .ended (.error (.ofIo fault.error)) ∧
      s.files = fault.leave (Writes.done before files) file

variable (w) in
/-- A call has printed the normal report of its hosts. -/
def Printed (s : ProgramState) : Prop :=
  ∃ p, w.prepare = .ok p ∧ s.stdout = some (p.normal w (w.results p))

variable (w) in
/-- How far a call has come with its files: before the first of them, behind some of them with the
others left, or at its end. -/
def WriteInv (files : ℕ → Option Text) (s : ProgramState) : Prop :=
  match s.progress with
  | .called => s.files = files
  | .scanning _ _ => s.files = files
  | .writing _ left done => w.Printed s ∧ ∃ before, before.length = done ∧
      w.agenda = before ++ left.map (fun file => (w.file file.1, file.2)) ∧
      s.files = Writes.done before files
  | .ended _ => (s.files ≠ files → w.Printed s) ∧
      ∃ before after, w.agenda = before ++ after ∧ w.Wrote files s before after

/-- Before the first write the files are as they were. -/
theorem wrote_nil {files : ℕ → Option Text} {s : ProgramState} (h : s.files = files) :
    (s.files ≠ files → w.Printed s) ∧
      ∃ before after, w.agenda = before ++ after ∧ w.Wrote files s before after :=
  ⟨fun hne => absurd h hne, [], w.agenda, rfl, .inl (h.trans (Writes.done_nil files).symm)⟩

/-- **A step keeps the order of the files.** -/
theorem WriteInv.step {files : ℕ → Option Text} {s t : ProgramState} (hinv : w.ProgramInv files s)
    (h : w.WriteInv files s) (hs : w.Step s t) : w.WriteInv files t := by
  have hknown := hinv.known
  cases hs with
  | refuse hprogress _ =>
      simp only [WriteInv, hprogress] at h
      exact wrote_nil h
  | begin hprogress _ =>
      simp only [WriteInv, hprogress] at h
      exact h
  | badPing hprogress _ _ _ =>
      simp only [WriteInv, hprogress] at h
      exact wrote_nil h
  | scan hprogress _ _ =>
      simp only [WriteInv, hprogress] at h
      exact h
  | @print p l hprogress hfin _ =>
      simp only [WriteInv, hprogress] at h
      simp only [ProgressInv, hprogress] at hknown
      obtain ⟨hprepare, hsends, -⟩ := hknown
      have hresults := hosts_eq_results hsends hfin
      refine ⟨⟨p, hprepare, ?_⟩, [], rfl, ?_, h.trans (Writes.done_nil files).symm⟩
      · rw [← hresults]
      · rw [agenda, hprepare, hresults]
        rfl
  | printFails hprogress _ _ =>
      simp only [WriteInv, hprogress] at h
      exact wrote_nil h
  | @write p path content left done hprogress _ =>
      simp only [WriteInv, hprogress] at h
      obtain ⟨hprinted, before, rfl, hagenda, hfiles⟩ := h
      refine ⟨hprinted, before ++ [(w.file path, content)], List.length_append, ?_, ?_⟩
      · rw [hagenda, List.map_cons, List.append_assoc, List.singleton_append]
      · rw [hfiles, Writes.put_done]
  | @writeFails p path content left done fault hprogress hfault =>
      simp only [WriteInv, hprogress] at h
      obtain ⟨hprinted, before, rfl, hagenda, hfiles⟩ := h
      refine ⟨fun _ => hprinted, before, _, hagenda,
        .inr ⟨w.file path, content, _, fault, List.map_cons, hfault, rfl, ?_⟩⟩
      rw [hfiles]
  | finish hprogress =>
      simp only [WriteInv, hprogress] at h
      obtain ⟨hprinted, before, -, hagenda, hfiles⟩ := h
      exact ⟨fun _ => hprinted, before, _, hagenda, .inl hfiles⟩

/-- The files are written in order in every run. -/
theorem writeInv_of_reaches {files : ℕ → Option Text} {s : ProgramState} (h : w.Reaches files s) :
    w.WriteInv files s := by
  induction h with
  | refl => exact rfl
  | tail hs hstep ih => exact ih.step (programInv_of_reaches hs) hstep

/-- **The files are written in their order and one at a time**: in every state of every run the
normal report has been printed if a file has changed, and the files are as the first so many of the
writes leave them, but for the file of the next write if that has failed and has ended the call with
its error. -/
theorem files_in_order {files : ℕ → Option Text} {s : ProgramState} (h : w.Reaches files s) :
    (s.files ≠ files → ∃ p, w.prepare = .ok p ∧ s.stdout = some (p.normal w (w.results p))) ∧
      ∃ before after, w.agenda = before ++ after ∧ w.Wrote files s before after := by
  have hwrite := writeInv_of_reaches h
  cases hprogress : s.progress with
  | called =>
      simp only [WriteInv, hprogress] at hwrite
      exact wrote_nil hwrite
  | scanning p l =>
      simp only [WriteInv, hprogress] at hwrite
      exact wrote_nil hwrite
  | writing p left done =>
      simp only [WriteInv, hprogress] at hwrite
      obtain ⟨hprinted, before, -, hagenda, hfiles⟩ := hwrite
      exact ⟨fun _ => hprinted, before, _, hagenda, .inl hfiles⟩
  | ended r =>
      simp only [WriteInv, hprogress] at hwrite
      exact hwrite

/-- The sample call with `-oA scan` on a disk that has no room for a second file. -/
def fullDiskWorld : World :=
  { sampleWorld with
    parseFrom := fun _ => some { sampleCli with oJ := none, oA := some "scan".toList }
    fault := fun n =>
      if n = 0 then none
      else some ⟨⟨.other, some 28, "No space left on device (os error 28)".toList⟩, none⟩ }

/-- It ends with the error of a write, and with its files in order. -/
theorem files_in_order_fullDisk :
    ∃ t e before after, fullDiskWorld.Reaches (fun _ => none) t ∧ t.progress = .ended (.error e) ∧
      fullDiskWorld.agenda = before ++ after ∧
      fullDiskWorld.Wrote (fun _ => none) t before after := by
  obtain ⟨t, result, ht, hend⟩ := exists_reaches_ended fullDiskWorld fun _ => none
  obtain ⟨e, rfl⟩ : ∃ e, result = .error e :=
    ⟨_, (congrArg Outcome.result (outcome_of_ended ht hend)).symm⟩
  obtain ⟨-, before, after, hagenda, hwrote⟩ := files_in_order ht
  exact ⟨t, e, before, after, ht, hend, hagenda, hwrote⟩

end World

end Rnmap
