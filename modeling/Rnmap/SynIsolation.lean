/-
**Concurrent SYN probes of one host.**

The host loop runs many SYN scans of one target at the same time.  Each has its own raw socket,
and every raw socket is delivered every TCP segment: the SYNs and RSTs of all probes, the target's
answers to each of them, and foreign traffic.  This module puts the probes side by side in a
transition system, with the loop body of `Rnmap/SynScan.lean` as the step of a probe, and asks
which segments can decide a probe.

The answer depends on one coincidence.  When the target is the scanning host itself, both
directions of traffic bear the same two addresses, and a probe whose scanned port is another
probe's source port, and conversely, takes the other's RST for the target's.

Main definitions:

* `Rnmap.Segment`, `Rnmap.Net`, `Rnmap.Scan` — a segment with its origin, the states of the
  system, and what it scans;
* `Rnmap.Scan.NetStep` — the steps;
* `Rnmap.Scan.IsOwn` — a segment the target's scanned port sent to the probe's source port;
* `Rnmap.Scan.Mirrors` — two probes whose scanned and source ports are swapped.

Main results:

* `Rnmap.Scan.netInv_of_reachable` — the invariant of every run;
* `Rnmap.Scan.recvLoop_of_seen` — what the system decides is what the receive loop returns on the
  segments the probe has read;
* `Rnmap.Scan.probes_isolated` — **a probe is decided by its own segments only**, unless the
  scan is of the own address and two probes mirror each other.
-/

import Rnmap.SynScan
import Rnmap.Runs

set_option relaxedAutoImplicit false
set_option autoImplicit false

universe u

namespace Rnmap

open Bytes Runs

/-! ### The system -/

/-- The choices of one probe: the scanned port, the random source port and sequence number, and
the IP identifications of its SYN and its RST. -/
structure Probe where
  port : UInt16
  srcPort : SourcePort
  seq : UInt32
  synId : UInt16
  rstId : UInt16

/-- Where a segment comes from: a probe's SYN, a probe's RST, the target's answer to a probe, or
some other conversation. -/
inductive Origin (ι : Type u)
  | syn (i : ι)
  | rst (i : ι)
  | answer (i : ι)
  | foreign
  deriving DecidableEq

/-- A segment on the wire. -/
structure Segment (ι : Type u) where
  origin : Origin ι
  bytes : Bytes

/-- What a probe is doing.  A finished probe records the segment that decided it and the verdict,
or nothing when it ended without one. -/
inductive Status (ι : Type u)
  | idle
  | opened
  | waiting
  | finished (decision : Option (Segment ι × Verdict))

/-- Whether the probe's socket is open. -/
def Status.listening {ι : Type u} : Status ι → Bool
  | .idle => false
  | .opened => true
  | .waiting => true
  | .finished _ => false

/-- The segment and the verdict that ended a probe, if any. -/
def Status.decision {ι : Type u} : Status ι → Option (Segment ι × Verdict)
  | .finished decision => decision
  | _ => none

/-- A state: what each probe is doing, the segments its socket holds and the segments it has
read, in order. -/
structure Net (ι : Type u) where
  status : ι → Status ι
  inbox : ι → List (Segment ι)
  seen : ι → List (Segment ι)

/-- A scan of one host by several probes. -/
structure Scan (ι : Type u) where
  target : Ipv4Addr
  srcIp : Ipv4Addr
  probe : ι → Probe

variable {ι : Type u}

namespace Net

/-- Before the scan. -/
def init : Net ι := ⟨fun _ => .idle, fun _ => [], fun _ => []⟩

/-- Deliver segments to every open socket. -/
def broadcast (s : Net ι) (segs : List (Segment ι)) : Net ι :=
  { s with inbox := fun k => if (s.status k).listening then s.inbox k ++ segs else s.inbox k }

variable [DecidableEq ι]

/-- Set what a probe is doing. -/
def setStatus (s : Net ι) (i : ι) (st : Status ι) : Net ι :=
  { s with status := Function.update s.status i st }

/-- Move a segment from a probe's socket to the segments it has read. -/
def read (s : Net ι) (i : ι) (rest : List (Segment ι)) (seg : Segment ι) : Net ι :=
  { s with
    inbox := Function.update s.inbox i rest
    seen := Function.update s.seen i (s.seen i ++ [seg]) }

end Net

namespace Scan

variable (scan : Scan ι)

/-- The SYN of a probe. -/
def synOf (i : ι) : Segment ι :=
  ⟨.syn i, buildSynPacket (scan.probe i).synId scan.srcIp scan.target (scan.probe i).srcPort.port
    (scan.probe i).port (scan.probe i).seq⟩

/-- The segments a probe sends on a verdict. -/
def repliesOf (i : ι) (v : Verdict) : List (Segment ι) :=
  (v.sends (scan.probe i).rstId scan.srcIp scan.target (scan.probe i).srcPort.port
    (scan.probe i).port).map fun bytes => ⟨.rst i, bytes⟩

/-- The loop body of a probe, on a segment its socket delivers into a buffer of 1500 bytes. -/
def judgeOf (i : ι) (seg : Segment ι) : Option (Option Verdict) :=
  judge scan.target scan.srcIp (scan.probe i).port (scan.probe i).srcPort.port (seg.bytes.take 1500)

/-- A TCP segment from the target's scanned port to the source port of a probe. -/
def Carries (i : ι) (bytes : Bytes) : Prop :=
  IsTcpFor bytes scan.target scan.srcIp ∧
    (tcpFields (bytes.drop (headerLen bytes))).1 = (scan.probe i).port ∧
    (tcpFields (bytes.drop (headerLen bytes))).2.1 = (scan.probe i).srcPort.port

/-! ### Which segments decide a probe -/

/-- The verdict of a probe on a segment. -/
def verdictFor (i : ι) (seg : Segment ι) : Option Verdict :=
  verdictOf scan.target scan.srcIp (scan.probe i).port (scan.probe i).srcPort.port seg.bytes

/-- The segment with the verdict, when it decides the probe. -/
def decisionFor (i : ι) (seg : Segment ι) : Option (Segment ι × Verdict) :=
  (scan.verdictFor i seg).map fun v => (seg, v)

/-- The source port of each probe is the scanned port of the other. -/
def Mirrors (i j : ι) : Prop :=
  (scan.probe j).srcPort.port = (scan.probe i).port ∧
    (scan.probe j).port = (scan.probe i).srcPort.port

/-- A segment the target's scanned port sent to the probe's source port: in answer to the probe,
or in a conversation that no probe of the scan takes part in. -/
def IsOwn (i : ι) (seg : Segment ι) : Prop :=
  (seg.origin = .answer i ∨ seg.origin = .foreign) ∧ scan.Carries i seg.bytes

instance (i : ι) (bytes : Bytes) : Decidable (scan.Carries i bytes) :=
  inferInstanceAs (Decidable (IsTcpFor bytes scan.target scan.srcIp ∧
    (tcpFields (bytes.drop (headerLen bytes))).1 = (scan.probe i).port ∧
    (tcpFields (bytes.drop (headerLen bytes))).2.1 = (scan.probe i).srcPort.port))

instance [DecidableEq ι] (i : ι) (seg : Segment ι) : Decidable (scan.IsOwn i seg) :=
  inferInstanceAs (Decidable ((seg.origin = .answer i ∨ seg.origin = .foreign) ∧
    scan.Carries i seg.bytes))

theorem judgeOf_eq (i : ι) (seg : Segment ι) :
    scan.judgeOf i seg = some (scan.verdictFor i seg) := by
  rw [judgeOf, judge_eq, verdictOf_take, verdictFor]

variable {scan}

/-- A segment that decides a probe carries its four addresses and ports. -/
theorem carries_of_verdictFor {i : ι} {seg : Segment ι} {v : Verdict}
    (h : scan.verdictFor i seg = some v) : scan.Carries i seg.bytes := by
  unfold verdictFor verdictOf at h
  split at h
  · rename_i hacc
    rcases hf : tcpFields (seg.bytes.drop (headerLen seg.bytes)) with ⟨srcP, dstP, rest⟩
    rw [hf, fieldsVerdict] at h
    split_ifs at h with hports
    rw [Carries, hf]
    exact ⟨hacc, hports⟩
  · cases h

/-- A SYN decides no probe. -/
theorem verdictFor_synOf (i j : ι) : scan.verdictFor i (scan.synOf j) = none := by
  rw [verdictFor, synOf, buildSynPacket, verdictOf_packet]
  split_ifs
  · rfl
  · rfl
  · rfl

/-- A probe's RST decides another probe only in a scan of the own address, and only when the two
probes mirror each other; it then closes the port. -/
theorem mirrors_of_rst {i j : ι} {seg : Segment ι} {v w : Verdict}
    (hseg : seg ∈ scan.repliesOf j w) (h : scan.verdictFor i seg = some v) :
    scan.target = scan.srcIp ∧ scan.Mirrors i j ∧ v = .closed := by
  cases w with
  | closed => cases hseg
  | «open» ack =>
      obtain rfl := List.mem_singleton.1 hseg
      rw [verdictFor, buildRstPacket, verdictOf_packet] at h
      split_ifs at h with haddr hports
      cases h
      exact ⟨haddr.1.symm, hports, rfl⟩

/-! ### The runs -/

section Steps

variable (scan) [DecidableEq ι]

/-- **The steps**: a probe opens its socket, a probe sends its SYN, the target answers a probe,
other traffic passes, a probe reads a segment that does not decide it, a probe reads one that
does, and a probe ends without a verdict, at its deadline or by a failing system call.  A socket
may deliver its segments in any order. -/
inductive NetStep : Net ι → Net ι → Prop
  | openSocket {s : Net ι} (i : ι) : s.status i = .idle → NetStep s (s.setStatus i .opened)
  | send {s : Net ι} (i : ι) : s.status i = .opened →
      NetStep s ((s.setStatus i .waiting).broadcast [scan.synOf i])
  | answer {s : Net ι} (i : ι) (bytes : Bytes) : scan.Carries i bytes →
      NetStep s (s.broadcast [⟨.answer i, bytes⟩])
  | foreign {s : Net ι} (bytes : Bytes) : NetStep s (s.broadcast [⟨.foreign, bytes⟩])
  | skip {s : Net ι} (i : ι) (pre post : List (Segment ι)) (seg : Segment ι) :
      s.status i = .waiting → s.inbox i = pre ++ seg :: post → scan.judgeOf i seg = some none →
      NetStep s (s.read i (pre ++ post) seg)
  | decide {s : Net ι} (i : ι) (pre post : List (Segment ι)) (seg : Segment ι) (v : Verdict) :
      s.status i = .waiting → s.inbox i = pre ++ seg :: post →
      scan.judgeOf i seg = some (some v) →
      NetStep s (((s.read i (pre ++ post) seg).setStatus i (.finished (some (seg, v)))).broadcast
        (scan.repliesOf i v))
  | giveUp {s : Net ι} (i : ι) : (s.status i).listening = true →
      NetStep s (s.setStatus i (.finished none))

/-- The states of the runs of a scan. -/
def NetReachable (s : Net ι) : Prop := Reachable scan.NetStep Net.init s

end Steps

/-! ### The invariant -/

variable (scan)

/-- A segment is what its origin says, and a probe has not been delivered its own RST. -/
def Delivered (i : ι) (seg : Segment ι) : Prop :=
  match seg.origin with
  | .syn j => seg = scan.synOf j
  | .rst j => j ≠ i ∧ ∃ v, seg ∈ scan.repliesOf j v
  | .answer j => scan.Carries j seg.bytes
  | .foreign => True

/-- **The invariant**: sockets hold and probes have read delivered segments only, and what ended a
probe is the first segment it has read that decides it. -/
structure NetInv (s : Net ι) : Prop where
  inbox : ∀ i, ∀ seg ∈ s.inbox i, scan.Delivered i seg
  seen : ∀ i, ∀ seg ∈ s.seen i, scan.Delivered i seg
  decision : ∀ i, (s.status i).decision = (s.seen i).findSome? (scan.decisionFor i)

variable {scan}

theorem netInv_init : scan.NetInv Net.init := by
  refine ⟨?_, ?_, ?_⟩
  · intro i seg hseg
    cases hseg
  · intro i seg hseg
    cases hseg
  · intro i
    rfl

/-- Delivering segments keeps the invariant, when each open socket may get them. -/
theorem NetInv.broadcast {s : Net ι} (h : scan.NetInv s) {segs : List (Segment ι)}
    (hsegs : ∀ i, (s.status i).listening = true → ∀ seg ∈ segs, scan.Delivered i seg) :
    scan.NetInv (s.broadcast segs) := by
  refine ⟨?_, h.seen, h.decision⟩
  intro i seg hseg
  by_cases hlis : (s.status i).listening = true
  · simp only [Net.broadcast, if_pos hlis] at hseg
    rcases List.mem_append.1 hseg with hold | hnew
    · exact h.inbox i seg hold
    · exact hsegs i hlis seg hnew
  · simp only [Net.broadcast, if_neg hlis] at hseg
    exact h.inbox i seg hseg

variable [DecidableEq ι]

/-- A change of status keeps the invariant, when it keeps the decision. -/
theorem NetInv.setStatus {s : Net ι} (h : scan.NetInv s) {i : ι} {st : Status ι}
    (hst : st.decision = (s.seen i).findSome? (scan.decisionFor i)) :
    scan.NetInv (s.setStatus i st) := by
  refine ⟨h.inbox, h.seen, ?_⟩
  intro k
  by_cases hk : k = i
  · subst hk
    simpa only [Net.setStatus, Function.update_self] using hst
  · simpa only [Net.setStatus, Function.update_of_ne hk] using h.decision k

/-- Reading a segment, with the status the segment leads to, keeps the invariant. -/
theorem NetInv.read {s : Net ι} (h : scan.NetInv s) {i : ι} {pre post : List (Segment ι)}
    {seg : Segment ι} (hinbox : s.inbox i = pre ++ seg :: post) (st : Status ι)
    (hst : st.decision = (s.seen i ++ [seg]).findSome? (scan.decisionFor i)) :
    scan.NetInv ((s.read i (pre ++ post) seg).setStatus i st) := by
  have hmem : ∀ x ∈ pre ++ seg :: post, scan.Delivered i x := hinbox ▸ h.inbox i
  refine ⟨?_, ?_, ?_⟩
  · intro k x hx
    by_cases hk : k = i
    · subst hk
      simp only [Net.setStatus, Net.read, Function.update_self, List.mem_append] at hx
      exact hmem x (by simpa using hx.imp_right Or.inr)
    · simp only [Net.setStatus, Net.read, Function.update_of_ne hk] at hx
      exact h.inbox k x hx
  · intro k x hx
    by_cases hk : k = i
    · subst hk
      simp only [Net.setStatus, Net.read, Function.update_self, List.mem_append,
        List.mem_singleton] at hx
      rcases hx with hold | rfl
      · exact h.seen k x hold
      · exact hmem x (by simp)
    · simp only [Net.setStatus, Net.read, Function.update_of_ne hk] at hx
      exact h.seen k x hx
  · intro k
    by_cases hk : k = i
    · subst hk
      simpa only [Net.setStatus, Net.read, Function.update_self] using hst
    · simpa only [Net.setStatus, Net.read, Function.update_of_ne hk] using h.decision k

/-- A step keeps the invariant. -/
theorem NetInv.step {s t : Net ι} (h : scan.NetInv s) (hs : scan.NetStep s t) :
    scan.NetInv t := by
  cases hs with
  | openSocket i hi =>
      refine h.setStatus ?_
      rw [← h.decision i, hi]
      rfl
  | send i hi =>
      have hwait : scan.NetInv (s.setStatus i .waiting) := by
        refine h.setStatus ?_
        rw [← h.decision i, hi]
        rfl
      refine hwait.broadcast ?_
      intro k _ seg hseg
      obtain rfl := List.mem_singleton.1 hseg
      rfl
  | answer i bytes hans =>
      refine h.broadcast ?_
      intro k _ seg hseg
      obtain rfl := List.mem_singleton.1 hseg
      exact hans
  | foreign bytes =>
      refine h.broadcast ?_
      intro k _ seg hseg
      obtain rfl := List.mem_singleton.1 hseg
      trivial
  | skip i pre post seg hi hinbox hjudge =>
      have hnone : scan.verdictFor i seg = none := Option.some.inj (scan.judgeOf_eq i seg ▸ hjudge)
      have hread := h.read hinbox .waiting (by
        rw [List.findSome?_append, ← h.decision i, hi]
        simp [Status.decision, decisionFor, hnone])
      -- the probe goes on waiting, so only the segments it has read change
      have hsame : (s.read i (pre ++ post) seg).setStatus i .waiting =
          s.read i (pre ++ post) seg := by
        rw [← hi]
        exact congrArg (fun st => { s.read i (pre ++ post) seg with status := st })
          (Function.update_eq_self i s.status)
      rwa [hsame] at hread
  | decide i pre post seg v hi hinbox hjudge =>
      have hsome : scan.verdictFor i seg = some v :=
        Option.some.inj (scan.judgeOf_eq i seg ▸ hjudge)
      have hread := h.read hinbox (.finished (some (seg, v))) (by
        rw [List.findSome?_append, ← h.decision i, hi]
        simp [Status.decision, decisionFor, hsome])
      refine hread.broadcast ?_
      intro k hk x hx
      -- the probe has closed its socket, so its RST goes to the others only
      have hne : i ≠ k := by
        rintro rfl
        simp [Net.setStatus, Status.listening] at hk
      obtain ⟨bytes, -, rfl⟩ := List.mem_map.1 hx
      exact ⟨hne, v, hx⟩
  | giveUp i hi =>
      refine h.setStatus ?_
      rw [← h.decision i]
      cases hst : s.status i with
      | finished d =>
          rw [hst] at hi
          cases hi
      | _ => rfl

/-- **The invariant holds in every run.** -/
theorem netInv_of_reachable {s : Net ι} (h : scan.NetReachable s) : scan.NetInv s :=
  h.invariant netInv_init fun _ _ hinv hs => hinv.step hs

/-! ### What the receive loop makes of it -/

/-- A probe of the scan, as the receive loop has it. -/
def synProbe (scan : Scan ι) (i : ι) (started deadline : Duration) : SynProbe :=
  ⟨scan.target, scan.srcIp, (scan.probe i).port, (scan.probe i).srcPort.port, (scan.probe i).rstId,
    started, deadline⟩

/-- Rounds that deliver segments, each before the deadline. -/
structure Delivers (p : SynProbe) (now : Duration) (calls : List RecvCall)
    (segs : List (Segment ι)) : Prop where
  before : callsBefore p.deadline now calls = calls
  armed : ∀ call ∈ calls, call.setReadTimeout = .ok ()
  recv : calls.map (·.recv) = segs.map fun seg => .ok (seg.bytes.take 1500)

omit [DecidableEq ι] in
/-- Rounds that deliver segments end the loop the way the segments decide the probe. -/
theorem findSome_ending (scan : Scan ι) (i : ι) (started deadline : Duration)
    (calls : List RecvCall) (segs : List (Segment ι))
    (harmed : ∀ call ∈ calls, call.setReadTimeout = .ok ())
    (hrecv : calls.map (·.recv) = segs.map fun seg => .ok (seg.bytes.take 1500)) :
    ∃ time, calls.findSome? (RecvCall.ending (scan.synProbe i started deadline)) =
      (segs.findSome? (scan.decisionFor i)).map fun d =>
        (scan.synProbe i started deadline).decided d.2 time := by
  induction calls generalizing segs with
  | nil =>
      obtain rfl := List.map_eq_nil_iff.1 hrecv.symm
      exact ⟨0, rfl⟩
  | cons call calls ih =>
      cases segs with
      | nil => cases hrecv
      | cons seg segs =>
          rw [List.map_cons, List.map_cons, List.cons.injEq] at hrecv
          have hend : call.ending (scan.synProbe i started deadline) =
              (scan.verdictFor i seg).map fun v =>
                (scan.synProbe i started deadline).decided v call.time := by
            rw [RecvCall.ending, harmed call List.mem_cons_self, hrecv.1]
            simp only [synProbe, verdictOf_take, verdictFor]
          rw [List.findSome?_cons, List.findSome?_cons, hend, decisionFor]
          cases scan.verdictFor i seg with
          | some v => exact ⟨call.time, rfl⟩
          | none => exact ih segs (fun c hc => harmed c (List.mem_cons_of_mem _ hc)) hrecv.2

/-- **What ended a probe is what the receive loop returns** on rounds that deliver the segments
the probe has read. -/
theorem recvLoop_of_seen {s : Net ι} (h : scan.NetReachable s) (i : ι)
    {started deadline now : Duration} {calls : List RecvCall}
    (hcalls : Delivers (scan.synProbe i started deadline) now calls (s.seen i)) :
    ∃ time, recvLoop (scan.synProbe i started deadline) now calls =
      some (((s.status i).decision.map fun d =>
        (scan.synProbe i started deadline).decided d.2 time).getD
          (scan.synProbe i started deadline).filtered) := by
  obtain ⟨time, hfind⟩ := findSome_ending scan i started deadline calls (s.seen i)
    hcalls.armed hcalls.recv
  refine ⟨time, ?_⟩
  rw [recvLoop_eq, hcalls.before, hfind, (netInv_of_reachable h).decision i]

/-! ### Isolation -/

omit [DecidableEq ι] in
/-- A search skips what it finds nothing in. -/
theorem findSome_filter_of_none {α β : Type u} {f : α → Option β} {p : α → Bool} {xs : List α}
    (h : ∀ x ∈ xs, p x = false → f x = none) : (xs.filter p).findSome? f = xs.findSome? f := by
  induction xs with
  | nil => rfl
  | cons x xs ih =>
      have ih := ih fun y hy => h y (List.mem_cons_of_mem _ hy)
      rcases hp : p x with _ | _
      · rw [List.filter_cons_of_neg (by simp [hp]), List.findSome?_cons,
          h x List.mem_cons_self hp, ih]
      · rw [List.filter_cons_of_pos hp, List.findSome?_cons, List.findSome?_cons, ih]

/-- A delivered segment that decides a probe is its own, or the RST of a mirror. -/
theorem isOwn_or_rst_of_delivered
    (hports : ∀ i j, i ≠ j → (scan.probe i).port ≠ (scan.probe j).port)
    {i : ι} {seg : Segment ι} {v : Verdict} (hdel : scan.Delivered i seg)
    (hv : scan.verdictFor i seg = some v) :
    scan.IsOwn i seg ∨ v = .closed ∧ scan.target = scan.srcIp ∧
      ∃ j, j ≠ i ∧ seg.origin = .rst j ∧ scan.Mirrors i j := by
  have hcarries := carries_of_verdictFor hv
  unfold Delivered at hdel
  cases horigin : seg.origin with
  | syn j =>
      simp only [horigin] at hdel
      rw [hdel, verdictFor_synOf] at hv
      cases hv
  | rst j =>
      simp only [horigin] at hdel
      obtain ⟨hne, w, hseg⟩ := hdel
      obtain ⟨hself, hmirror, hclosed⟩ := mirrors_of_rst hseg hv
      exact .inr ⟨hclosed, hself, j, hne, rfl, hmirror⟩
  | answer j =>
      simp only [horigin] at hdel
      -- the answer to another probe comes from another port
      have hij : i = j := by
        by_contra hne
        exact hports i j hne (hcarries.2.1.symm.trans hdel.2.1)
      subst hij
      exact .inl ⟨.inl horigin, hcarries⟩
  | foreign => exact .inl ⟨.inr horigin, hcarries⟩

/-- **A probe is decided by its own segments only**: by a segment that the target's scanned port
sent to the probe's source port, and that belongs to no other probe.  The exception is a scan of
the own address in which another probe mirrors this one: the other's RST may then close the port.
Without such a probe the verdict is a function of the probe's own segments. -/
theorem probes_isolated
    (hports : ∀ i j, i ≠ j → (scan.probe i).port ≠ (scan.probe j).port)
    {s : Net ι} (h : scan.NetReachable s) (i : ι) :
    (∀ seg v, (s.status i).decision = some (seg, v) →
      scan.IsOwn i seg ∨ v = .closed ∧ scan.target = scan.srcIp ∧
        ∃ j, j ≠ i ∧ seg.origin = .rst j ∧ scan.Mirrors i j) ∧
    ((scan.target = scan.srcIp → ∀ j, j ≠ i → ¬ scan.Mirrors i j) →
      (s.status i).decision =
        ((s.seen i).filter fun seg => scan.IsOwn i seg).findSome? (scan.decisionFor i)) := by
  have hinv := netInv_of_reachable h
  constructor
  · intro seg v hdec
    rw [hinv.decision i] at hdec
    obtain ⟨x, hx, hfor⟩ := List.exists_of_findSome?_eq_some hdec
    obtain ⟨w, hw, heq⟩ := Option.map_eq_some_iff.1 hfor
    cases heq
    exact isOwn_or_rst_of_delivered hports (hinv.seen i seg hx) hw
  · intro hmirror
    -- a segment read that is not the probe's own decides nothing, so the search may skip it
    have hown : ∀ seg ∈ s.seen i, decide (scan.IsOwn i seg) = false →
        scan.decisionFor i seg = none := by
      intro seg hseg hnot
      refine Option.map_eq_none_iff.2 (Option.eq_none_iff_forall_ne_some.2 fun v hv => ?_)
      rcases isOwn_or_rst_of_delivered hports (hinv.seen i seg hseg) hv with hown | hrst
      · exact of_decide_eq_false hnot hown
      · obtain ⟨-, hself, j, hne, -, hmir⟩ := hrst
        exact hmirror hself j hne hmir
    rw [hinv.decision i, findSome_filter_of_none hown]

/-! ### A scan of the own address -/

/-- A SYN-ACK of the target to a probe. -/
def synAckTo (scan : Scan ι) (i : ι) : Segment ι :=
  let tcp := buildTcp scan.target scan.srcIp (scan.probe i).port (scan.probe i).srcPort.port 7 8
    0x12 64240
  ⟨.answer i, buildIpv4 9 scan.target scan.srcIp tcp ++ tcp⟩

omit [DecidableEq ι] in
theorem verdictFor_synAckTo (scan : Scan ι) (i j : ι) :
    scan.verdictFor i (scan.synAckTo j) =
      if (scan.probe j).port = (scan.probe i).port ∧
        (scan.probe j).srcPort.port = (scan.probe i).srcPort.port then some (.open 8)
      else none := by
  rw [verdictFor, synAckTo, verdictOf_packet, if_pos ⟨rfl, rfl⟩]
  rfl

/-- Two probes of another host. -/
def remoteScan : Scan Bool where
  target := ⟨192, 168, 0, 1⟩
  srcIp := ⟨192, 168, 0, 7⟩
  probe := fun second =>
    bif second then ⟨443, ⟨60000, by decide⟩, 4, 5, 6⟩ else ⟨80, ⟨50000, by decide⟩, 1, 2, 3⟩

/-- A run in which the first probe is answered after it has seen the SYNs of both. -/
theorem probes_isolated_remote :
    ∃ s : Net Bool, remoteScan.NetReachable s ∧
      (s.status false).decision = some (remoteScan.synAckTo false, .open 8) ∧
      (s.status false).decision =
        ((s.seen false).filter fun seg => remoteScan.IsOwn false seg).findSome?
          (remoteScan.decisionFor false) := by
  have hans : remoteScan.Carries false (remoteScan.synAckTo false).bytes :=
    carries_of_verdictFor (v := .open 8) (by rw [verdictFor_synAckTo, if_pos ⟨rfl, rfl⟩])
  have hskip : ∀ j, remoteScan.judgeOf false (remoteScan.synOf j) = some none := by
    intro j
    rw [judgeOf_eq, verdictFor_synOf]
  have hopen : remoteScan.judgeOf false (remoteScan.synAckTo false) = some (some (.open 8)) := by
    rw [judgeOf_eq, verdictFor_synAckTo, if_pos ⟨rfl, rfl⟩]
  have hrun := (Reachable.init : Reachable remoteScan.NetStep Net.init Net.init)
    |>.step (.openSocket false rfl) |>.step (.openSocket true rfl)
    |>.step (.send false rfl) |>.step (.send true rfl)
    |>.step (.answer false _ hans)
    |>.step (.skip false [] _ _ rfl rfl (hskip false))
    |>.step (.skip false [] _ _ rfl rfl (hskip true))
    |>.step (.decide false [] [] _ _ rfl rfl hopen)
  have hports : ∀ i j, i ≠ j → (remoteScan.probe i).port ≠ (remoteScan.probe j).port := by decide
  exact ⟨_, hrun, rfl,
    (probes_isolated hports hrun false).2 fun hself => absurd hself (by decide)⟩

/-- Two probes of the own address, each scanning the port the other sends from. -/
def mirroredScan : Scan Bool where
  target := ⟨192, 168, 0, 7⟩
  srcIp := ⟨192, 168, 0, 7⟩
  probe := fun second =>
    bif second then ⟨50000, ⟨60000, by decide⟩, 4, 5, 6⟩
    else ⟨60000, ⟨50000, by decide⟩, 1, 2, 3⟩

/-- In a scan of the own address the RST with which one probe ends its handshake makes the other
report a closed port. -/
theorem rst_closes_mirror :
    (mirroredScan.probe false).port ≠ (mirroredScan.probe true).port ∧
      ∃ s : Net Bool, mirroredScan.NetReachable s ∧
        ∃ seg, (s.status false).decision = some (seg, .closed) ∧ seg.origin = .rst true := by
  have hrst : mirroredScan.repliesOf true (.open 8) = [⟨.rst true,
    buildRstPacket 6 ⟨192, 168, 0, 7⟩ ⟨192, 168, 0, 7⟩ 60000 50000 8⟩] := rfl
  have hans : mirroredScan.Carries true (mirroredScan.synAckTo true).bytes :=
    carries_of_verdictFor (v := .open 8) (by rw [verdictFor_synAckTo, if_pos ⟨rfl, rfl⟩])
  have hskip : ∀ i j, mirroredScan.judgeOf i (mirroredScan.synOf j) = some none := by
    intro i j
    rw [judgeOf_eq, verdictFor_synOf]
  have hopen : mirroredScan.judgeOf true (mirroredScan.synAckTo true) = some (some (.open 8)) := by
    rw [judgeOf_eq, verdictFor_synAckTo, if_pos ⟨rfl, rfl⟩]
  have hother : mirroredScan.judgeOf false (mirroredScan.synAckTo true) = some none := by
    rw [judgeOf_eq, verdictFor_synAckTo, if_neg (by decide)]
  have hclose : mirroredScan.judgeOf false ⟨.rst true,
      buildRstPacket 6 ⟨192, 168, 0, 7⟩ ⟨192, 168, 0, 7⟩ 60000 50000 8⟩ =
        some (some .closed) := by
    rw [judgeOf_eq, verdictFor, buildRstPacket, verdictOf_packet]
    rfl
  have hrun := (Reachable.init : Reachable mirroredScan.NetStep Net.init Net.init)
    |>.step (.openSocket false rfl) |>.step (.send false rfl)
    |>.step (.openSocket true rfl) |>.step (.send true rfl)
    |>.step (.answer true _ hans)
    |>.step (.skip true [] _ _ rfl rfl (hskip true true))
    |>.step (.decide true [] [] _ _ rfl rfl hopen)
    |>.step (.skip false [] _ _ rfl rfl (hskip false false))
    |>.step (.skip false [] _ _ rfl rfl (hskip false true))
    |>.step (.skip false [] _ _ rfl rfl hother)
    |>.step (.decide false [] [] _ _ rfl rfl hclose)
  exact ⟨by decide, _, hrun, _, rfl, rfl⟩

end Scan

end Rnmap
