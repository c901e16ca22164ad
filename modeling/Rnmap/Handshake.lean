/-
**The half-open handshake.**

A SYN probe and the port it probes exchange datagrams over a network that loses, repeats and
reorders them, while the raw socket of the probe is also delivered the traffic of others.  The
probe is the one of `Rnmap/SynScan.lean`; the port is that of a TCP that drops what has a wrong
checksum, answers, sends its answer again and forgets a connection that is not established.

Main definitions:

* `Rnmap.Exchange`, `Rnmap.Exchange.heard` — a probe with its port, and what the port makes of a
  datagram;
* `Rnmap.Exchange.State`, `Rnmap.Exchange.Step` — the states and the steps;
* `Rnmap.Exchange.Inv` — the invariant.

Main results:

* `Rnmap.Exchange.heard_syn`, `Rnmap.Exchange.heard_rst` — what the probe sends is what the segments
  of a half-open handshake are;
* `Rnmap.Exchange.inv_of_reaches` — the invariant of every run;
* `Rnmap.Exchange.half_open` — **the handshake stays half open and its verdict is right**;
* `Rnmap.Exchange.scan_tells_listening` — **what a SYN scan reports of a port**.
-/

import Rnmap.Runs
import Rnmap.TcpEndpoint
import Rnmap.ShortHeader

set_option relaxedAutoImplicit false
set_option autoImplicit false

namespace Rnmap

open Bytes Runs

/-! ### Datagrams -/

/-- The segment with these header fields. -/
def toSegment (fields : TcpFields) : Tcp.Segment where
  seq := fields.2.2.2.1
  ack := fields.2.2.2.2
  syn := fields.2.2.1 &&& 0x02 = 0x02
  hasAck := fields.2.2.1 &&& 0x10 = 0x10
  rst := fields.2.2.1 &&& 0x04 = 0x04

/-- A probe with its sequence number and the identification of its SYN, and the receive window of
the port it probes. -/
structure Exchange where
  p : SynProbe
  seq : UInt32
  synId : UInt16
  window : Tcp.Window

namespace Exchange

variable (x : Exchange)

/-- The SYN of the probe. -/
def syn : Bytes := buildSynPacket x.synId x.p.srcIp x.p.target x.p.srcPort x.p.port x.seq

/-- The RST of the probe, in answer to an answer to its SYN. -/
def rst : Bytes :=
  buildRstPacket x.p.rstId x.p.srcIp x.p.target x.p.srcPort x.p.port (x.seq + 1)

/-- What the port makes of a datagram: nothing, if a checksum is wrong or it belongs to another
connection. -/
def heard (bytes : Bytes) : Option Tcp.Segment :=
  if checksum16 (bytes.take (headerLen bytes)) = 0 ∧
      tcpChecksum x.p.srcIp x.p.target (bytes.drop (headerLen bytes)) = 0 ∧
      IsTcpFor bytes x.p.srcIp x.p.target ∧ (segmentFields bytes).1 = x.p.srcPort ∧
      (segmentFields bytes).2.1 = x.p.port then
    some (toSegment (segmentFields bytes))
  else none

/-- A datagram with a segment from the port to the probe. -/
def Carries (bytes : Bytes) (r : Tcp.Segment) : Prop :=
  x.p.IsSegment bytes ∧ toSegment (segmentFields bytes) = r

variable {x}

theorem segmentFields_builtPacket (id : UInt16) (src dst : Ipv4Addr) (sp dp : UInt16)
    (seq ack : UInt32) (flags : UInt8) (win : UInt16) :
    segmentFields (builtPacket id src dst sp dp seq ack flags win) = (sp, dp, flags, seq, ack) := by
  rw [segmentFields, drop_headerLen_builtPacket, tcpFields_buildTcp]

/-- A packet the probe builds is heard. -/
theorem heard_builtPacket (id : UInt16) (seq : UInt32) (flags : UInt8) (win : UInt16) :
    x.heard (builtPacket id x.p.srcIp x.p.target x.p.srcPort x.p.port seq 0 flags win) =
      some (toSegment (x.p.srcPort, x.p.port, flags, seq, 0)) := by
  have hlen := length_buildTcp x.p.srcIp x.p.target x.p.srcPort x.p.port seq 0 flags win
  rw [heard, segmentFields_builtPacket, take_headerLen_builtPacket, drop_headerLen_builtPacket,
    if_pos]
  exact ⟨checksum16_buildIpv4 id _ _ hlen, tcpChecksum_buildTcp .., isTcpFor_builtPacket .., rfl,
    rfl⟩

/-- A packet of the port carries its segment. -/
theorem carries_builtPacket (id : UInt16) (seq ack : UInt32) (flags : UInt8) (win : UInt16) :
    x.Carries (builtPacket id x.p.target x.p.srcIp x.p.port x.p.srcPort seq ack flags win)
      (toSegment (x.p.port, x.p.srcPort, flags, seq, ack)) := by
  rw [Carries, SynProbe.IsSegment, segmentFields_builtPacket]
  exact ⟨⟨isTcpFor_builtPacket .., rfl, rfl⟩, rfl⟩

/-- The SYN of the probe opens a half-open handshake. -/
theorem heard_syn : x.heard x.syn = some (Tcp.opening x.seq) := by
  have hflags : toSegment (x.p.srcPort, x.p.port, 0x02, x.seq, 0) = Tcp.opening x.seq := by
    have hbits : (0x02 : UInt8) &&& 0x10 ≠ 0x10 ∧ (0x02 : UInt8) &&& 0x04 ≠ 0x04 := by decide
    simp [toSegment, Tcp.opening, hbits]
  rw [← hflags]
  exact heard_builtPacket x.synId x.seq 0x02 0xFFFF

/-- Its RST undoes it. -/
theorem heard_rst : x.heard x.rst = some (Tcp.undoing x.seq) := by
  have hflags : toSegment (x.p.srcPort, x.p.port, 0x04, x.seq + 1, 0) = Tcp.undoing x.seq := by
    have hbits : (0x04 : UInt8) &&& 0x02 ≠ 0x02 ∧ (0x04 : UInt8) &&& 0x10 ≠ 0x10 := by decide
    simp [toSegment, Tcp.undoing, hbits]
  rw [← hflags]
  exact heard_builtPacket x.p.rstId (x.seq + 1) 0x04 0

/-! ### The exchange -/

/-- What the probe is doing; a probe that has ended has a verdict, unless it gave up. -/
inductive Client
  | idle
  | waiting
  | ended (verdict : Option Verdict)

/-- A state: the probe with what it has sent and what it has received, the connection of the port,
and the datagrams in flight in either direction. -/
structure State where
  client : Client
  sent : List Bytes
  seen : List Bytes
  port : Tcp.Conn
  toTarget : List Bytes
  toClient : List Bytes

/-- Before the exchange. -/
def State.start (port : Tcp.Conn) : State := ⟨.idle, [], [], port, [], []⟩

variable (x)

/-- The packets the probe sends on a verdict. -/
def replies (v : Verdict) : List Bytes :=
  v.sends x.p.rstId x.p.srcIp x.p.target x.p.srcPort x.p.port

/-- The loop body of the probe, on a datagram that is delivered into its buffer. -/
def judged (bytes : Bytes) : Option (Option Verdict) :=
  judge x.p.target x.p.srcIp x.p.port x.p.srcPort (bytes.take 1500)

/-- **The steps**: the probe sends its SYN; the network loses or repeats a datagram; the port hears
one, and answers or does not; it sends its answer again, or gives its half-open connection up; the
probe reads any datagram of another connection, or one of the port, which decides it or does not; or
it gives up.  Datagrams arrive in any order. -/
inductive Step : State → State → Prop
  | send {s : State} : s.client = .idle →
      Step s { s with client := .waiting, sent := [x.syn], toTarget := s.toTarget ++ [x.syn] }
  | loseRequest {s : State} {pre post : List Bytes} {b : Bytes} :
      s.toTarget = pre ++ b :: post → Step s { s with toTarget := pre ++ post }
  | loseAnswer {s : State} {pre post : List Bytes} {b : Bytes} :
      s.toClient = pre ++ b :: post → Step s { s with toClient := pre ++ post }
  | repeatRequest {s : State} {b : Bytes} :
      b ∈ s.toTarget → Step s { s with toTarget := s.toTarget ++ [b] }
  | repeatAnswer {s : State} {b : Bytes} :
      b ∈ s.toClient → Step s { s with toClient := s.toClient ++ [b] }
  | hear {s : State} {pre post : List Bytes} {b : Bytes} {iss : UInt32} {seg : Tcp.Segment} :
      s.toTarget = pre ++ b :: post → x.heard b = some seg →
      (s.port.receive x.window iss seg).2 = none →
      Step s { s with port := (s.port.receive x.window iss seg).1, toTarget := pre ++ post }
  | answer {s : State} {pre post : List Bytes} {b b' : Bytes} {iss : UInt32}
      {seg r : Tcp.Segment} :
      s.toTarget = pre ++ b :: post → x.heard b = some seg →
      (s.port.receive x.window iss seg).2 = some r → x.Carries b' r →
      Step s { s with
        port := (s.port.receive x.window iss seg).1
        toTarget := pre ++ post
        toClient := s.toClient ++ [b'] }
  | answerAgain {s : State} {iss irs : UInt32} {b : Bytes} :
      s.port = .synReceived iss irs → x.Carries b (Tcp.synAck iss irs) →
      Step s { s with toClient := s.toClient ++ [b] }
  | forget {s : State} {iss irs : UInt32} :
      s.port = .synReceived iss irs → Step s { s with port := .listen }
  | overhear {s : State} {b : Bytes} :
      s.client = .waiting → ¬ x.p.IsSegment b → x.judged b = some none →
      Step s { s with seen := s.seen ++ [b.take 1500] }
  | overhearDecide {s : State} {b : Bytes} {v : Verdict} :
      s.client = .waiting → ¬ x.p.IsSegment b → x.judged b = some (some v) →
      Step s { s with
        client := .ended (some v)
        sent := s.sent ++ x.replies v
        seen := s.seen ++ [b.take 1500]
        toTarget := s.toTarget ++ x.replies v }
  | skip {s : State} {pre post : List Bytes} {b : Bytes} :
      s.client = .waiting → s.toClient = pre ++ b :: post → x.judged b = some none →
      Step s { s with toClient := pre ++ post, seen := s.seen ++ [b.take 1500] }
  | decide {s : State} {pre post : List Bytes} {b : Bytes} {v : Verdict} :
      s.client = .waiting → s.toClient = pre ++ b :: post → x.judged b = some (some v) →
      Step s { s with
        client := .ended (some v)
        sent := s.sent ++ x.replies v
        seen := s.seen ++ [b.take 1500]
        toTarget := s.toTarget ++ x.replies v
        toClient := pre ++ post }
  | giveUp {s : State} : s.client = .waiting → Step s { s with client := .ended none }

/-- The states of the runs of an exchange with a port. -/
def Reaches (port : Tcp.Conn) (s : State) : Prop := Reachable x.Step (.start port) s

/-! ### The invariant -/

/-- The verdict on a port that listens or is closed. -/
def rightVerdict (listening : Bool) : Verdict :=
  if listening then .open (x.seq + 1) else .closed

/-- The state the probe makes of a buffer. -/
def verdict (bytes : Bytes) : Option Verdict :=
  verdictOf x.p.target x.p.srcIp x.p.port x.p.srcPort bytes

/-- What the probe has sent and received by what it is doing. -/
def ClientInv (listening : Bool) (s : State) : Prop :=
  match s.client with
  | .idle => s.sent = [] ∧ s.seen = []
  | .waiting => s.sent = [x.syn] ∧ ∀ b ∈ s.seen, x.verdict b = none
  | .ended none => s.sent = [x.syn] ∧ ∀ b ∈ s.seen, x.verdict b = none
  | .ended (some v) => v = x.rightVerdict listening ∧ s.sent = x.syn :: x.replies v ∧
      ∃ before b, s.seen = before ++ [b] ∧ (∀ c ∈ before, x.verdict c = none) ∧
        x.verdict b = some v

/-- **The invariant**: the connection is half open at most, what is in flight are the segments of a
half-open handshake and the answers of such a port, and the verdict is right. -/
structure Inv (listening : Bool) (s : State) : Prop where
  halfOpen : s.port.HalfOpen x.seq
  listening_eq : s.port.listening = listening
  toTarget : ∀ b ∈ s.toTarget, b = x.syn ∨ b = x.rst
  toClient : ∀ b ∈ s.toClient, ∃ r, x.Carries b r ∧ r.Answers x.seq listening
  client : x.ClientInv listening s

variable {x}

theorem judged_eq (bytes : Bytes) : x.judged bytes = some (x.verdict (bytes.take 1500)) :=
  judge_eq _ _ _ _ _

/-- What a datagram decides does not depend on what is cut off. -/
theorem judged_eq_verdict (bytes : Bytes) : x.judged bytes = some (x.verdict bytes) := by
  rw [judged_eq, verdict, verdictOf_take]
  rfl

/-- Only a segment from the port to the probe decides it. -/
theorem isSegment_of_judged {b : Bytes} {v : Verdict} (h : x.judged b = some (some v)) :
    x.p.IsSegment b := by
  rw [judged_eq_verdict] at h
  exact (verdictOf_eq_some_iff.1 (Option.some.inj h)).1

/-- What the probe sends is heard as a segment of a half-open handshake. -/
theorem heard_of_request {b : Bytes} (hb : b = x.syn ∨ b = x.rst) {seg : Tcp.Segment}
    (h : x.heard b = some seg) : seg = Tcp.opening x.seq ∨ seg = Tcp.undoing x.seq := by
  rcases hb with rfl | rfl
  · rw [heard_syn] at h
    exact .inl (Option.some.inj h).symm
  · rw [heard_rst] at h
    exact .inr (Option.some.inj h).symm

/-- **The verdict on an answer is right.** -/
theorem verdict_of_answers {listening : Bool} {b : Bytes} {r : Tcp.Segment} (hb : x.Carries b r)
    (hr : r.Answers x.seq listening) {v : Verdict} (hv : x.verdict b = some v) :
    v = x.rightVerdict listening := by
  obtain ⟨-, rfl⟩ := hb
  obtain ⟨hack, -, hrst, hsyn⟩ := hr
  obtain ⟨-, hflags⟩ := verdictOf_eq_some_iff.1 hv
  cases listening with
  | true =>
      rcases hflags with ⟨-, rfl⟩ | ⟨-, hreset, -⟩
      · exact congrArg Verdict.open hack
      · exact absurd hreset (of_decide_eq_false hrst)
  | false =>
      rcases hflags with ⟨hboth, -⟩ | ⟨-, -, rfl⟩
      · -- SYN and ACK together hold SYN
        have hone : segmentFlags b &&& 0x02 = 0x02 := by
          have hmask : (0x02 : UInt8) = 0x12 &&& 0x02 := rfl
          rw [hmask, ← UInt8.and_assoc, show segmentFlags b &&& 0x12 = 0x12 from hboth]
        exact absurd (hsyn (decide_eq_true hone)) Bool.false_ne_true
      · rfl

/-! ### Steps keep the invariant -/

theorem inv_start {port : Tcp.Conn} (hport : port = .closed ∨ port = .listen) :
    x.Inv port.listening (.start port) := by
  refine ⟨?_, rfl, nofun, nofun, rfl, rfl⟩
  rcases hport with rfl | rfl <;> exact trivial

theorem mem_of_mem_removed {pre post as : List Bytes} {b c : Bytes} (h : as = pre ++ b :: post)
    (hc : c ∈ pre ++ post) : c ∈ as := by
  rw [h]
  rcases List.mem_append.1 hc with hc | hc
  · exact List.mem_append_left _ hc
  · exact List.mem_append_right _ (List.mem_cons_of_mem _ hc)

/-- What the probe replies with is the RST of a half-open handshake. -/
theorem eq_rst_of_mem_replies {listening : Bool} {b : Bytes}
    (h : b ∈ x.replies (x.rightVerdict listening)) : b = x.rst := by
  cases listening with
  | true => exact List.mem_singleton.1 h
  | false => cases h

theorem Inv.not_established {listening : Bool} {s : State} (h : x.Inv listening s) :
    s.port ≠ .established := by
  intro heq
  have hhalf := h.halfOpen
  rw [heq] at hhalf
  exact hhalf

/-- A port that hears what the probe sends stays as open as it was. -/
theorem Inv.hears {listening : Bool} {s : State} (h : x.Inv listening s) {b : Bytes}
    (hb : b ∈ s.toTarget) {seg : Tcp.Segment} (hseg : x.heard b = some seg) (iss : UInt32) :
    (s.port.receive x.window iss seg).1.HalfOpen x.seq ∧
      (s.port.receive x.window iss seg).1.listening = listening ∧
      ∀ r, (s.port.receive x.window iss seg).2 = some r → r.Answers x.seq listening := by
  have hsent := heard_of_request (h.toTarget b hb) hseg
  have hno : seg.hasAck = false := by rcases hsent with rfl | rfl <;> rfl
  refine ⟨Tcp.Conn.halfOpen_receive h.halfOpen hsent, ?_, fun r hr => ?_⟩
  · rw [(Tcp.Conn.receive_of_no_ack hno h.not_established).2, h.listening_eq]
  · rw [← h.listening_eq]
    exact Tcp.Conn.answers_receive h.halfOpen hsent hr

/-- A probe that reads a datagram which does not decide it has still received nothing that does. -/
theorem ClientInv.reads {listening : Bool} {s : State} (h : x.ClientInv listening s)
    (hwaiting : s.client = .waiting) {b : Bytes} (hnone : x.judged b = some none) :
    s.sent = [x.syn] ∧ ∀ c ∈ s.seen ++ [b.take 1500], x.verdict c = none := by
  simp only [ClientInv, hwaiting] at h
  rw [judged_eq] at hnone
  refine ⟨h.1, fun c hc => ?_⟩
  rcases List.mem_append.1 hc with hc | hc
  · exact h.2 c hc
  · exact List.mem_singleton.1 hc ▸ Option.some.inj hnone

/-- **A step keeps the invariant.** -/
theorem Inv.step {listening : Bool} {s t : State} (h : x.Inv listening s) (hs : x.Step s t) :
    x.Inv listening t := by
  have hclient := h.client
  cases hs with
  | send hidle =>
      simp only [ClientInv, hidle] at hclient
      refine ⟨h.halfOpen, h.listening_eq, ?_, h.toClient, rfl, ?_⟩
      · intro b hb
        rcases List.mem_append.1 hb with hb | hb
        · exact h.toTarget b hb
        · exact .inl (List.mem_singleton.1 hb)
      · rw [hclient.2]
        exact nofun
  | loseRequest hwire =>
      exact ⟨h.halfOpen, h.listening_eq, fun b hb => h.toTarget b (mem_of_mem_removed hwire hb),
        h.toClient, hclient⟩
  | loseAnswer hwire =>
      exact ⟨h.halfOpen, h.listening_eq, h.toTarget,
        fun b hb => h.toClient b (mem_of_mem_removed hwire hb), hclient⟩
  | repeatRequest hmem =>
      refine ⟨h.halfOpen, h.listening_eq, fun b hb => ?_, h.toClient, hclient⟩
      rcases List.mem_append.1 hb with hb | hb
      · exact h.toTarget b hb
      · exact List.mem_singleton.1 hb ▸ h.toTarget _ hmem
  | repeatAnswer hmem =>
      refine ⟨h.halfOpen, h.listening_eq, h.toTarget, fun b hb => ?_, hclient⟩
      rcases List.mem_append.1 hb with hb | hb
      · exact h.toClient b hb
      · exact List.mem_singleton.1 hb ▸ h.toClient _ hmem
  | @hear pre post b iss seg hwire hseg _ =>
      obtain ⟨hhalf, hlistening, -⟩ := h.hears (hwire ▸ List.mem_append_cons_self) hseg iss
      exact ⟨hhalf, hlistening, fun c hc => h.toTarget c (mem_of_mem_removed hwire hc), h.toClient,
        hclient⟩
  | @answer pre post b b' iss seg r hwire hseg hr hcarries =>
      obtain ⟨hhalf, hlistening, hanswers⟩ := h.hears (hwire ▸ List.mem_append_cons_self) hseg iss
      refine ⟨hhalf, hlistening, fun c hc => h.toTarget c (mem_of_mem_removed hwire hc),
        fun c hc => ?_, hclient⟩
      rcases List.mem_append.1 hc with hc | hc
      · exact h.toClient c hc
      · obtain rfl := List.mem_singleton.1 hc
        exact ⟨r, hcarries, hanswers r hr⟩
  | @answerAgain iss irs b hport hcarries =>
      refine ⟨h.halfOpen, h.listening_eq, h.toTarget, fun c hc => ?_, hclient⟩
      rcases List.mem_append.1 hc with hc | hc
      · exact h.toClient c hc
      · obtain rfl := List.mem_singleton.1 hc
        have hhalf := h.halfOpen
        have hlistening := h.listening_eq
        rw [hport] at hhalf hlistening
        obtain rfl : irs = x.seq := hhalf
        obtain rfl : true = listening := hlistening
        exact ⟨_, hcarries, rfl, rfl, rfl, fun _ => rfl⟩
  | forget hport =>
      have hlistening := h.listening_eq
      rw [hport] at hlistening
      exact ⟨trivial, hlistening, h.toTarget, h.toClient, hclient⟩
  | @overhear b hwaiting hother hnone =>
      refine ⟨h.halfOpen, h.listening_eq, h.toTarget, h.toClient, ?_⟩
      simp only [ClientInv, hwaiting]
      exact hclient.reads hwaiting hnone
  | overhearDecide _ hother hsome => exact absurd (isSegment_of_judged hsome) hother
  | @skip pre post b hwaiting hwire hnone =>
      refine ⟨h.halfOpen, h.listening_eq, h.toTarget,
        fun c hc => h.toClient c (mem_of_mem_removed hwire hc), ?_⟩
      simp only [ClientInv, hwaiting]
      exact hclient.reads hwaiting hnone
  | @decide pre post b v hwaiting hwire hsome =>
      simp only [ClientInv, hwaiting] at hclient
      rw [judged_eq] at hsome
      have hverdict := Option.some.inj hsome
      obtain ⟨r, hcarries, hanswers⟩ := h.toClient b (hwire ▸ List.mem_append_cons_self)
      obtain rfl := verdict_of_answers hcarries hanswers
        ((verdictOf_take _ _ _ _ b).symm.trans hverdict)
      refine ⟨h.halfOpen, h.listening_eq, fun c hc => ?_,
        fun c hc => h.toClient c (mem_of_mem_removed hwire hc), rfl, ?_, s.seen, _, rfl, hclient.2,
        hverdict⟩
      · rcases List.mem_append.1 hc with hc | hc
        · exact h.toTarget c hc
        · exact .inr (eq_rst_of_mem_replies hc)
      · rw [hclient.1]
        rfl
  | giveUp hwaiting =>
      simp only [ClientInv, hwaiting] at hclient
      exact ⟨h.halfOpen, h.listening_eq, h.toTarget, h.toClient, hclient⟩

/-- **The invariant holds in every run.** -/
theorem inv_of_reaches {port : Tcp.Conn} (hport : port = .closed ∨ port = .listen) {s : State}
    (h : x.Reaches port s) : x.Inv port.listening s :=
  h.invariant (inv_start hport) fun _ _ hinv hs => hinv.step hs

/-! ### What the handshake comes to -/

/-- What a probe has sent, and its verdict if it has one. -/
theorem Inv.sent {listening : Bool} {s : State} (h : x.Inv listening s) :
    s.sent <+: [x.syn, x.rst] ∧
      ∀ v, s.client = .ended (some v) → v = x.rightVerdict listening := by
  have hclient := h.client
  unfold ClientInv at hclient
  split at hclient
  · rename_i hidle
    rw [hclient.1]
    exact ⟨List.nil_prefix, fun v hv => by rw [hidle] at hv; cases hv⟩
  · rename_i hwaiting
    rw [hclient.1]
    exact ⟨⟨[x.rst], rfl⟩, fun v hv => by rw [hwaiting] at hv; cases hv⟩
  · rename_i hended
    rw [hclient.1]
    exact ⟨⟨[x.rst], rfl⟩, fun v hv => by rw [hended] at hv; cases hv⟩
  · rename_i v hended
    obtain ⟨hright, hsent, -⟩ := hclient
    refine ⟨?_, fun v' hv' => ?_⟩
    · rw [hsent, hright]
      cases listening with
      | true => exact ⟨[], rfl⟩
      | false => exact ⟨[x.rst], rfl⟩
    · rw [hended] at hv'
      cases hv'
      exact hright

/-- A verdict tells a listening port from a closed one. -/
theorem Inv.verdict_tells {port : Tcp.Conn} {s : State} (h : x.Inv port.listening s)
    (hport : port = .closed ∨ port = .listen) {v : Verdict} (hv : s.client = .ended (some v)) :
    (v = .open (x.seq + 1) ∧ port = .listen) ∨ (v = .closed ∧ port = .closed) := by
  have hright := h.sent.2 v hv
  rcases hport with rfl | rfl
  · exact .inr ⟨hright, rfl⟩
  · exact .inl ⟨hright, rfl⟩

/-- **The handshake stays half open and its verdict is right**, whatever the network loses, repeats
or reorders and whatever traffic of other connections the raw socket is delivered: the connection is
never established; the probe sends its SYN and then at most its RST, which takes a half-open
connection of the port back whenever it is heard; and the port is found open exactly if it
listens. -/
theorem half_open {port : Tcp.Conn} (hport : port = .closed ∨ port = .listen) {s : State}
    (h : x.Reaches port s) :
    s.port ≠ .established ∧ s.sent <+: [x.syn, x.rst] ∧
    (∀ iss iss' irs, s.port = .synReceived iss' irs → ∃ seg, x.heard x.rst = some seg ∧
      s.port.receive x.window iss seg = (.listen, none)) ∧
    ∀ v, s.client = .ended (some v) →
      (v = .open (x.seq + 1) ∧ port = .listen) ∨ (v = .closed ∧ port = .closed) := by
  have hinv := inv_of_reaches hport h
  refine ⟨hinv.not_established, hinv.sent.1, fun iss iss' irs hs => ?_,
    fun v hv => hinv.verdict_tells hport hv⟩
  have hhalf := hinv.halfOpen
  rw [hs] at hhalf ⊢
  obtain rfl : irs = x.seq := hhalf
  exact ⟨_, heard_rst, Tcp.Conn.receive_undoing x.window iss iss' x.seq⟩

/-- A SYN from `192.168.0.7` to port 80 of `192.168.0.1`. -/
def sample : Exchange where
  p := ⟨⟨192, 168, 0, 1⟩, ⟨192, 168, 0, 7⟩, 80, 40000, 2, 0, 0 + (Timing.new 3).connectTimeout⟩
  seq := 7
  synId := 1
  window := ⟨64240, by norm_num, by norm_num⟩

/-- The SYN-ACK of the port. -/
def sampleAnswer : Bytes :=
  builtPacket 9 ⟨192, 168, 0, 1⟩ ⟨192, 168, 0, 7⟩ 80 40000 7 8 0x12 64240

/-- The SYN is in flight. -/
def sampleWaiting : State := ⟨.waiting, [sample.syn], [], .listen, [sample.syn], []⟩

/-- The SYN-ACK is in flight. -/
def sampleHeard : State := ⟨.waiting, [sample.syn], [], .synReceived 7 7, [], [sampleAnswer]⟩

/-- The probe has read the SYN-ACK and its RST is in flight. -/
def sampleAnswered : State where
  client := .ended (some (.open 8))
  sent := [sample.syn, sample.rst]
  seen := [sampleAnswer]
  port := .synReceived 7 7
  toTarget := [sample.rst]
  toClient := []

theorem take_sampleAnswer : sampleAnswer.take 1500 = sampleAnswer := by
  refine List.take_of_length_le ?_
  have htcp := length_buildTcp ⟨192, 168, 0, 1⟩ ⟨192, 168, 0, 7⟩ 80 40000 7 8 0x12 64240
  rw [sampleAnswer, builtPacket, List.length_append, length_buildIpv4 _ _ _ htcp, htcp]
  decide

theorem reaches_sampleAnswered : sample.Reaches .listen sampleAnswered := by
  have hsend : sample.Step (.start .listen) sampleWaiting := .send rfl
  have hrequest : sampleWaiting.toTarget = [] ++ sample.syn :: [] := rfl
  have hreceive : (sampleWaiting.port.receive sample.window 7 (Tcp.opening sample.seq)).2 =
      some (Tcp.synAck 7 7) := rfl
  have hanswer : sample.Step sampleWaiting sampleHeard :=
    Step.answer hrequest heard_syn hreceive (carries_builtPacket 9 7 8 0x12 64240)
  have hwire : sampleHeard.toClient = [] ++ sampleAnswer :: [] := rfl
  have hjudged : sample.judged sampleAnswer = some (some (.open 8)) := by
    rw [judged_eq, take_sampleAnswer, verdict, sampleAnswer, builtPacket, verdictOf_packet]
    rfl
  have hdecide := Step.decide rfl hwire hjudged
  rw [take_sampleAnswer] at hdecide
  exact ((Reachable.init.step hsend).step hanswer).step hdecide

/-- The RST takes the half-open connection back. -/
theorem half_open_sample :
    sampleAnswered.port ≠ .established ∧ sampleAnswered.sent <+: [sample.syn, sample.rst] ∧
      ∃ seg, sample.heard sample.rst = some seg ∧
        sampleAnswered.port.receive sample.window 9 seg = (.listen, none) :=
  have h := half_open (.inr rfl) reaches_sampleAnswered
  ⟨h.1, h.2.1, h.2.2.1 9 7 7 rfl⟩

/-! ### What the scan reports -/

/-- The state a probe reports once it has ended or its deadline has passed. -/
def Client.state : Client → PortState
  | .ended (some v) => v.state
  | _ => .filtered

/-- Rounds that end the loop by a verdict only end it by the first. -/
theorem findSome?_ending (p : SynProbe) (calls : List RecvCall)
    (h : ∀ call ∈ calls, call.ending p = (call.verdict p).map fun v => p.decided v call.time) :
    ∃ time, calls.findSome? (RecvCall.ending p) =
      (calls.findSome? (RecvCall.verdict p)).map fun v => p.decided v time := by
  induction calls with
  | nil => exact ⟨0, rfl⟩
  | cons call calls ih =>
      rw [List.findSome?_cons, List.findSome?_cons, h call List.mem_cons_self]
      cases call.verdict p with
      | some v => exact ⟨call.time, rfl⟩
      | none => exact ih fun c hc => h c (List.mem_cons_of_mem _ hc)

/-- The first verdict of some rounds is that of the buffers they receive. -/
theorem findSome?_verdict_received (p : SynProbe) (calls : List RecvCall) :
    calls.findSome? (RecvCall.verdict p) =
      (received calls).findSome? (verdictOf p.target p.srcIp p.port p.srcPort) := by
  induction calls with
  | nil => rfl
  | cons call calls ih =>
      rw [received, List.filterMap_cons, List.findSome?_cons, RecvCall.verdict]
      cases call.recv with
      | error e => exact ih
      | ok bytes =>
          change _ = (bytes :: received calls).findSome? _
          rw [List.findSome?_cons]
          dsimp only
          cases verdictOf p.target p.srcIp p.port p.srcPort bytes with
          | none => exact ih
          | some v => rfl

/-- How a probe ends that has found this, at clock `time` if it has found something. -/
def ending (p : SynProbe) (verdict : Option Verdict) (time : Duration) : SynRun :=
  (verdict.map fun v => p.decided v time).getD p.filtered

/-- **A scan without failing system calls** sends its SYN and ends with the first verdict of what it
receives. -/
theorem scanBlocking_received {target : Ipv4Addr} {port : UInt16} {timing : Timing} {env : SynEnv}
    {srcIp : Ipv4Addr} {srcPort : SourcePort} {seq : UInt32} {p : SynProbe}
    (h : QuietScan target port timing env srcIp srcPort seq)
    (hp : env.probe target port timing srcIp srcPort = p) :
    ∃ time, scanBlocking target port timing env =
      some ⟨(ending p ((received (env.rounds timing)).findSome?
          (verdictOf p.target p.srcIp p.port p.srcPort)) time).result,
        buildSynPacket env.ipIds.1 srcIp target srcPort.port port seq ::
          (ending p ((received (env.rounds timing)).findSome?
            (verdictOf p.target p.srcIp p.port p.srcPort)) time).sent⟩ := by
  have hending : ∀ call ∈ env.rounds timing,
      call.ending p = (call.verdict p).map fun v => p.decided v call.time :=
    fun call hcall => RecvCall.ending_eq (h.armed call hcall) (h.patient call hcall)
  obtain ⟨time, htime⟩ := findSome?_ending p (env.rounds timing) hending
  have hscan : scanBlocking target port timing env =
      (recvLoop (env.probe target port timing srcIp srcPort) env.entered env.calls).bind fun run =>
        some ⟨run.result, buildSynPacket env.ipIds.1 srcIp target srcPort.port port seq ::
          run.sent⟩ := by
    rw [scanBlocking, pickSourceIpv4For, h.localAddr]
    simp only [h.random, h.sent, Option.bind_eq_bind, Option.bind_some]
    rfl
  have hdeadline : p.deadline = env.started + timing.connectTimeout :=
    (congrArg SynProbe.deadline hp).symm
  have hloop : recvLoop p env.entered env.calls =
      some (ending p ((received (env.rounds timing)).findSome?
        (verdictOf p.target p.srcIp p.port p.srcPort)) time) := by
    rw [recvLoop_eq, hdeadline, ← findSome?_verdict_received, ending, ← htime]
    rfl
  rw [hp, hloop, Option.bind_some] at hscan
  exact ⟨time, hscan⟩

/-- The verdict of a probe is the first of what it has received. -/
theorem Inv.findSome?_seen {listening : Bool} {s : State} (h : x.Inv listening s)
    (hidle : s.client ≠ .idle) : ∃ verdict, s.seen.findSome? x.verdict = verdict ∧
      s.client.state = (verdict.map Verdict.state).getD .filtered ∧
      s.sent = x.syn :: (verdict.map x.replies).getD [] := by
  have hclient := h.client
  have hnone : (∀ b ∈ s.seen, x.verdict b = none) → s.seen.findSome? x.verdict = none :=
    fun hseen => List.findSome?_eq_none_iff.2 hseen
  unfold ClientInv at hclient
  split at hclient
  · rename_i heq
    exact absurd heq hidle
  · rename_i heq
    exact ⟨none, hnone hclient.2, by rw [heq]; rfl, hclient.1⟩
  · rename_i heq
    exact ⟨none, hnone hclient.2, by rw [heq]; rfl, hclient.1⟩
  · rename_i v heq
    obtain ⟨-, hsent, before, b, hseen, hbefore, hb⟩ := hclient
    refine ⟨some v, ?_, by rw [heq]; rfl, hsent⟩
    rw [hseen, List.findSome?_append, List.findSome?_eq_none_iff.2 hbefore, Option.none_or,
      List.findSome?_singleton, hb]

/-- The state a probe reports tells a listening port from a closed one. -/
theorem Inv.state_tells {port : Tcp.Conn} {s : State} (h : x.Inv port.listening s)
    (hport : port = .closed ∨ port = .listen) :
    (s.client.state = .open → port = .listen) ∧ (s.client.state = .closed → port = .closed) := by
  have hverdict := h.sent.2
  cases hclient : s.client with
  | idle => exact ⟨nofun, nofun⟩
  | waiting => exact ⟨nofun, nofun⟩
  | ended verdict =>
      cases verdict with
      | none => exact ⟨nofun, nofun⟩
      | some v =>
          obtain rfl := hverdict v hclient
          rcases hport with rfl | rfl
          · exact ⟨nofun, fun _ => rfl⟩
          · exact ⟨fun _ => rfl, nofun⟩

variable (x) in
/-- A scan that follows the probe of an exchange: its system calls succeed, it is about the same
ports and numbers, and it receives what the probe has received. -/
structure Follows (s : State) (timing : Timing) (env : SynEnv) (srcPort : SourcePort) : Prop where
  begun : s.client ≠ .idle
  quiet : QuietScan x.p.target x.p.port timing env x.p.srcIp srcPort x.seq
  probe : env.probe x.p.target x.p.port timing x.p.srcIp srcPort = x.p
  synId : env.ipIds.1 = x.synId
  seen : received (env.rounds timing) = s.seen

/-- **A scan reports what the probe it follows has found**, and sends what that has sent. -/
theorem Follows.scanBlocking_eq {s : State} {timing : Timing} {env : SynEnv} {srcPort : SourcePort}
    (h : x.Follows s timing env srcPort) {listening : Bool} (hinv : x.Inv listening s) :
    ∃ run r, scanBlocking x.p.target x.p.port timing env = some run ∧ run.result = .ok r ∧
      run.sent = s.sent ∧ r.state = s.client.state := by
  obtain ⟨verdict, hfirst, hclient, hsent⟩ := hinv.findSome?_seen h.begun
  obtain ⟨time, hscan⟩ := scanBlocking_received h.quiet h.probe
  have hsrc : srcPort.port = x.p.srcPort := congrArg SynProbe.srcPort h.probe
  have hsyn : buildSynPacket env.ipIds.1 x.p.srcIp x.p.target srcPort.port x.p.port x.seq =
      x.syn := by
    rw [h.synId, hsrc, syn]
  have hfound : (received (env.rounds timing)).findSome?
      (verdictOf x.p.target x.p.srcIp x.p.port x.p.srcPort) = verdict := h.seen ▸ hfirst
  rw [hsyn, hfound] at hscan
  cases verdict with
  | none => exact ⟨_, _, hscan, rfl, hsent.symm, hclient.symm⟩
  | some v => exact ⟨_, _, hscan, rfl, hsent.symm, hclient.symm⟩

/-- **What a SYN scan reports of a port.**  A scan that follows the probe of some run reports what
that has found and sends what that has sent; so it reports only listening ports as open, and only
closed ones as closed. -/
theorem scan_tells_listening {port : Tcp.Conn} (hport : port = .closed ∨ port = .listen) {s : State}
    (h : x.Reaches port s) {timing : Timing} {env : SynEnv} {srcPort : SourcePort}
    (hfollows : x.Follows s timing env srcPort) :
    ∃ run r, scanBlocking x.p.target x.p.port timing env = some run ∧ run.result = .ok r ∧
      run.sent = s.sent ∧ r.state = s.client.state ∧
      (r.state = .open → port = .listen) ∧ (r.state = .closed → port = .closed) := by
  have hinv := inv_of_reaches hport h
  obtain ⟨run, r, hscan, hr, hsent, hstate⟩ := hfollows.scanBlocking_eq hinv
  exact ⟨run, r, hscan, hr, hsent, hstate, hstate ▸ hinv.state_tells hport⟩

/-- A scan that receives the SYN-ACK follows the probe of the sample. -/
theorem follows_sample :
    sample.Follows sampleAnswered (Timing.new 3) (sampleEnv [answerRound 80 0x12])
      ⟨40000, by decide⟩ := by
  have hrounds : (sampleEnv [answerRound 80 0x12]).rounds (Timing.new 3) =
      [answerRound 80 0x12] := by
    change callsBefore (0 + (Timing.new 3).connectTimeout) (fromMillis 1) [answerRound 80 0x12] = _
    rw [callsBefore, if_neg (by decide +kernel), callsBefore]
  have hbegun : sampleAnswered.client ≠ .idle := by
    intro h
    cases h
  exact ⟨hbegun, (synReacts_sampleEnv 80 .synAck).quiet, rfl, rfl, congrArg received hrounds⟩

/-- It reports an open port. -/
theorem scan_tells_listening_sample :
    ∃ run r, scanBlocking ⟨192, 168, 0, 1⟩ 80 (Timing.new 3) (sampleEnv [answerRound 80 0x12]) =
        some run ∧ run.result = .ok r ∧ run.sent = [sample.syn, sample.rst] ∧ r.state = .open := by
  obtain ⟨run, r, hrun, hr, hsent, hstate, -⟩ :=
    scan_tells_listening (.inr rfl) reaches_sampleAnswered follows_sample
  exact ⟨run, r, hrun, hr, hsent, hstate⟩

end Exchange

end Rnmap
