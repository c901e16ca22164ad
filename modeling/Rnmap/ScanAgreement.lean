/-
**The two scan strategies on one script.**

The command line substitutes the connect scan for the SYN scan without a word, so both should give
a port the same state.  The network is a script here: its reaction to the first, the second, …
SYN that reaches it.  Probing it `n` times reports the first reaction that is not silence.  The
connect scan probes `max_retries + 1` times; the SYN scan sends one SYN, whatever `max_retries` is.

Main definitions:

* `Rnmap.Reaction` — how the network reacts to one SYN;
* `Rnmap.probed` — the state `n` probes report;
* `Rnmap.SynProbe.IsSegment`, `Rnmap.IsSynAck`, `Rnmap.IsRst` — the segments that can decide;
* `Rnmap.RecvCall.reaction` — what a round receives as an answer;
* `Rnmap.QuietScan` — a SYN scan whose system calls succeed;
* `Rnmap.SynReacts`, `Rnmap.Attempt.ReactsAs` — a SYN scan, an attempt of the connect scan, that
  meets a reaction.

Main results:

* `Rnmap.verdictOf_eq_some_iff` — the segments that have a verdict, and the verdict;
* `Rnmap.scanBlocking_probed` — the SYN scan probes once;
* `Rnmap.connectScan_probed` — the connect scan probes `max_retries + 1` times;
* `Rnmap.strategies_agree_iff` — **the strategies agree when the first SYN is answered, or when
  none is**.
-/

import Rnmap.SynScan
import Rnmap.ConnectScan

set_option relaxedAutoImplicit false
set_option autoImplicit false

namespace Rnmap

open Bytes

/-! ### Scripts -/

/-- How the network reacts to a SYN until the timeout of the attempt. -/
inductive Reaction
  | synAck
  | rst
  | silence
  deriving DecidableEq, Repr

/-- The state a reaction decides. -/
def Reaction.decides : Reaction → Option PortState
  | .synAck => some .open
  | .rst => some .closed
  | .silence => none

theorem Reaction.decides_eq_none {r : Reaction} : r.decides = none ↔ r = .silence := by
  cases r <;> simp [Reaction.decides]

/-- A reaction never decides for filtered. -/
theorem Reaction.ne_filtered_of_decides {r : Reaction} {st : PortState}
    (h : r.decides = some st) : st ≠ .filtered := by
  cases r with
  | silence => cases h
  | synAck =>
      cases h
      exact PortState.noConfusion
  | rst =>
      cases h
      exact PortState.noConfusion

/-- The state reported after up to `n` probes. -/
def probed (script : ℕ → Reaction) (n : ℕ) : PortState :=
  ((List.range n).findSome? fun k => (script k).decides).getD .filtered

/-- No probe is answered exactly when the state is filtered. -/
theorem probed_eq_filtered (script : ℕ → Reaction) (n : ℕ) :
    probed script n = .filtered ↔ ∀ k < n, script k = .silence := by
  unfold probed
  cases hfind : (List.range n).findSome? fun k => (script k).decides with
  | none =>
      refine iff_of_true rfl fun k hk => ?_
      exact Reaction.decides_eq_none.1 (List.findSome?_eq_none_iff.1 hfind k (List.mem_range.2 hk))
  | some st =>
      obtain ⟨k, hk, hst⟩ := List.exists_of_findSome?_eq_some hfind
      refine iff_of_false (Reaction.ne_filtered_of_decides hst) fun hall => ?_
      rw [hall k (List.mem_range.1 hk)] at hst
      cases hst

/-- When the first probe is answered, the others do not matter. -/
theorem probed_succ_of_answered {script : ℕ → Reaction} (h : script 0 ≠ .silence) (n : ℕ) :
    probed script (n + 1) = probed script 1 := by
  unfold probed
  rw [List.range_succ_eq_map, List.range_one, List.findSome?_cons, List.findSome?_cons]
  cases hdec : (script 0).decides with
  | none => exact absurd (Reaction.decides_eq_none.1 hdec) h
  | some st => rfl

/-- **One probe and `n + 1` probes report the same state** when the first is answered or none
is. -/
theorem probed_one_eq_iff (script : ℕ → Reaction) (n : ℕ) :
    probed script 1 = probed script (n + 1) ↔
      script 0 ≠ .silence ∨ ∀ k ≤ n, script k = .silence := by
  by_cases h0 : script 0 = .silence
  · have hone : probed script 1 = .filtered := by
      rw [probed_eq_filtered]
      intro k hk
      obtain rfl := Nat.lt_one_iff.1 hk
      exact h0
    rw [hone, eq_comm, probed_eq_filtered]
    simp only [h0, ne_eq, not_true_eq_false, false_or, Nat.lt_succ_iff]
  · exact iff_of_true (probed_succ_of_answered h0 n).symm (.inl h0)

/-! ### Segments -/

/-- The TCP fields behind the IPv4 header of a datagram. -/
def segmentFields (bytes : Bytes) : TcpFields := tcpFields (bytes.drop (headerLen bytes))

def segmentFlags (bytes : Bytes) : UInt8 := (segmentFields bytes).2.2.1

def segmentAck (bytes : Bytes) : UInt32 := (segmentFields bytes).2.2.2.2

/-- A TCP segment from the probed port to the source port of the probe, as the parser reads it: the
segment stands behind the declared header, which need not have its five words. -/
def SynProbe.IsSegment (p : SynProbe) (bytes : Bytes) : Prop :=
  IsTcpFor bytes p.target p.srcIp ∧ (segmentFields bytes).1 = p.port ∧
    (segmentFields bytes).2.1 = p.srcPort

/-- SYN and ACK are set. -/
def IsSynAck (bytes : Bytes) : Prop := segmentFlags bytes &&& 0x12 = 0x12

/-- RST is set. -/
def IsRst (bytes : Bytes) : Prop := segmentFlags bytes &&& 0x04 = 0x04

instance (p : SynProbe) (bytes : Bytes) : Decidable (p.IsSegment bytes) :=
  inferInstanceAs (Decidable (IsTcpFor bytes p.target p.srcIp ∧
    (segmentFields bytes).1 = p.port ∧ (segmentFields bytes).2.1 = p.srcPort))

instance (bytes : Bytes) : Decidable (IsSynAck bytes) :=
  inferInstanceAs (Decidable (segmentFlags bytes &&& 0x12 = 0x12))

instance (bytes : Bytes) : Decidable (IsRst bytes) :=
  inferInstanceAs (Decidable (segmentFlags bytes &&& 0x04 = 0x04))

/-- The segments that have a verdict, and the verdict. -/
theorem verdictOf_eq_some_iff {p : SynProbe} {bytes : Bytes} {v : Verdict} :
    verdictOf p.target p.srcIp p.port p.srcPort bytes = some v ↔
      p.IsSegment bytes ∧ ((IsSynAck bytes ∧ v = .open (segmentAck bytes)) ∨
        (¬ IsSynAck bytes ∧ IsRst bytes ∧ v = .closed)) := by
  unfold verdictOf SynProbe.IsSegment
  by_cases htcp : IsTcpFor bytes p.target p.srcIp
  · rw [if_pos htcp]
    change (if (segmentFields bytes).1 = p.port ∧ (segmentFields bytes).2.1 = p.srcPort then
      flagsVerdict (segmentFlags bytes) (segmentAck bytes) else none) = some v ↔ _
    by_cases hports : (segmentFields bytes).1 = p.port ∧ (segmentFields bytes).2.1 = p.srcPort
    · rw [if_pos hports]
      simp only [htcp, hports, and_self, true_and]
      unfold flagsVerdict IsSynAck IsRst
      split_ifs with hsyn hrst
      · simp [hsyn, eq_comm]
      · simp [hsyn, hrst, eq_comm]
      · simp [hsyn, hrst]
    · rw [if_neg hports]
      simp [hports]
  · rw [if_neg htcp]
    simp [htcp]

/-- What a round receives as an answer to the probe: a SYN-ACK, or else a RST, of its 4-tuple. -/
def RecvCall.reaction (p : SynProbe) (call : RecvCall) : Option Reaction :=
  match call.recv with
  | .ok bytes =>
      if p.IsSegment bytes then
        if IsSynAck bytes then some .synAck else if IsRst bytes then some .rst else none
      else none
  | .error _ => none

/-! ### The strategies on a script -/

/-- The verdict of the segment a round receives, if it receives one that decides the port. -/
def RecvCall.verdict (p : SynProbe) (call : RecvCall) : Option Verdict :=
  match call.recv with
  | .ok bytes => verdictOf p.target p.srcIp p.port p.srcPort bytes
  | .error _ => none

/-- The probe of a scan that has got its source address and port. -/
def SynEnv.probe (env : SynEnv) (target : Ipv4Addr) (port : UInt16) (timing : Timing)
    (srcIp : Ipv4Addr) (srcPort : SourcePort) : SynProbe :=
  ⟨target, srcIp, port, srcPort.port, env.ipIds.2, env.started,
    env.started + timing.connectTimeout⟩

/-- The rounds a scan enters before its deadline; what the last of them receives may come behind
it. -/
def SynEnv.rounds (env : SynEnv) (timing : Timing) : List RecvCall :=
  callsBefore (env.started + timing.connectTimeout) env.entered env.calls

/-- A SYN scan whose system calls succeed: it sends its SYN, and no round entered before the
deadline fails other than by a timeout. -/
structure QuietScan (target : Ipv4Addr) (port : UInt16) (timing : Timing) (env : SynEnv)
    (srcIp : Ipv4Addr) (srcPort : SourcePort) (seq : UInt32) : Prop where
  localAddr : env.localAddr = .ok (.v4 srcIp)
  random : env.random = some (srcPort, seq)
  sent : sendSyn env (buildSynPacket env.ipIds.1 srcIp target srcPort.port port seq) = .ok ()
  armed : ∀ call ∈ env.rounds timing, call.setReadTimeout = .ok ()
  patient : ∀ call ∈ env.rounds timing, ∀ e, call.recv = .error e →
    e.kind = .wouldBlock ∨ e.kind = .timedOut

/-- A SYN scan whose system calls succeed and whose SYN meets a reaction: the first answer received
in a round entered before the deadline is a SYN-ACK or a RST, or there is none. -/
structure SynReacts (target : Ipv4Addr) (port : UInt16) (timing : Timing) (env : SynEnv)
    (srcIp : Ipv4Addr) (srcPort : SourcePort) (seq : UInt32) (r : Reaction) : Prop where
  localAddr : env.localAddr = .ok (.v4 srcIp)
  random : env.random = some (srcPort, seq)
  sent : ∀ pkt, sendSyn env pkt = .ok ()
  armed : ∀ call ∈ env.calls, call.setReadTimeout = .ok ()
  patient : ∀ call ∈ env.calls, ∀ e, call.recv = .error e →
    e.kind = .wouldBlock ∨ e.kind = .timedOut
  reaction : ((env.rounds timing).findSome?
    (RecvCall.reaction (env.probe target port timing srcIp srcPort))).getD .silence = r

/-- An attempt of the connect scan that meets a reaction. -/
def Attempt.ReactsAs (a : Attempt) : Reaction → Prop
  | .synAck => a.outcome = .connected
  | .rst => ∃ e, a.outcome = .failed e ∧ (e.kind = .connectionRefused ∨ e.kind = .connectionReset)
  | .silence => a.outcome = .elapsed

theorem Attempt.ReactsAs.decides_eq {a : Attempt} {r : Reaction} (h : a.ReactsAs r) :
    a.decides = r.decides := by
  unfold Attempt.decides
  cases r with
  | synAck =>
      rw [show a.outcome = .connected from h]
      rfl
  | rst =>
      obtain ⟨e, hfailed, hkind⟩ := h
      simp only [hfailed, if_pos hkind]
      rfl
  | silence =>
      rw [show a.outcome = .elapsed from h]
      rfl

theorem mem_of_mem_callsBefore {deadline now : Duration} {calls : List RecvCall} {call : RecvCall}
    (h : call ∈ callsBefore deadline now calls) : call ∈ calls := by
  induction calls generalizing now with
  | nil => cases h
  | cons c calls ih =>
      rw [callsBefore] at h
      split_ifs at h
      · cases h
      · rcases List.mem_cons.1 h with rfl | htail
        · exact List.mem_cons_self
        · exact List.mem_cons_of_mem _ (ih htail)

/-- With system calls that succeed, a round ends the loop by a verdict only. -/
theorem RecvCall.ending_eq {p : SynProbe} {call : RecvCall} (harmed : call.setReadTimeout = .ok ())
    (hpatient : ∀ e, call.recv = .error e → e.kind = .wouldBlock ∨ e.kind = .timedOut) :
    call.ending p = (call.verdict p).map fun v => p.decided v call.time := by
  rw [RecvCall.ending, harmed, RecvCall.verdict]
  cases hrecv : call.recv with
  | ok bytes => rfl
  | error e => simp only [if_pos (hpatient e hrecv), Option.map_none]

/-- The state the loop reports on rounds that end it by a verdict only. -/
theorem findSome_ending_state (p : SynProbe) (calls : List RecvCall)
    (h : ∀ call ∈ calls, call.ending p = (call.verdict p).map fun v => p.decided v call.time) :
    ∃ r, ((calls.findSome? (RecvCall.ending p)).getD p.filtered).result = .ok r ∧
      r.state = ((calls.findSome? (RecvCall.verdict p)).map Verdict.state).getD .filtered := by
  induction calls with
  | nil => exact ⟨_, rfl, rfl⟩
  | cons call calls ih =>
      rw [List.findSome?_cons, List.findSome?_cons, h call List.mem_cons_self]
      cases call.verdict p with
      | some v => exact ⟨_, rfl, rfl⟩
      | none => exact ih fun c hc => h c (List.mem_cons_of_mem _ hc)

/-- **A scan whose system calls succeed** reports the first verdict it receives in a round entered
before its deadline. -/
theorem scanBlocking_quiet {target : Ipv4Addr} {port : UInt16} {timing : Timing} {env : SynEnv}
    {srcIp : Ipv4Addr} {srcPort : SourcePort} {seq : UInt32}
    (h : QuietScan target port timing env srcIp srcPort seq) :
    ∃ run r, scanBlocking target port timing env = some run ∧ run.result = .ok r ∧
      r.state = (((env.rounds timing).findSome?
        (RecvCall.verdict (env.probe target port timing srcIp srcPort))).map
          Verdict.state).getD .filtered := by
  have hending : ∀ call ∈ env.rounds timing,
      call.ending (env.probe target port timing srcIp srcPort) =
        (call.verdict (env.probe target port timing srcIp srcPort)).map fun v =>
          (env.probe target port timing srcIp srcPort).decided v call.time :=
    fun call hcall => RecvCall.ending_eq (h.armed call hcall) (h.patient call hcall)
  obtain ⟨r, hr, hstate⟩ := findSome_ending_state _ _ hending
  have hscan : scanBlocking target port timing env =
      (recvLoop (env.probe target port timing srcIp srcPort) env.entered env.calls).bind fun run =>
        some ⟨run.result, buildSynPacket env.ipIds.1 srcIp target srcPort.port port seq ::
          run.sent⟩ := by
    rw [scanBlocking, pickSourceIpv4For, h.localAddr]
    simp only [h.random, h.sent, Option.bind_eq_bind, Option.bind_some]
    rfl
  rw [recvLoop_eq] at hscan
  exact ⟨_, r, hscan, hr, hstate⟩

theorem SynReacts.quiet {target : Ipv4Addr} {port : UInt16} {timing : Timing} {env : SynEnv}
    {srcIp : Ipv4Addr} {srcPort : SourcePort} {seq : UInt32} {r : Reaction}
    (h : SynReacts target port timing env srcIp srcPort seq r) :
    QuietScan target port timing env srcIp srcPort seq where
  localAddr := h.localAddr
  random := h.random
  sent := h.sent _
  armed := fun call hcall => h.armed call (mem_of_mem_callsBefore hcall)
  patient := fun call hcall => h.patient call (mem_of_mem_callsBefore hcall)

/-- The reaction a verdict is. -/
def Verdict.reaction : Verdict → Reaction
  | .open _ => .synAck
  | .closed => .rst

/-- A round has a verdict on the answers it receives, and on nothing else. -/
theorem RecvCall.verdict_reaction (p : SynProbe) (call : RecvCall) :
    (call.verdict p).map Verdict.reaction = call.reaction p := by
  unfold RecvCall.verdict RecvCall.reaction
  cases call.recv with
  | error e => rfl
  | ok bytes =>
      dsimp only
      split_ifs with hseg hsyn hrst
      · rw [verdictOf_eq_some_iff.2 ⟨hseg, .inl ⟨hsyn, rfl⟩⟩]
        rfl
      · rw [verdictOf_eq_some_iff.2 ⟨hseg, .inr ⟨hsyn, hrst, rfl⟩⟩]
        rfl
      · have hnone : verdictOf p.target p.srcIp p.port p.srcPort bytes = none :=
          Option.eq_none_iff_forall_ne_some.2 fun v hv =>
            (verdictOf_eq_some_iff.1 hv).2.elim (fun h => hsyn h.1) fun h => hrst h.2.1
        rw [hnone]
        rfl
      · have hnone : verdictOf p.target p.srcIp p.port p.srcPort bytes = none :=
          Option.eq_none_iff_forall_ne_some.2 fun v hv => hseg (verdictOf_eq_some_iff.1 hv).1
        rw [hnone]
        rfl

/-- The first verdict of a scan is on its first answer. -/
theorem findSome_reaction_decides (p : SynProbe) (calls : List RecvCall) :
    (calls.findSome? (RecvCall.verdict p)).map Verdict.state =
      ((calls.findSome? (RecvCall.reaction p)).getD .silence).decides := by
  induction calls with
  | nil => rfl
  | cons call calls ih =>
      rw [List.findSome?_cons, List.findSome?_cons, ← RecvCall.verdict_reaction]
      cases call.verdict p with
      | none => exact ih
      | some v => cases v <;> rfl

/-- **The SYN scan probes once.** -/
theorem scanBlocking_probed {target : Ipv4Addr} {port : UInt16} {timing : Timing} {env : SynEnv}
    {srcIp : Ipv4Addr} {srcPort : SourcePort} {seq : UInt32} {script : ℕ → Reaction}
    (h : SynReacts target port timing env srcIp srcPort seq (script 0)) :
    ∃ run r, scanBlocking target port timing env = some run ∧ run.result = .ok r ∧
      r.state = probed script 1 := by
  obtain ⟨run, r, hscan, hr, hstate⟩ := scanBlocking_quiet h.quiet
  refine ⟨run, r, hscan, hr, ?_⟩
  -- whatever `max_retries` is, the only SYN is the one the environment reacts to
  rw [hstate, findSome_reaction_decides, h.reaction, probed, List.range_one, List.findSome?_cons]
  cases (script 0).decides <;> rfl

/-- **The connect scan probes `max_retries + 1` times.** -/
theorem connectScan_probed (port : UInt16) (timing : Timing) {script : ℕ → Reaction}
    {attempts : ℕ → Attempt} (h : ∀ n, (attempts n).ReactsAs (script n)) (started : Duration) :
    (connectScan port timing attempts started).result.state =
      probed script (timing.maxRetries.toNat + 1) := by
  rw [connectScan_state, probed]
  simp only [(h _).decides_eq]

/-- **The strategies agree** exactly when the first SYN is answered, or when none of the SYNs of
the connect scan is. -/
theorem strategies_agree_iff {target : Ipv4Addr} {port : UInt16} {timing : Timing} {env : SynEnv}
    {srcIp : Ipv4Addr} {srcPort : SourcePort} {seq : UInt32} {script : ℕ → Reaction}
    {attempts : ℕ → Attempt} (hsyn : SynReacts target port timing env srcIp srcPort seq (script 0))
    (hconnect : ∀ n, (attempts n).ReactsAs (script n)) (started : Duration) :
    ∃ run r, scanBlocking target port timing env = some run ∧ run.result = .ok r ∧
      (r.state = (connectScan port timing attempts started).result.state ↔
        script 0 ≠ .silence ∨ ∀ n ≤ timing.maxRetries.toNat, script n = .silence) := by
  obtain ⟨run, r, hrun, hr, hstate⟩ := scanBlocking_probed hsyn
  refine ⟨run, r, hrun, hr, ?_⟩
  rw [hstate, connectScan_probed port timing hconnect started]
  exact probed_one_eq_iff script _

/-! ### A lossy network -/

/-- The round in which the target's answer with the given flags arrives, after a SYN from
`192.168.0.7` to `192.168.0.1`. -/
def answerRound (port : UInt16) (flags : UInt8) : RecvCall :=
  let tcp := buildTcp ⟨192, 168, 0, 1⟩ ⟨192, 168, 0, 7⟩ port 40000 7 8 flags 64240
  ⟨.ok (), .ok (buildIpv4 9 ⟨192, 168, 0, 1⟩ ⟨192, 168, 0, 7⟩ tcp ++ tcp), fromMillis 20⟩

/-- A SYN scan of `192.168.0.1` from `192.168.0.7` that receives the given rounds. -/
def sampleEnv (calls : List RecvCall) : SynEnv where
  started := 0
  localAddr := .ok (.v4 ⟨192, 168, 0, 7⟩)
  random := some (⟨40000, by decide⟩, 7)
  ipIds := (1, 2)
  socket := .ok ()
  setHeaderIncluded := .ok ()
  setReadTimeout := .ok ()
  setWriteTimeout := .ok ()
  sendTo := fun _ => .ok ()
  entered := fromMillis 1
  calls := calls

/-- The rounds of a scan whose SYN meets a reaction. -/
def roundsOf (port : UInt16) : Reaction → List RecvCall
  | .synAck => [answerRound port 0x12]
  | .rst => [answerRound port 0x14]
  | .silence => []

/-- An attempt that meets a reaction. -/
def attemptOf : Reaction → Attempt
  | .synAck => ⟨.connected, fromMillis 20, 0⟩
  | .rst => ⟨.failed ⟨.connectionRefused, some 111, "Connection refused".toList⟩, fromMillis 20, 0⟩
  | .silence => ⟨.elapsed, fromSecs 3, 0⟩

theorem attemptOf_reactsAs (r : Reaction) : (attemptOf r).ReactsAs r := by
  cases r with
  | synAck => rfl
  | rst => exact ⟨_, rfl, .inl rfl⟩
  | silence => rfl

/-- Every reaction is met by some scan. -/
theorem synReacts_sampleEnv (port : UInt16) (r : Reaction) :
    SynReacts ⟨192, 168, 0, 1⟩ port (Timing.new 3) (sampleEnv (roundsOf port r)) ⟨192, 168, 0, 7⟩
      ⟨40000, by decide⟩ 7 r := by
  have hverdict : ∀ calls flags, (answerRound port flags).verdict
      ((sampleEnv calls).probe ⟨192, 168, 0, 1⟩ port (Timing.new 3) ⟨192, 168, 0, 7⟩
        ⟨40000, by decide⟩) = flagsVerdict flags 8 := by
    intro calls flags
    simp only [RecvCall.verdict, answerRound, SynEnv.probe, verdictOf_packet, and_self, if_true]
  have hround : ∀ call, (sampleEnv [call]).rounds (Timing.new 3) = [call] := by
    intro call
    change callsBefore (0 + (Timing.new 3).connectTimeout) (fromMillis 1) [call] = [call]
    rw [callsBefore, if_neg (by decide +kernel), callsBefore]
  have hrounds : (sampleEnv (roundsOf port r)).rounds (Timing.new 3) = roundsOf port r := by
    cases r with
    | silence => rfl
    | synAck => exact hround _
    | rst => exact hround _
  refine ⟨rfl, rfl, fun _ => rfl, ?_, ?_, ?_⟩
  · cases r <;> simp [sampleEnv, roundsOf, answerRound]
  · cases r <;> simp [sampleEnv, roundsOf, answerRound]
  · rw [hrounds]
    cases r with
    | silence => rfl
    | synAck =>
        rw [roundsOf, List.findSome?_singleton, ← RecvCall.verdict_reaction, hverdict]
        rfl
    | rst =>
        rw [roundsOf, List.findSome?_singleton, ← RecvCall.verdict_reaction, hverdict]
        rfl

/-- A network that loses the first SYN and answers the others. -/
def lossyScript : ℕ → Reaction
  | 0 => .silence
  | _ + 1 => .synAck

/-- When the first SYN is lost and the second is answered, the SYN scan reports a filtered port
and the connect scan an open one. -/
theorem lost_syn_separates_strategies :
    ∃ env attempts run r,
      SynReacts ⟨192, 168, 0, 1⟩ 80 (Timing.new 3) env ⟨192, 168, 0, 7⟩ ⟨40000, by decide⟩ 7
        (lossyScript 0) ∧
      (∀ n, (attempts n : Attempt).ReactsAs (lossyScript n)) ∧
      scanBlocking ⟨192, 168, 0, 1⟩ 80 (Timing.new 3) env = some run ∧ run.result = .ok r ∧
      r.state = .filtered ∧ (connectScan 80 (Timing.new 3) attempts 0).result.state = .open := by
  have hsyn := synReacts_sampleEnv 80 (lossyScript 0)
  have hconnect : ∀ n, (attemptOf (lossyScript n)).ReactsAs (lossyScript n) :=
    fun n => attemptOf_reactsAs _
  obtain ⟨run, r, hrun, hr, hstate⟩ := scanBlocking_probed hsyn
  refine ⟨_, fun n => attemptOf (lossyScript n), run, r, hsyn, hconnect, hrun, hr, hstate, ?_⟩
  rw [connectScan_probed 80 (Timing.new 3) hconnect 0]
  rfl

/-- A network that answers every SYN. -/
theorem strategies_agree_iff_answered :
    ∃ run r, scanBlocking ⟨192, 168, 0, 1⟩ 80 (Timing.new 3) (sampleEnv (roundsOf 80 .synAck)) =
        some run ∧ run.result = .ok r ∧
      (r.state = (connectScan 80 (Timing.new 3) (fun _ => attemptOf .synAck) 0).result.state ↔
        Reaction.synAck ≠ .silence ∨
          ∀ n ≤ (Timing.new 3).maxRetries.toNat, Reaction.synAck = .silence) :=
  let script : ℕ → Reaction := fun _ => .synAck
  strategies_agree_iff (synReacts_sampleEnv 80 (script 0))
    (fun n => attemptOf_reactsAs (script n)) 0

end Rnmap
