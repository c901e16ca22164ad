/-
**The SYN scan of one port.**

`scan_blocking` sends one SYN from a raw socket and then reads from that socket until a segment
decides the port or the deadline passes.  The raw socket delivers all TCP traffic of the machine;
the loop filters for its own addresses and ports.  What the operating system does is given by an
environment: the outcome of each system call, the random numbers, and for each round of the loop
what the read returns and when.

Main definitions:

* `Rnmap.SynEnv`, `Rnmap.RecvCall` — what happens to one scan;
* `Rnmap.judge` — the decision the loop takes on one received buffer;
* `Rnmap.recvLoop`, `Rnmap.scanBlocking` — the loop and the scan;
* `Rnmap.verdictOf`, `Rnmap.RecvCall.ending`, `Rnmap.callsBefore` — the same decision as a
  function of the buffer, the way a round may end the loop, and the rounds before the deadline.

Main results:

* `Rnmap.judge_eq` — the decision never panics;
* `Rnmap.recvLoop_eq` — **the loop is decided by the first round that can end it**;
* `Rnmap.scanBlocking_isProbeOf` — every result is about the port that was asked for.
-/

import Rnmap.SynPacket
import Rnmap.Result

set_option relaxedAutoImplicit false
set_option autoImplicit false

namespace Rnmap

open Bytes

/-! ### What happens to a scan -/

/-- A source port as `gen_range(32_768..=65_535)` picks it. -/
structure SourcePort where
  port : UInt16
  ephemeral : 32768 ≤ port.toNat

/-- One round of the receive loop: what `set_read_timeout` and `recv` return, and the clock when
`recv` has returned. -/
structure RecvCall where
  setReadTimeout : Except IoError Unit
  recv : Except IoError Bytes
  time : Duration

/-- What happens to one scan. -/
structure SynEnv where
  /-- The clock at the start of the scan. -/
  started : Duration
  /-- The local address of a UDP socket connected to the target, with the errors of binding,
  connecting and asking. -/
  localAddr : Except IoError IpAddr
  /-- The random source port and sequence number; `none` when the generator panics. -/
  random : Option (SourcePort × UInt32)
  /-- The random IP identifications of the SYN and of the final RST. -/
  ipIds : UInt16 × UInt16
  socket : Except IoError Unit
  setHeaderIncluded : Except IoError Unit
  setReadTimeout : Except IoError Unit
  setWriteTimeout : Except IoError Unit
  sendTo : Bytes → Except IoError Unit
  /-- The clock when the receive loop is entered. -/
  entered : Duration
  calls : List RecvCall

/-- `pick_source_ipv4_for`. -/
def pickSourceIpv4For (env : SynEnv) : Except Error Ipv4Addr :=
  match env.localAddr with
  | .ok (.v4 ip) => .ok ip
  | .ok (.v6 _) => .error (.other "unexpected IPv6 local addr".toList)
  | .error e => .error (.io e)

/-- Opening the raw socket and sending the SYN. -/
def sendSyn (env : SynEnv) (pkt : Bytes) : Except Error Unit := do
  env.socket.mapError (socketError "raw TCP socket".toList)
  env.setHeaderIncluded.mapError .io
  env.setReadTimeout.mapError .io
  env.setWriteTimeout.mapError .io
  (env.sendTo pkt).mapError .io

/-! ### The receive loop -/

/-- What a segment says about the probed port.  A SYN-ACK is answered with a RST that needs the
acknowledgement number. -/
inductive Verdict
  | open (ack : UInt32)
  | closed
  deriving DecidableEq, Repr

/-- The state a verdict reports. -/
def Verdict.state : Verdict → PortState
  | .open _ => .open
  | .closed => .closed

def Verdict.reason : Verdict → Text
  | .open _ => "syn-ack".toList
  | .closed => "rst".toList

/-- The packets sent on a verdict: `send_rst` after a SYN-ACK. -/
def Verdict.sends (id : UInt16) (srcIp target : Ipv4Addr) (srcPort port : UInt16) :
    Verdict → List Bytes
  | .open ack => [buildRstPacket id srcIp target srcPort port ack]
  | .closed => []

/-- The decision on one received buffer; the outer `Option` is `none` when the parser panics. -/
def judge (target srcIp : Ipv4Addr) (port srcPort : UInt16) (bytes : Bytes) :
    Option (Option Verdict) := do
  let parsed ← parseTcpInIpv4 bytes target srcIp
  match parsed with
  | some (srcP, dstP, flags, _seq, ack) =>
      if srcP = port ∧ dstP = srcPort then
        if flags &&& 0x12 = 0x12 then some (some (.open ack))
        else if flags &&& 0x04 = 0x04 then some (some .closed)
        else some none
      else some none
  | none => some none

/-- The result and the packets a scan leaves behind. -/
structure SynRun where
  result : Except Error PortResult
  /-- The packets handed to the raw socket, in order. -/
  sent : List Bytes

/-- What one scan is about: both ends, and when it started and has to end. -/
structure SynProbe where
  target : Ipv4Addr
  srcIp : Ipv4Addr
  port : UInt16
  srcPort : UInt16
  rstId : UInt16
  started : Duration
  deadline : Duration

/-- The result once the deadline has passed. -/
def SynProbe.filtered (p : SynProbe) : SynRun :=
  ⟨.ok ⟨p.port, .tcp, .filtered, "no-response".toList, none, none⟩, []⟩

/-- The result of a verdict reached at clock `time`. -/
def SynProbe.decided (p : SynProbe) (v : Verdict) (time : Duration) : SynRun :=
  ⟨.ok ⟨p.port, .tcp, v.state, v.reason, none, some (asMillis (time - p.started))⟩,
    v.sends p.rstId p.srcIp p.target p.srcPort p.port⟩

/-- The receive loop, entered at clock `now`.  When the calls run out nothing more arrives, and
the reads time out until the deadline. -/
def recvLoop (p : SynProbe) : Duration → List RecvCall → Option SynRun
  | _, [] => some p.filtered
  | now, call :: calls =>
      if p.deadline ≤ now then some p.filtered
      else
        -- the read timeout is what remains until the deadline, but at least 50 ms
        match call.setReadTimeout with
        | .error e => some ⟨.error (.io e), []⟩
        | .ok () =>
            match call.recv with
            | .ok bytes => do
                let verdict ← judge p.target p.srcIp p.port p.srcPort bytes
                match verdict with
                | some v => some (p.decided v call.time)
                | none => recvLoop p call.time calls
            | .error e =>
                if e.kind = .wouldBlock ∨ e.kind = .timedOut then recvLoop p call.time calls
                else some ⟨.error (.io e), []⟩

/-- `scan_blocking`; the outer `Option` is `none` when the blocking thread panics. -/
def scanBlocking (target : Ipv4Addr) (port : UInt16) (timing : Timing) (env : SynEnv) :
    Option SynRun :=
  match pickSourceIpv4For env with
  | .error e => some ⟨.error e, []⟩
  | .ok srcIp => do
      let (srcPort, seq) ← env.random
      let pkt := buildSynPacket env.ipIds.1 srcIp target srcPort.port port seq
      match sendSyn env pkt with
      | .error e => some ⟨.error e, []⟩
      | .ok () => do
          let run ← recvLoop ⟨target, srcIp, port, srcPort.port, env.ipIds.2, env.started,
            env.started + timing.connectTimeout⟩ env.entered env.calls
          some ⟨run.result, pkt :: run.sent⟩

/-! ### The decision of the loop -/

/-- What the flags of a segment decide. -/
def flagsVerdict (flags : UInt8) (ack : UInt32) : Option Verdict :=
  if flags &&& 0x12 = 0x12 then some (.open ack)
  else if flags &&& 0x04 = 0x04 then some .closed
  else none

/-- What the fields of a segment between the right addresses decide. -/
def fieldsVerdict (port srcPort : UInt16) : TcpFields → Option Verdict
  | (srcP, dstP, flags, _, ack) =>
      if srcP = port ∧ dstP = srcPort then flagsVerdict flags ack else none

/-- The decision on a buffer, as a function of the buffer. -/
def verdictOf (target srcIp : Ipv4Addr) (port srcPort : UInt16) (bytes : Bytes) : Option Verdict :=
  if IsTcpFor bytes target srcIp then
    fieldsVerdict port srcPort (tcpFields (bytes.drop (headerLen bytes)))
  else none

/-- **The decision never panics.** -/
theorem judge_eq (target srcIp : Ipv4Addr) (port srcPort : UInt16) (bytes : Bytes) :
    judge target srcIp port srcPort bytes = some (verdictOf target srcIp port srcPort bytes) := by
  rw [judge, parseTcpInIpv4_eq, verdictOf]
  by_cases hacc : IsTcpFor bytes target srcIp
  · rw [if_pos hacc, if_pos hacc]
    obtain ⟨srcP, dstP, flags, seq, ack⟩ := tcpFields (bytes.drop (headerLen bytes))
    simp only [Option.bind_eq_bind, Option.bind_some, fieldsVerdict, flagsVerdict]
    split_ifs <;> rfl
  · rw [if_neg hacc, if_neg hacc]
    rfl

/-- The decision on a TCP segment behind an IPv4 header. -/
theorem verdictOf_header_append {src dst : Ipv4Addr} (hdr : Ipv4TcpHeader src dst) {tcp : Bytes}
    (h : 20 ≤ tcp.length) (target srcIp : Ipv4Addr) (port srcPort : UInt16) :
    verdictOf target srcIp port srcPort (hdr.bytes ++ tcp) =
      if src = target ∧ dst = srcIp then fieldsVerdict port srcPort (tcpFields tcp) else none := by
  rw [verdictOf, hdr.headerLen_append tcp, List.drop_left]
  exact if_congr (isTcpFor_header_append hdr h target srcIp) rfl rfl

/-- The decision on a built packet. -/
theorem verdictOf_packet (target srcIp : Ipv4Addr) (port srcPort id : UInt16) (src dst : Ipv4Addr)
    (sp dp : UInt16) (seq ack : UInt32) (flags : UInt8) (win : UInt16) :
    verdictOf target srcIp port srcPort
        (buildIpv4 id src dst (buildTcp src dst sp dp seq ack flags win) ++
          buildTcp src dst sp dp seq ack flags win) =
      if src = target ∧ dst = srcIp then
        if sp = port ∧ dp = srcPort then flagsVerdict flags ack else none
      else none := by
  have hlen := length_buildTcp src dst sp dp seq ack flags win
  have hpacket := verdictOf_header_append (builtHeader id src dst hlen) hlen.ge target srcIp port
    srcPort
  rw [tcpFields_buildTcp] at hpacket
  exact hpacket

/-- Cutting a datagram to the receive buffer does not change the decision. -/
theorem verdictOf_take (target srcIp : Ipv4Addr) (port srcPort : UInt16) (bytes : Bytes) :
    verdictOf target srcIp port srcPort (bytes.take 1500) =
      verdictOf target srcIp port srcPort bytes := by
  have hle := headerLen_le bytes
  have hihl : headerLen (bytes.take 1500) = headerLen bytes := headerLen_take _ (by omega)
  have hacc : IsTcpFor (bytes.take 1500) target srcIp ↔ IsTcpFor bytes target srcIp := by
    rw [IsTcpFor, IsTcpFor, hihl, getD_take (by omega), addrAt_take _ (by omega),
      addrAt_take _ (by omega), List.length_take]
    constructor <;> rintro ⟨h20, hroom, hrest⟩ <;> exact ⟨by omega, by omega, hrest⟩
  have hfields : tcpFields ((bytes.take 1500).drop (headerLen bytes)) =
      tcpFields (bytes.drop (headerLen bytes)) := by
    have hdrop : ∀ i, i < 20 →
        ((bytes.take 1500).drop (headerLen bytes)).getD i 0 =
          (bytes.drop (headerLen bytes)).getD i 0 := by
      intro i hi
      simp only [List.getD, List.getElem?_drop]
      exact getD_take (by omega)
    simp only [tcpFields, hdrop 0 (by omega), hdrop 1 (by omega), hdrop 2 (by omega),
      hdrop 3 (by omega), hdrop 4 (by omega), hdrop 5 (by omega), hdrop 6 (by omega),
      hdrop 7 (by omega), hdrop 8 (by omega), hdrop 9 (by omega), hdrop 10 (by omega),
      hdrop 11 (by omega), hdrop 13 (by omega)]
  rw [verdictOf, verdictOf, hihl, hfields]
  exact if_congr hacc rfl rfl

/-- The way a round ends the loop, if it does: a failing system call or a verdict. -/
def RecvCall.ending (p : SynProbe) (call : RecvCall) : Option SynRun :=
  match call.setReadTimeout with
  | .error e => some ⟨.error (.io e), []⟩
  | .ok () =>
      match call.recv with
      | .ok bytes =>
          (verdictOf p.target p.srcIp p.port p.srcPort bytes).map fun v => p.decided v call.time
      | .error e =>
          if e.kind = .wouldBlock ∨ e.kind = .timedOut then none else some ⟨.error (.io e), []⟩

/-- The rounds that are entered before the deadline. -/
def callsBefore (deadline : Duration) : Duration → List RecvCall → List RecvCall
  | _, [] => []
  | now, call :: calls =>
      if deadline ≤ now then [] else call :: callsBefore deadline call.time calls

/-- One round: it ends the loop, or the loop goes on with the next. -/
theorem recvLoop_cons (p : SynProbe) {now : Duration} (call : RecvCall) (calls : List RecvCall)
    (h : now < p.deadline) :
    recvLoop p now (call :: calls) =
      match call.ending p with
      | some run => some run
      | none => recvLoop p call.time calls := by
  rw [recvLoop, if_neg (Nat.not_le.2 h), RecvCall.ending]
  cases call.setReadTimeout with
  | error e => rfl
  | ok _ =>
      cases call.recv with
      | error e =>
          dsimp only
          split_ifs <;> rfl
      | ok bytes =>
          simp only [judge_eq, Option.bind_eq_bind, Option.bind_some]
          cases verdictOf p.target p.srcIp p.port p.srcPort bytes <;> rfl

/-- **The loop is decided by the first round that can end it**; when no round before the deadline
can, the port is filtered. -/
theorem recvLoop_eq (p : SynProbe) (now : Duration) (calls : List RecvCall) :
    recvLoop p now calls =
      some (((callsBefore p.deadline now calls).findSome? (RecvCall.ending p)).getD
        p.filtered) := by
  induction calls generalizing now with
  | nil => rfl
  | cons call calls ih =>
      rcases Nat.lt_or_ge now p.deadline with h | h
      · rw [recvLoop_cons p call calls h, callsBefore, if_neg (Nat.not_le.2 h), List.findSome?_cons]
        cases call.ending p with
        | some run => rfl
        | none => exact ih call.time
      · -- the deadline has passed: the rounds that are left are not entered
        rw [recvLoop, callsBefore, if_pos h, if_pos h]
        rfl

/-! ### What a result is about -/

theorem RecvCall.isProbeOf_of_ending {p : SynProbe} {call : RecvCall} {run : SynRun}
    {r : PortResult} (h : call.ending p = some run) (hr : run.result = .ok r) :
    r.IsProbeOf p.port := by
  unfold RecvCall.ending at h
  split at h
  · cases h
    cases hr
  · split at h
    · obtain ⟨v, -, rfl⟩ := Option.map_eq_some_iff.1 h
      cases hr
      exact ⟨rfl, rfl, rfl⟩
    · split_ifs at h
      cases h
      cases hr

/-- The loop returns, and a result it returns is about the port of the probe. -/
theorem recvLoop_isProbeOf (p : SynProbe) (now : Duration) (calls : List RecvCall) :
    ∃ run, recvLoop p now calls = some run ∧ ∀ r, run.result = .ok r → r.IsProbeOf p.port := by
  refine ⟨_, recvLoop_eq p now calls, ?_⟩
  intro r hr
  cases hfind : (callsBefore p.deadline now calls).findSome? (RecvCall.ending p) with
  | none =>
      rw [hfind] at hr
      cases hr
      exact ⟨rfl, rfl, rfl⟩
  | some run =>
      rw [hfind] at hr
      obtain ⟨call, -, hcall⟩ := List.exists_of_findSome?_eq_some hfind
      exact RecvCall.isProbeOf_of_ending hcall hr

/-- **Every result is about the port that was asked for.** -/
theorem scanBlocking_isProbeOf {target : Ipv4Addr} {port : UInt16} {timing : Timing} {env : SynEnv}
    {run : SynRun} {r : PortResult} (h : scanBlocking target port timing env = some run)
    (hr : run.result = .ok r) : r.IsProbeOf port := by
  unfold scanBlocking at h
  split at h
  · cases h
    cases hr
  · cases hrand : env.random with
    | none => simp [hrand] at h
    | some random =>
        simp only [hrand, Option.bind_eq_bind, Option.bind_some] at h
        split at h
        · cases h
          cases hr
        · obtain ⟨run', hloop, hrun⟩ := Option.bind_eq_some_iff.1 h
          obtain ⟨run'', hloop', hprobe⟩ := recvLoop_isProbeOf _ env.entered env.calls
          obtain rfl : run' = run'' := Option.some.inj (hloop.symm.trans hloop')
          cases hrun
          exact hprobe r hr

/-! ### How a scan ends -/

/-- The loop ends at the deadline, with an error, or on a verdict. -/
theorem recvLoop_cases {p : SynProbe} {now : Duration} {calls : List RecvCall} {run : SynRun}
    (h : recvLoop p now calls = some run) :
    run = p.filtered ∨ (∃ e, run = ⟨.error e, []⟩) ∨ ∃ v time, run = p.decided v time := by
  rw [recvLoop_eq] at h
  obtain rfl := Option.some.inj h
  cases hfind : (callsBefore p.deadline now calls).findSome? (RecvCall.ending p) with
  | none => exact .inl rfl
  | some run =>
      obtain ⟨call, -, hcall⟩ := List.exists_of_findSome?_eq_some hfind
      unfold RecvCall.ending at hcall
      split at hcall
      · exact .inr (.inl ⟨_, (Option.some.inj hcall).symm⟩)
      · split at hcall
        · obtain ⟨v, -, hv⟩ := Option.map_eq_some_iff.1 hcall
          exact .inr (.inr ⟨v, call.time, hv.symm⟩)
        · split_ifs at hcall
          exact .inr (.inl ⟨_, (Option.some.inj hcall).symm⟩)

/-- A scan ends with an error before it sends anything, or it sends its SYN and ends as the loop
does. -/
theorem scanBlocking_cases {target : Ipv4Addr} {port : UInt16} {timing : Timing} {env : SynEnv}
    {run : SynRun} (h : scanBlocking target port timing env = some run) :
    (∃ e, run = ⟨.error e, []⟩) ∨
      ∃ (p : SynProbe) (seq : UInt32) (loop : SynRun), p.target = target ∧ p.port = port ∧
        run = ⟨loop.result,
          buildSynPacket env.ipIds.1 p.srcIp target p.srcPort port seq :: loop.sent⟩ ∧
        (loop = p.filtered ∨ (∃ e, loop = ⟨.error e, []⟩) ∨ ∃ v time, loop = p.decided v time) := by
  unfold scanBlocking at h
  cases hsrc : pickSourceIpv4For env with
  | error e =>
      rw [hsrc] at h
      exact .inl ⟨_, (Option.some.inj h).symm⟩
  | ok srcIp =>
      rw [hsrc] at h
      cases hrand : env.random with
      | none => simp [hrand] at h
      | some random =>
          obtain ⟨srcPort, seq⟩ := random
          simp only [hrand, Option.bind_eq_bind, Option.bind_some] at h
          split at h
          · exact .inl ⟨_, (Option.some.inj h).symm⟩
          · obtain ⟨loop, hloop, hrun⟩ := Option.bind_eq_some_iff.1 h
            let p : SynProbe := ⟨target, srcIp, port, srcPort.port, env.ipIds.2, env.started,
              env.started + timing.connectTimeout⟩
            have hcases : loop = p.filtered ∨ (∃ e, loop = ⟨.error e, []⟩) ∨
              ∃ v time, loop = p.decided v time := recvLoop_cases hloop
            exact .inr ⟨p, seq, loop, rfl, rfl, (Option.some.inj hrun).symm, hcases⟩

end Rnmap
