/-
**The ICMP echo ping of host discovery.**

`icmp_v4_ping_blocking` opens a raw ICMP socket, sends one echo request and reads once from the
socket.  What the operating system does is given by an environment: the outcome of each system
call and the datagrams the raw socket delivers.  A raw ICMP socket sees every ICMP datagram of the
machine, so the environment may deliver anything.

The module embeds the ping and characterises its answer.  The verdict is that of the first
datagram delivered: any datagram of ICMP type zero is taken for the reply, whoever sent it and
whatever request it answers, and any other datagram ends the wait.

Main definitions:

* `Rnmap.buildIcmpEcho`, `Rnmap.stripIpv4` — the request, and the ICMP message of a datagram;
* `Rnmap.IcmpEnv`, `Rnmap.icmpV4PingBlocking`, `Rnmap.icmpPing` — the ping;
* `Rnmap.LooksLikeEchoReply` — the test the ping applies to the datagram it receives;
* `Rnmap.IsEchoReply` — a reply from an address to the request with an identifier and a sequence
  number.

Main results:

* `Rnmap.stripIpv4_eq` — the stripping never indexes out of range;
* `Rnmap.echo_request_valid` — **the request is valid and survives the stripping**;
* `Rnmap.icmpV4PingBlocking_eq_true_iff` — when the ping answers `Ok(true)`;
* `Rnmap.echo_sound_iff`, `Rnmap.echo_insensitive_iff` — exactly when an `Ok(true)` is backed by a
  reply of the target, and exactly when a reply of the target is noticed.
-/

import Rnmap.Checksum
import Rnmap.Ipv4Header
import Rnmap.Result

set_option relaxedAutoImplicit false
set_option autoImplicit false

namespace Rnmap

open Bytes

/-! ### The request and the stripping -/

/-- `build_icmp_echo`. -/
def buildIcmpEcho (id seq : UInt16) (payload : Bytes) : Bytes :=
  let pkt := [8] ++ [0] ++ [0, 0] ++ toBeBytes16 id ++ toBeBytes16 seq ++ payload
  copyAt pkt 2 (toBeBytes16 (checksum16 pkt))

/-- `strip_ipv4`: the bytes behind the IPv4 header of an ICMP datagram. -/
def stripIpv4 (buf : Bytes) : Option (Option Bytes) :=
  if buf.length < 20 then some none
  else do
    let proto ← buf[9]?
    if proto ≠ 1 then some none
    else
      let b0 ← buf[0]?
      let ihl := (b0 &&& 0x0f).toNat * 4
      if buf.length < ihl then some none
      else
        let payload ← sliceFrom buf ihl
        some (some payload)

/-- **The stripping never indexes out of range**: on every buffer it returns, and what it returns
is what follows the declared header, if the buffer has one and holds ICMP. -/
theorem stripIpv4_eq (buf : Bytes) :
    stripIpv4 buf = some (if 20 ≤ buf.length ∧ buf.getD 9 0 = 1 ∧ headerLen buf ≤ buf.length then
      some (buf.drop (headerLen buf)) else none) := by
  unfold stripIpv4
  by_cases h20 : buf.length < 20
  · rw [if_pos h20, if_neg fun h => by have := h.1; omega]
  rw [if_neg h20, getElem?_eq_some_getD (i := 0) (by omega),
    getElem?_eq_some_getD (i := 9) (by omega)]
  change (if buf.getD 9 0 ≠ 1 then some none
    else if buf.length < headerLen buf then some none
    else (sliceFrom buf (headerLen buf)).bind fun payload => some (some payload)) = _
  by_cases hproto : buf.getD 9 0 = 1
  · by_cases hihl : buf.length < headerLen buf
    · rw [if_neg (not_not.2 hproto), if_pos hihl, if_neg fun h => by have := h.2.2; omega]
    · rw [if_neg (not_not.2 hproto), if_neg hihl, sliceFrom_eq (by omega), Option.bind_some,
        if_pos ⟨by omega, hproto, by omega⟩]
  · rw [if_pos hproto, if_neg fun h => hproto h.2.1]

/-! ### The request on the wire -/

/-- The request with its checksum stored. -/
theorem buildIcmpEcho_eq (id seq : UInt16) (payload : Bytes) :
    let rest := toBeBytes16 id ++ toBeBytes16 seq ++ payload
    buildIcmpEcho id seq payload =
      [8, 0] ++ toBeBytes16 (checksum16 ([8, 0] ++ [0, 0] ++ rest)) ++ rest := rfl

/-- Stripping what is headed by a complete IPv4 header of protocol ICMP. -/
theorem stripIpv4_append {header : Bytes} (hlen : 20 ≤ header.length)
    (hihl : headerLen header = header.length) (hproto : header.getD 9 0 = 1) (icmp : Bytes) :
    stripIpv4 (header ++ icmp) = some (some icmp) := by
  have hhead : headerLen (header ++ icmp) = header.length := by
    rw [headerLen, getD_append_left (by omega)]
    exact hihl
  have hnine : (header ++ icmp).getD 9 0 = 1 := by
    rw [getD_append_left (by omega)]
    exact hproto
  have hle : header.length ≤ (header ++ icmp).length := by
    rw [List.length_append]
    exact Nat.le_add_right _ _
  rw [stripIpv4_eq, hhead, if_pos ⟨hlen.trans hle, hnine, hle⟩, List.drop_left]

/-- **The request is valid and survives the stripping of its header**: its checksum is zero, it
carries its type, code, identifier, sequence number and payload, and behind any IPv4 header of
protocol ICMP the stripping finds it again. -/
theorem echo_request_valid (id seq : UInt16) (payload : Bytes) (h : payload.length ≤ 65507) :
    checksum16 (buildIcmpEcho id seq payload) = 0 ∧
      (∃ hi lo, buildIcmpEcho id seq payload =
        [8, 0, hi, lo] ++ toBeBytes16 id ++ toBeBytes16 seq ++ payload) ∧
      ∀ header : Bytes, 20 ≤ header.length → headerLen header = header.length →
        header.getD 9 0 = 1 →
        stripIpv4 (header ++ buildIcmpEcho id seq payload) =
          some (some (buildIcmpEcho id seq payload)) := by
  refine ⟨?_, ?_, fun header hlen hihl hproto => stripIpv4_append hlen hihl hproto _⟩
  · rw [buildIcmpEcho_eq]
    apply checksum16_inserted _ _ (by decide)
    simp only [List.length_append, length_toBeBytes16, List.length_cons, List.length_nil]
    omega
  · exact ⟨_, _, rfl⟩

/-- A request behind a header of 24 bytes. -/
theorem echo_request_valid_options :
    let payload : Bytes := [114, 110, 109, 97, 112]
    let header : Bytes := [0x46, 0, 0, 37, 0, 0, 0, 0, 64, 1, 0, 0, 10, 0, 0, 2, 10, 0, 0, 1,
      1, 1, 1, 0]
    payload.length ≤ 65507 ∧ checksum16 (buildIcmpEcho 4321 1 payload) = 0 ∧
      stripIpv4 (header ++ buildIcmpEcho 4321 1 payload) =
        some (some (buildIcmpEcho 4321 1 payload)) := by
  intro payload header
  have hlen : payload.length ≤ 65507 := by decide
  obtain ⟨hsum, -, hstrip⟩ := echo_request_valid 4321 1 payload hlen
  exact ⟨hlen, hsum, hstrip header (by decide) (by decide) rfl⟩

/-! ### Recognising a reply -/

/-- The test the ping applies to what it receives: an ICMP datagram whose type byte is zero. -/
def LooksLikeEchoReply (buf : Bytes) : Prop :=
  20 ≤ buf.length ∧ buf.getD 9 0 = 1 ∧ headerLen buf < buf.length ∧ buf.getD (headerLen buf) 0 = 0

instance (buf : Bytes) : Decidable (LooksLikeEchoReply buf) :=
  inferInstanceAs (Decidable (20 ≤ buf.length ∧ buf.getD 9 0 = 1 ∧ headerLen buf < buf.length ∧
    buf.getD (headerLen buf) 0 = 0))

/-- An echo reply from `src` to the request with identifier `id` and sequence number `seq`. -/
def IsEchoReply (src : Ipv4Addr) (id seq : UInt16) (buf : Bytes) : Prop :=
  20 ≤ headerLen buf ∧ headerLen buf + 8 ≤ buf.length ∧ buf.getD 9 0 = 1 ∧ addrAt buf 12 = src ∧
    buf.getD (headerLen buf) 0 = 0 ∧
    fromBeBytes16 (buf.getD (headerLen buf + 4) 0) (buf.getD (headerLen buf + 5) 0) = id ∧
    fromBeBytes16 (buf.getD (headerLen buf + 6) 0) (buf.getD (headerLen buf + 7) 0) = seq

instance (src : Ipv4Addr) (id seq : UInt16) (buf : Bytes) :
    Decidable (IsEchoReply src id seq buf) :=
  inferInstanceAs (Decidable (20 ≤ headerLen buf ∧ headerLen buf + 8 ≤ buf.length ∧
    buf.getD 9 0 = 1 ∧ addrAt buf 12 = src ∧ buf.getD (headerLen buf) 0 = 0 ∧
    fromBeBytes16 (buf.getD (headerLen buf + 4) 0) (buf.getD (headerLen buf + 5) 0) = id ∧
    fromBeBytes16 (buf.getD (headerLen buf + 6) 0) (buf.getD (headerLen buf + 7) 0) = seq))

/-! ### The ping -/

/-- What the operating system does during one ping.  `queue` is what successive reads of the raw
socket return until the read timeout: a datagram or an error. -/
structure IcmpEnv where
  pid : UInt32
  socket : Except IoError Unit
  setReadTimeout : Except IoError Unit
  setWriteTimeout : Except IoError Unit
  sendTo : Bytes → Ipv4Addr → Except IoError Unit
  queue : List (Except IoError Bytes)

/-- The error of a read that ran into the read timeout. -/
def readTimedOut : IoError :=
  ⟨.wouldBlock, some 11, "Resource temporarily unavailable (os error 11)".toList⟩

/-- `sock.recv` into a buffer of 1500 bytes: the first datagram, cut to the buffer. -/
def IcmpEnv.recv (env : IcmpEnv) : Except IoError Bytes :=
  match env.queue with
  | [] => .error readTimedOut
  | .ok datagram :: _ => .ok (datagram.take 1500)
  | .error e :: _ => .error e

/-- The identifier of the echo request: the low sixteen bits of the process id. -/
def echoId (pid : UInt32) : UInt16 := (pid &&& (0xFFFF : UInt32)).toUInt16

/-- The sequence number of the echo request. -/
def echoSeq : UInt16 := 1

/-- The payload `b"rnmap"` of the echo request. -/
def echoPayload : Bytes := [114, 110, 109, 97, 112]

/-- The part of the ping before the read: open the socket, set the timeouts, send the request. -/
def sendEcho (target : Ipv4Addr) (env : IcmpEnv) : Except Error Unit := do
  env.socket.mapError (socketError "ICMP raw socket".toList)
  env.setReadTimeout.mapError .io
  env.setWriteTimeout.mapError .io
  (env.sendTo (buildIcmpEcho (echoId env.pid) echoSeq echoPayload) target).mapError .io

/-- `icmp_v4_ping_blocking`; the outer `Option` is `none` when the thread panics. -/
def icmpV4PingBlocking (target : Ipv4Addr) (env : IcmpEnv) : Option (Except Error Bool) :=
  match sendEcho target env with
  | .error e => some (.error e)
  | .ok () =>
      match env.recv with
      | .ok bytes => do
          let stripped ← stripIpv4 bytes
          match stripped with
          | some icmp => if icmp.head? = some 0 then some (.ok true) else some (.ok false)
          | none => some (.ok false)
      | .error e =>
          if e.kind = .wouldBlock ∨ e.kind = .timedOut then some (.ok false)
          else some (.error (.io e))

/-- The result of probing a single host. -/
structure DiscoveryOutcome where
  state : HostState
  reason : Text
  rtt : Option Duration
  deriving DecidableEq, Repr

/-- `icmp_ping`: `joinError` is the text of the error when the blocking thread panicked, and
`elapsed` the time the ping took. -/
def icmpPing (ip : IpAddr) (env : IcmpEnv) (joinError : Text) (elapsed : Duration) :
    Except Error DiscoveryOutcome :=
  match ip with
  | .v6 _ => .error (.other "ICMPv6 echo not implemented".toList)
  | .v4 target =>
      match icmpV4PingBlocking target env with
      | none => .error (.other ("join: ".toList ++ joinError))
      | some (.error e) => .error e
      | some (.ok true) => .ok ⟨.up, "icmp-echo-reply".toList, some elapsed⟩
      | some (.ok false) => .ok ⟨.down, "no-icmp-reply".toList, none⟩

/-! ### What the ping answers -/

/-- The first byte behind the header is the type byte. -/
theorem head?_drop_headerLen (buf : Bytes) :
    (buf.drop (headerLen buf)).head? = some 0 ↔
      headerLen buf < buf.length ∧ buf.getD (headerLen buf) 0 = 0 := by
  rw [List.head?_drop]
  constructor
  · intro h
    obtain ⟨hlt, -⟩ := List.getElem?_eq_some_iff.1 h
    rw [getElem?_eq_some_getD hlt] at h
    exact ⟨hlt, Option.some.inj h⟩
  · intro h
    rw [getElem?_eq_some_getD h.1, h.2]

/-- The answer to a received datagram is the test applied to it. -/
theorem icmpV4PingBlocking_of_recv {target : Ipv4Addr} {env : IcmpEnv} {bytes : Bytes}
    (hsend : sendEcho target env = .ok ()) (hrecv : env.recv = .ok bytes) :
    icmpV4PingBlocking target env = some (.ok (decide (LooksLikeEchoReply bytes))) := by
  simp only [icmpV4PingBlocking, hsend, hrecv, stripIpv4_eq, Option.bind_eq_bind, Option.bind_some]
  by_cases hstrip : 20 ≤ bytes.length ∧ bytes.getD 9 0 = 1 ∧ headerLen bytes ≤ bytes.length
  · rw [if_pos hstrip]
    by_cases htype : headerLen bytes < bytes.length ∧ bytes.getD (headerLen bytes) 0 = 0
    · have hlooks : LooksLikeEchoReply bytes := ⟨hstrip.1, hstrip.2.1, htype.1, htype.2⟩
      rw [decide_eq_true hlooks]
      exact if_pos ((head?_drop_headerLen bytes).2 htype)
    · have hlooks : ¬ LooksLikeEchoReply bytes := fun h => htype ⟨h.2.2.1, h.2.2.2⟩
      rw [decide_eq_false hlooks]
      exact if_neg fun h => htype ((head?_drop_headerLen bytes).1 h)
  · have hlooks : ¬ LooksLikeEchoReply bytes := fun h => hstrip ⟨h.1, h.2.1, h.2.2.1.le⟩
    rw [if_neg hstrip, decide_eq_false hlooks]

/-- **When the ping answers `Ok(true)`**: the request went out, and the first datagram delivered
passes the test. -/
theorem icmpV4PingBlocking_eq_true_iff (target : Ipv4Addr) (env : IcmpEnv) :
    icmpV4PingBlocking target env = some (.ok true) ↔
      sendEcho target env = .ok () ∧ ∃ bytes, env.recv = .ok bytes ∧ LooksLikeEchoReply bytes := by
  cases hsend : sendEcho target env with
  | error e => simp [icmpV4PingBlocking, hsend]
  | ok u =>
      cases hrecv : env.recv with
      | error e =>
          rw [icmpV4PingBlocking, hsend, hrecv]
          dsimp only
          split_ifs <;> simp
      -- the one read decides: there is no loop that would wait for the reply
      | ok bytes => simp [icmpV4PingBlocking_of_recv hsend hrecv]

/-! ### Soundness -/

/-- An ICMP datagram from `src` to `dst` with a twenty-byte IPv4 header. -/
def icmpDatagram (src dst : Ipv4Addr) (icmp : Bytes) : Bytes :=
  let h := [0x45, 0] ++ toBeBytes16 (UInt16.ofNat (20 + icmp.length)) ++
    [0, 0, 0, 0, 64, 1, 0, 0] ++ src.octets ++ dst.octets
  copyAt h 10 (toBeBytes16 (checksum16 h)) ++ icmp

/-- The reply to an echo request: type zero, everything else as in the request. -/
def echoReply (id seq : UInt16) (payload : Bytes) : Bytes :=
  let msg := [0] ++ [0] ++ [0, 0] ++ toBeBytes16 id ++ toBeBytes16 seq ++ payload
  copyAt msg 2 (toBeBytes16 (checksum16 msg))

/-- The environment in which every system call succeeds and the raw socket delivers the
datagrams. -/
def IcmpEnv.delivering (pid : UInt32) (datagrams : List Bytes) : IcmpEnv :=
  ⟨pid, .ok (), .ok (), .ok (), fun _ _ => .ok (), datagrams.map .ok⟩

/-- **An `Ok(true)` is backed by a reply of the target** exactly when the request did not go out,
or the first read does not return a datagram of ICMP type zero that is anything else: no later
step looks at the source address, the identifier or the sequence number. -/
theorem echo_sound_iff (target : Ipv4Addr) (env : IcmpEnv) :
    (icmpV4PingBlocking target env = some (.ok true) →
      ∃ bytes, env.recv = .ok bytes ∧ IsEchoReply target (echoId env.pid) echoSeq bytes) ↔
    (sendEcho target env = .ok () → ∀ bytes, env.recv = .ok bytes → LooksLikeEchoReply bytes →
      IsEchoReply target (echoId env.pid) echoSeq bytes) := by
  rw [icmpV4PingBlocking_eq_true_iff]
  constructor
  · intro h hsend bytes hrecv hlooks
    obtain ⟨bytes', hrecv', hreply⟩ := h ⟨hsend, bytes, hrecv, hlooks⟩
    obtain rfl : bytes = bytes' := Except.ok.inj (hrecv.symm.trans hrecv')
    exact hreply
  · rintro h ⟨hsend, bytes, hrecv, hlooks⟩
    exact ⟨bytes, hrecv, h hsend bytes hrecv hlooks⟩

/-- A reply of `10.0.0.9` to some other process's request is taken for the target's. -/
theorem echo_unsound :
    ¬ ∀ (target : Ipv4Addr) (env : IcmpEnv), icmpV4PingBlocking target env = some (.ok true) →
      ∃ bytes, env.recv = .ok bytes ∧ IsEchoReply target (echoId env.pid) echoSeq bytes := by
  intro h
  let reply := icmpDatagram ⟨10, 0, 0, 9⟩ ⟨10, 0, 0, 1⟩ (echoReply 77 3 [1, 2, 3, 4])
  obtain ⟨bytes, hrecv, hreply⟩ := h ⟨10, 0, 0, 2⟩ (IcmpEnv.delivering 4321 [reply])
    ((icmpV4PingBlocking_eq_true_iff _ _).2 ⟨rfl, reply, rfl, by decide⟩)
  obtain rfl : reply = bytes := Except.ok.inj hrecv
  exact absurd hreply (by decide)

/-! ### Unrelated traffic -/

/-- Cutting a datagram to the receive buffer does not change the test. -/
theorem looksLikeEchoReply_take (datagram : Bytes) :
    LooksLikeEchoReply (datagram.take 1500) ↔ LooksLikeEchoReply datagram := by
  have hle := headerLen_le datagram
  rw [LooksLikeEchoReply, LooksLikeEchoReply, headerLen_take _ (by omega), getD_take (by omega),
    getD_take (by omega), List.length_take]
  constructor <;> rintro ⟨h20, hproto, hlt, htype⟩ <;> exact ⟨by omega, hproto, by omega, htype⟩

/-- With every system call succeeding, the answer is the test applied to the first datagram. -/
theorem icmpV4PingBlocking_delivering (target : Ipv4Addr) (pid : UInt32) (datagrams : List Bytes) :
    icmpV4PingBlocking target (IcmpEnv.delivering pid datagrams) = some (.ok true) ↔
      ∃ first rest, datagrams = first :: rest ∧ LooksLikeEchoReply first := by
  rw [icmpV4PingBlocking_eq_true_iff]
  cases datagrams with
  | nil => simp [IcmpEnv.delivering, IcmpEnv.recv]
  | cons first rest =>
      constructor
      · rintro ⟨-, bytes, hrecv, hlooks⟩
        obtain rfl : first.take 1500 = bytes := Except.ok.inj hrecv
        exact ⟨first, rest, rfl, (looksLikeEchoReply_take first).1 hlooks⟩
      · rintro ⟨first', rest', heq, hlooks⟩
        obtain ⟨rfl, rfl⟩ := List.cons.inj heq
        exact ⟨rfl, first.take 1500, rfl, (looksLikeEchoReply_take first).2 hlooks⟩

/-- **A reply of the target is noticed** exactly when the first datagram delivered passes the
test: whatever comes second is never read. -/
theorem echo_insensitive_iff (target : Ipv4Addr) (pid : UInt32) (datagrams : List Bytes) :
    ((∃ d ∈ datagrams, IsEchoReply target (echoId pid) echoSeq d) →
      icmpV4PingBlocking target (IcmpEnv.delivering pid datagrams) = some (.ok true)) ↔
    ((∃ d ∈ datagrams, IsEchoReply target (echoId pid) echoSeq d) →
      ∃ first rest, datagrams = first :: rest ∧ LooksLikeEchoReply first) := by
  rw [icmpV4PingBlocking_delivering]

/-- Pinging a local address, the raw socket delivers the request before the reply. -/
theorem echo_sensitive :
    ¬ ∀ (target : Ipv4Addr) (pid : UInt32) (datagrams : List Bytes),
      (∃ d ∈ datagrams, IsEchoReply target (echoId pid) echoSeq d) →
        icmpV4PingBlocking target (IcmpEnv.delivering pid datagrams) = some (.ok true) := by
  intro h
  let request := icmpDatagram .localhost .localhost (buildIcmpEcho 4321 1 echoPayload)
  let reply := icmpDatagram .localhost .localhost (echoReply 4321 1 echoPayload)
  have hreply : IsEchoReply .localhost (echoId 4321) echoSeq reply := by decide
  have htrue := h .localhost 4321 [request, reply] ⟨reply, by simp, hreply⟩
  obtain ⟨first, rest, heq, hlooks⟩ := (icmpV4PingBlocking_delivering _ _ _).1 htrue
  obtain ⟨rfl, -⟩ := List.cons.inj heq
  exact absurd hlooks (by decide)

end Rnmap
