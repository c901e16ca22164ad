/-
**The packets of the SYN scan: builders and parser.**

The SYN scanner writes IPv4 and TCP headers byte by byte and reads answers back with a hand-written
parser.  This module embeds both.  The parser's indexing is checked: the outer `Option` of
`parseTcpInIpv4` is `none` when an index or a slice is out of range, which in the source is a
panic, and the inner one is the `Option` the source returns.

Main definitions:

* `Rnmap.buildIpv4`, `Rnmap.buildTcp`, `Rnmap.tcpChecksum`, `Rnmap.buildSynPacket` — the builders;
* `Rnmap.parseTcpInIpv4` — the parser;
* `Rnmap.IsTcpFor`, `Rnmap.tcpFields` — when the parser accepts a buffer, and what it returns;
* `Rnmap.Ipv4TcpHeader` — an IPv4 header for TCP with up to ten words of options.

Main results:

* `Rnmap.parseTcpInIpv4_eq` — **the parser never indexes out of range**, and what it returns;
* `Rnmap.parse_header_append` — behind any IPv4 header for TCP the parser reads the TCP header;
* `Rnmap.packet_round_trip` — **builders and parser agree**.
-/

import Rnmap.Checksum
import Rnmap.Ipv4Header

set_option relaxedAutoImplicit false
set_option autoImplicit false

namespace Rnmap

open Bytes

/-! ### The builders -/

/-- `tcp_checksum`: the checksum over the pseudo-header and the segment. -/
def tcpChecksum (src dst : Ipv4Addr) (tcp : Bytes) : UInt16 :=
  let buf := src.octets ++ dst.octets ++ [0] ++ [6] ++ toBeBytes16 (UInt16.ofNat tcp.length) ++ tcp
  checksum16 (if buf.length % 2 ≠ 0 then buf ++ [0] else buf)

/-- `build_tcp`: a 20-byte TCP header. -/
def buildTcp (src dst : Ipv4Addr) (sp dp : UInt16) (seq ack : UInt32) (flags : UInt8)
    (win : UInt16) : Bytes :=
  let t := toBeBytes16 sp ++ toBeBytes16 dp ++ toBeBytes32 seq ++ toBeBytes32 ack ++ [0x50] ++
    [flags] ++ toBeBytes16 win ++ [0, 0] ++ [0, 0]
  copyAt t 16 (toBeBytes16 (tcpChecksum src dst t))

/-- `build_ipv4`: a 20-byte IPv4 header for a TCP payload; `id` is the random identification. -/
def buildIpv4 (id : UInt16) (src dst : Ipv4Addr) (payload : Bytes) : Bytes :=
  let total := 20 + UInt16.ofNat payload.length
  let h := [0x45] ++ [0x00] ++ toBeBytes16 total ++ toBeBytes16 id ++ [0x40, 0x00] ++ [64] ++ [6] ++
    [0, 0] ++ src.octets ++ dst.octets
  copyAt h 10 (toBeBytes16 (checksum16 h))

/-- `build_syn_packet`. -/
def buildSynPacket (id : UInt16) (src dst : Ipv4Addr) (sp dp : UInt16) (seq : UInt32) : Bytes :=
  let tcp := buildTcp src dst sp dp seq 0 0x02 0xFFFF
  buildIpv4 id src dst tcp ++ tcp

/-- The packet of `send_rst`. -/
def buildRstPacket (id : UInt16) (src dst : Ipv4Addr) (sp dp : UInt16) (ackWeGot : UInt32) :
    Bytes :=
  let p := buildTcp src dst sp dp ackWeGot 0 0x04 0
  buildIpv4 id src dst p ++ p

/-! ### The parser -/

/-- What the parser reads off a TCP header: ports, flags, sequence and acknowledgement numbers. -/
abbrev TcpFields := UInt16 × UInt16 × UInt8 × UInt32 × UInt32

/-- The fields of the TCP header at the front of a slice. -/
def readTcp (tcp : Bytes) : Option TcpFields := do
  let sp := fromBeBytes16 (← tcp[0]?) (← tcp[1]?)
  let dp := fromBeBytes16 (← tcp[2]?) (← tcp[3]?)
  let seq := fromBeBytes32 (← tcp[4]?) (← tcp[5]?) (← tcp[6]?) (← tcp[7]?)
  let ack := fromBeBytes32 (← tcp[8]?) (← tcp[9]?) (← tcp[10]?) (← tcp[11]?)
  let flags ← tcp[13]?
  return (sp, dp, flags, seq, ack)

/-- `parse_tcp_in_ipv4`. -/
def parseTcpInIpv4 (buf : Bytes) (expectSrc expectDst : Ipv4Addr) : Option (Option TcpFields) :=
  if buf.length < 20 then some none
  else do
    let b0 ← buf[0]?
    let ihl := (b0 &&& 0x0f).toNat * 4
    if buf.length < ihl + 20 then some none
    else
      let proto ← buf[9]?
      if proto ≠ 6 then some none
      else
        let s ← readAddr buf 12
        let d ← readAddr buf 16
        if s ≠ expectSrc ∨ d ≠ expectDst then some none
        else
          let tcp ← sliceFrom buf ihl
          let fields ← readTcp tcp
          some (some fields)

/-- The buffers the parser accepts: room for the declared header and twenty bytes of TCP, the
protocol number of TCP, and the two addresses asked for. -/
def IsTcpFor (buf : Bytes) (src dst : Ipv4Addr) : Prop :=
  20 ≤ buf.length ∧ headerLen buf + 20 ≤ buf.length ∧ buf.getD 9 0 = 6 ∧ addrAt buf 12 = src ∧
    addrAt buf 16 = dst

instance (buf : Bytes) (src dst : Ipv4Addr) : Decidable (IsTcpFor buf src dst) :=
  inferInstanceAs (Decidable (20 ≤ buf.length ∧ headerLen buf + 20 ≤ buf.length ∧
    buf.getD 9 0 = 6 ∧ addrAt buf 12 = src ∧ addrAt buf 16 = dst))

/-- The fields of a TCP header. -/
def tcpFields (tcp : Bytes) : TcpFields :=
  (fromBeBytes16 (tcp.getD 0 0) (tcp.getD 1 0), fromBeBytes16 (tcp.getD 2 0) (tcp.getD 3 0),
    tcp.getD 13 0,
    fromBeBytes32 (tcp.getD 4 0) (tcp.getD 5 0) (tcp.getD 6 0) (tcp.getD 7 0),
    fromBeBytes32 (tcp.getD 8 0) (tcp.getD 9 0) (tcp.getD 10 0) (tcp.getD 11 0))

theorem readTcp_eq {tcp : Bytes} (h : 20 ≤ tcp.length) : readTcp tcp = some (tcpFields tcp) := by
  have hget : ∀ k, k < 20 → tcp[k]? = some (tcp.getD k 0) :=
    fun k hk => getElem?_eq_some_getD (by omega)
  simp only [readTcp, tcpFields, hget 0 (by omega), hget 1 (by omega), hget 2 (by omega),
    hget 3 (by omega), hget 4 (by omega), hget 5 (by omega), hget 6 (by omega), hget 7 (by omega),
    hget 8 (by omega), hget 9 (by omega), hget 10 (by omega), hget 11 (by omega),
    hget 13 (by omega), Option.bind_eq_bind, Option.bind_some, Option.pure_def]

/-- **The parser never indexes out of range**: on every buffer it returns, and what it returns are
the TCP fields behind the declared header exactly when it accepts the buffer. -/
theorem parseTcpInIpv4_eq (buf : Bytes) (src dst : Ipv4Addr) :
    parseTcpInIpv4 buf src dst =
      some (if IsTcpFor buf src dst then some (tcpFields (buf.drop (headerLen buf)))
        else none) := by
  unfold parseTcpInIpv4
  by_cases h20 : buf.length < 20
  · rw [if_pos h20, if_neg fun h => by have := h.1; omega]
  rw [if_neg h20, getElem?_eq_some_getD (i := 0) (by omega),
    getElem?_eq_some_getD (i := 9) (by omega), readAddr_eq (i := 12) (by omega),
    readAddr_eq (i := 16) (by omega)]
  change (if buf.length < headerLen buf + 20 then some none
    else if buf.getD 9 0 ≠ 6 then some none
    else if addrAt buf 12 ≠ src ∨ addrAt buf 16 ≠ dst then some none
    else (sliceFrom buf (headerLen buf)).bind fun tcp =>
      (readTcp tcp).bind fun f => some (some f)) = _
  by_cases hihl : buf.length < headerLen buf + 20
  · rw [if_pos hihl, if_neg fun h => by have := h.2.1; omega]
  by_cases hproto : buf.getD 9 0 = 6
  · by_cases haddr : addrAt buf 12 = src ∧ addrAt buf 16 = dst
    · have hslice : sliceFrom buf (headerLen buf) = some (buf.drop (headerLen buf)) :=
        sliceFrom_eq (by omega)
      have hread : readTcp (buf.drop (headerLen buf)) =
          some (tcpFields (buf.drop (headerLen buf))) :=
        readTcp_eq (by rw [List.length_drop]; omega)
      rw [if_neg hihl, if_neg (not_not.2 hproto), if_neg (by simp [haddr]), hslice,
        Option.bind_some, hread, Option.bind_some,
        if_pos ⟨by omega, by omega, hproto, haddr.1, haddr.2⟩]
    · rw [if_neg hihl, if_neg (not_not.2 hproto), if_pos (by tauto),
        if_neg fun h => haddr h.2.2.2]
  · rw [if_neg hihl, if_pos hproto, if_neg fun h => hproto h.2.2.1]

/-! ### Builders and parser agree -/

/-- An IPv4 header for TCP between two addresses, with up to ten words of options.  The bytes the
parser does not look at are arbitrary. -/
structure Ipv4TcpHeader (src dst : Ipv4Addr) where
  bytes : Bytes
  /-- The number of 32-bit words of options. -/
  words : ℕ
  words_le : words ≤ 10
  length_eq : bytes.length = 20 + 4 * words
  versionIhl : bytes.getD 0 0 = UInt8.ofNat (0x45 + words)
  protocol : bytes.getD 9 0 = 6
  source : addrAt bytes 12 = src
  destination : addrAt bytes 16 = dst

/-- The declared length of a header is its length. -/
theorem Ipv4TcpHeader.headerLen_append {src dst : Ipv4Addr} (hdr : Ipv4TcpHeader src dst)
    (rest : Bytes) : headerLen (hdr.bytes ++ rest) = hdr.bytes.length := by
  have hlen := hdr.length_eq
  have hnibble : ∀ w, w ≤ 10 → (UInt8.ofNat (0x45 + w) &&& 0x0f).toNat * 4 = 20 + 4 * w := by
    decide
  rw [headerLen, getD_append_left (by omega), hdr.versionIhl, hnibble _ hdr.words_le, hlen]

/-- A header for TCP followed by a TCP header is accepted for its own two addresses only. -/
theorem isTcpFor_header_append {src dst : Ipv4Addr} (hdr : Ipv4TcpHeader src dst) {tcp : Bytes}
    (h : 20 ≤ tcp.length) (src' dst' : Ipv4Addr) :
    IsTcpFor (hdr.bytes ++ tcp) src' dst' ↔ src = src' ∧ dst = dst' := by
  have hlen := hdr.length_eq
  rw [IsTcpFor, hdr.headerLen_append tcp, getD_append_left (by omega), hdr.protocol,
    addrAt_append_left (by omega), hdr.source, addrAt_append_left (by omega), hdr.destination,
    List.length_append]
  constructor
  · intro hacc
    exact hacc.2.2.2
  · intro haddr
    exact ⟨by omega, by omega, rfl, haddr⟩

/-- **Behind any IPv4 header for TCP the parser reads the TCP header**, whatever the options and
whatever follows the header. -/
theorem parse_header_append {src dst : Ipv4Addr} (hdr : Ipv4TcpHeader src dst) {tcp : Bytes}
    (h : 20 ≤ tcp.length) :
    parseTcpInIpv4 (hdr.bytes ++ tcp) src dst = some (some (tcpFields tcp)) := by
  rw [parseTcpInIpv4_eq, if_pos ((isTcpFor_header_append hdr h src dst).2 ⟨rfl, rfl⟩),
    hdr.headerLen_append tcp, List.drop_left]

/-- A TCP header of given fields, with up to ten words of options.  The bytes the parser does not
look at are arbitrary. -/
structure TcpHeader (fields : TcpFields) where
  bytes : Bytes
  /-- The number of 32-bit words of options. -/
  words : ℕ
  words_le : words ≤ 10
  length_eq : bytes.length = 20 + 4 * words
  fields_eq : tcpFields bytes = fields

/-- The fields are read off the first twenty bytes. -/
theorem tcpFields_append {tcp : Bytes} (h : 20 ≤ tcp.length) (rest : Bytes) :
    tcpFields (tcp ++ rest) = tcpFields tcp := by
  have hget : ∀ k, k < 20 → (tcp ++ rest).getD k 0 = tcp.getD k 0 :=
    fun k hk => getD_append_left (by omega)
  unfold tcpFields
  rw [hget 0 (by omega), hget 1 (by omega), hget 2 (by omega), hget 3 (by omega),
    hget 4 (by omega), hget 5 (by omega), hget 6 (by omega), hget 7 (by omega),
    hget 8 (by omega), hget 9 (by omega), hget 10 (by omega), hget 11 (by omega),
    hget 13 (by omega)]

/-- **Behind any IPv4 header for TCP the parser reads any TCP header**, whatever the options of
the two and whatever follows them. -/
theorem parse_headers_append {src dst : Ipv4Addr} (hdr : Ipv4TcpHeader src dst)
    {fields : TcpFields} (tcp : TcpHeader fields) (rest : Bytes) :
    parseTcpInIpv4 (hdr.bytes ++ (tcp.bytes ++ rest)) src dst = some (some fields) := by
  have hlen := tcp.length_eq
  rw [parse_header_append hdr (by rw [List.length_append]; omega),
    tcpFields_append (by omega), tcp.fields_eq]

section Build

variable (id : UInt16) (src dst : Ipv4Addr) (sp dp : UInt16) (seq ack : UInt32) (flags : UInt8)
  (win : UInt16)

/-- The TCP header before its checksum field, which stands between this part and the urgent
pointer. -/
def tcpFront : Bytes :=
  toBeBytes16 sp ++ toBeBytes16 dp ++ toBeBytes32 seq ++ toBeBytes32 ack ++ [0x50] ++ [flags] ++
    toBeBytes16 win

theorem buildTcp_eq : buildTcp src dst sp dp seq ack flags win =
    tcpFront sp dp seq ack flags win ++
      toBeBytes16 (tcpChecksum src dst (tcpFront sp dp seq ack flags win ++ [0, 0] ++ [0, 0])) ++
      [0, 0] := rfl

@[simp] theorem length_buildTcp : (buildTcp src dst sp dp seq ack flags win).length = 20 := rfl

/-- The parser's fields of a built header are the builder's arguments. -/
theorem tcpFields_buildTcp :
    tcpFields (buildTcp src dst sp dp seq ack flags win) = (sp, dp, flags, seq, ack) := by
  rw [buildTcp_eq]
  simp only [tcpFront, toBeBytes16, toBeBytes32, List.cons_append, List.nil_append, tcpFields,
    List.getD_cons_zero, List.getD_cons_succ, fromBeBytes16_toBeBytes16,
    fromBeBytes32_toBeBytes32]

/-- A built TCP header is a TCP header without options. -/
def builtTcpHeader : TcpHeader (sp, dp, flags, seq, ack) where
  bytes := buildTcp src dst sp dp seq ack flags win
  words := 0
  words_le := by omega
  length_eq := length_buildTcp src dst sp dp seq ack flags win
  fields_eq := tcpFields_buildTcp src dst sp dp seq ack flags win

/-- The pseudo-header the TCP checksum covers besides a 20-byte segment. -/
def pseudoHeader : Bytes := src.octets ++ dst.octets ++ [0] ++ [6] ++ toBeBytes16 20

@[simp] theorem length_pseudoHeader : (pseudoHeader src dst).length = 12 := rfl

@[simp] theorem length_tcpFront : (tcpFront sp dp seq ack flags win).length = 16 := rfl

/-- Over a 20-byte segment nothing is padded. -/
theorem tcpChecksum_eq {tcp : Bytes} (h : tcp.length = 20) :
    tcpChecksum src dst tcp = checksum16 (pseudoHeader src dst ++ tcp) := by
  have hlen : (pseudoHeader src dst ++ tcp).length % 2 = 0 := by
    rw [List.length_append, h, length_pseudoHeader]
  rw [tcpChecksum, h]
  exact congrArg checksum16 (if_neg (by simpa [pseudoHeader] using hlen))

/-- The checksum of a built segment verifies. -/
theorem tcpChecksum_buildTcp :
    tcpChecksum src dst (buildTcp src dst sp dp seq ack flags win) = 0 := by
  rw [tcpChecksum_eq _ _ (length_buildTcp ..), buildTcp_eq, tcpChecksum_eq _ _ rfl]
  have hins := checksum16_inserted (pseudoHeader src dst ++ tcpFront sp dp seq ack flags win) [0, 0]
    (by simp) (by simp)
  simpa only [List.append_assoc] using hins

/-- The IPv4 header before its checksum field, for a 20-byte payload. -/
def ipv4Front : Bytes :=
  [0x45] ++ [0x00] ++ toBeBytes16 40 ++ toBeBytes16 id ++ [0x40, 0x00] ++ [64] ++ [6]

@[simp] theorem length_ipv4Front : (ipv4Front id).length = 10 := rfl

theorem buildIpv4_eq {payload : Bytes} (h : payload.length = 20) :
    buildIpv4 id src dst payload =
      ipv4Front id ++
        toBeBytes16 (checksum16 (ipv4Front id ++ [0, 0] ++ (src.octets ++ dst.octets))) ++
        (src.octets ++ dst.octets) := by
  rw [buildIpv4, h]
  rfl

@[simp] theorem length_buildIpv4 {payload : Bytes} (h : payload.length = 20) :
    (buildIpv4 id src dst payload).length = 20 := by
  rw [buildIpv4_eq _ _ _ h]
  rfl

/-- The checksum of a built IPv4 header verifies. -/
theorem checksum16_buildIpv4 {payload : Bytes} (h : payload.length = 20) :
    checksum16 (buildIpv4 id src dst payload) = 0 := by
  rw [buildIpv4_eq _ _ _ h]
  exact checksum16_inserted _ _ (by simp) (by simp)

/-- A built IPv4 header is an IPv4 header for TCP without options. -/
def builtHeader {payload : Bytes} (h : payload.length = 20) : Ipv4TcpHeader src dst where
  bytes := buildIpv4 id src dst payload
  words := 0
  words_le := by omega
  length_eq := length_buildIpv4 id src dst h
  versionIhl := by rw [buildIpv4_eq _ _ _ h]; rfl
  protocol := by rw [buildIpv4_eq _ _ _ h]; rfl
  source := by rw [buildIpv4_eq _ _ _ h]; rfl
  destination := by rw [buildIpv4_eq _ _ _ h]; rfl

/-- The packet of a TCP header without payload. -/
def builtPacket : Bytes :=
  buildIpv4 id src dst (buildTcp src dst sp dp seq ack flags win) ++
    buildTcp src dst sp dp seq ack flags win

theorem headerLen_builtPacket :
    headerLen (builtPacket id src dst sp dp seq ack flags win) =
      (buildIpv4 id src dst (buildTcp src dst sp dp seq ack flags win)).length :=
  (builtHeader id src dst (length_buildTcp src dst sp dp seq ack flags win)).headerLen_append _

theorem take_headerLen_builtPacket :
    (builtPacket id src dst sp dp seq ack flags win).take
        (headerLen (builtPacket id src dst sp dp seq ack flags win)) =
      buildIpv4 id src dst (buildTcp src dst sp dp seq ack flags win) := by
  rw [headerLen_builtPacket, builtPacket, List.take_left]

theorem drop_headerLen_builtPacket :
    (builtPacket id src dst sp dp seq ack flags win).drop
        (headerLen (builtPacket id src dst sp dp seq ack flags win)) =
      buildTcp src dst sp dp seq ack flags win := by
  rw [headerLen_builtPacket, builtPacket, List.drop_left]

theorem isTcpFor_builtPacket : IsTcpFor (builtPacket id src dst sp dp seq ack flags win) src dst :=
  have hlen := length_buildTcp src dst sp dp seq ack flags win
  (isTcpFor_header_append (builtHeader id src dst hlen) hlen.ge src dst).2 ⟨rfl, rfl⟩

/-- **Builders and parser agree**: a built packet is 40 bytes long and says so, both checksums
verify, and the parser returns the fields it was built from; it returns the same fields behind any
other IPv4 header between the two addresses, with or without options, of any other TCP header of
these fields, with or without options, and whatever bytes follow. -/
theorem packet_round_trip (hdr : Ipv4TcpHeader src dst) (rest : Bytes)
    (tcp : TcpHeader (sp, dp, flags, seq, ack)) :
    (builtPacket id src dst sp dp seq ack flags win).length = 40 ∧
    fromBeBytes16 ((builtPacket id src dst sp dp seq ack flags win).getD 2 0)
      ((builtPacket id src dst sp dp seq ack flags win).getD 3 0) = 40 ∧
    checksum16 ((builtPacket id src dst sp dp seq ack flags win).take 20) = 0 ∧
    tcpChecksum src dst (buildTcp src dst sp dp seq ack flags win) = 0 ∧
    parseTcpInIpv4 (builtPacket id src dst sp dp seq ack flags win) src dst =
      some (some (sp, dp, flags, seq, ack)) ∧
    parseTcpInIpv4 (builtPacket id src dst sp dp seq ack flags win ++ rest) src dst =
      some (some (sp, dp, flags, seq, ack)) ∧
    parseTcpInIpv4 (hdr.bytes ++ (buildTcp src dst sp dp seq ack flags win ++ rest)) src dst =
      some (some (sp, dp, flags, seq, ack)) ∧
    parseTcpInIpv4 (hdr.bytes ++ (tcp.bytes ++ rest)) src dst =
      some (some (sp, dp, flags, seq, ack)) := by
  have ht := length_buildTcp src dst sp dp seq ack flags win
  have hhdr := length_buildIpv4 id src dst ht
  have hbuilt : ∀ (hdr : Ipv4TcpHeader src dst) (rest : Bytes),
      parseTcpInIpv4 (hdr.bytes ++ (buildTcp src dst sp dp seq ack flags win ++ rest)) src dst =
        some (some (sp, dp, flags, seq, ack)) :=
    fun hdr => parse_headers_append hdr (builtTcpHeader src dst sp dp seq ack flags win)
  have hpacket : ∀ rest : Bytes,
      parseTcpInIpv4 (builtPacket id src dst sp dp seq ack flags win ++ rest) src dst =
        some (some (sp, dp, flags, seq, ack)) := by
    intro rest
    rw [builtPacket, List.append_assoc]
    exact hbuilt (builtHeader id src dst ht) rest
  refine ⟨by rw [builtPacket, List.length_append, hhdr, ht], ?_, ?_, ?_, ?_, hpacket rest,
    hbuilt hdr rest, parse_headers_append hdr tcp rest⟩
  · rw [builtPacket, getD_append_left (by omega), getD_append_left (by omega),
      buildIpv4_eq _ _ _ ht]
    exact fromBeBytes16_toBeBytes16 40
  · rw [builtPacket, ← hhdr, List.take_left, checksum16_buildIpv4 id src dst ht]
  · exact tcpChecksum_buildTcp src dst sp dp seq ack flags win
  · simpa using hpacket []

end Build

/-- An IPv4 header with two words of options, from `192.168.0.1` to `192.168.0.7`. -/
def optionsHeader : Bytes :=
  [0x47, 0, 0, 55, 0, 9, 0x40, 0, 64, 6, 0, 0, 192, 168, 0, 1, 192, 168, 0, 7, 1, 1, 1, 1, 1, 1, 1,
    0]

/-- The TCP header of a SYN-ACK of port 80 with the option of a maximum segment size. -/
def optionsSegment : Bytes :=
  [0, 80, 0x9c, 0x40, 0, 0, 0, 7, 0, 0, 0, 8, 0x60, 0x12, 0xfa, 0xf0, 0, 0, 0, 0, 2, 4, 0x05, 0xb4]

/-- Options in both headers and three bytes behind them are passed over. -/
theorem packet_round_trip_options :
    parseTcpInIpv4 (optionsHeader ++ (optionsSegment ++ [0, 0, 0])) ⟨192, 168, 0, 1⟩
      ⟨192, 168, 0, 7⟩ = some (some (80, 40000, 0x12, 7, 8)) := by
  let hdr : Ipv4TcpHeader ⟨192, 168, 0, 1⟩ ⟨192, 168, 0, 7⟩ :=
    ⟨optionsHeader, 2, by omega, rfl, rfl, rfl, rfl, rfl⟩
  let tcp : TcpHeader (80, 40000, 0x12, 7, 8) := ⟨optionsSegment, 1, by omega, rfl, by decide⟩
  obtain ⟨-, -, -, -, -, -, -, hparsed⟩ :=
    packet_round_trip 9 ⟨192, 168, 0, 1⟩ ⟨192, 168, 0, 7⟩ 80 40000 7 8 0x12 64240 hdr [0, 0, 0] tcp
  exact hparsed

end Rnmap
