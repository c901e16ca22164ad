/-
**Buffers that declare a short IPv4 header.**

The header length of an IPv4 header is at least five words.  Both parsers look at the header-length
nibble to find the transport bytes, and neither refuses a smaller one: the transport bytes then
overlap the header, and addresses are read as ports, flags or ICMP types.  For the SYN scan this
means that a buffer which is no TCP segment can decide a port.

Main definitions:

* `Rnmap.headerWords`, `Rnmap.WholeHeader` — the header-length nibble, and a header as it has to be;
* `Rnmap.OnlyWholeHeaders` — the parsers return something behind such a header only;
* `Rnmap.SynProbe.IsTcpSegment`, `Rnmap.SynProbe.segmentState` — a TCP segment behind such a header,
  and the state it decides;
* `Rnmap.QuietScan` — a SYN scan without failing system calls;
* `Rnmap.DecidedByFirstSegment` — the scan reports what its first deciding segment says.

Main results:

* `Rnmap.only_whole_headers_iff` — **when the parsers refuse a short header**;
* `Rnmap.first_segment_decides_iff` — **when the first segment decides a scan**.
-/

import Rnmap.SynAnswer
import Rnmap.IcmpPing

set_option relaxedAutoImplicit false
set_option autoImplicit false

namespace Rnmap

open Bytes

/-! ### The parsers -/

/-- The header-length nibble: the declared length in words of four bytes. -/
def headerWords (buf : Bytes) : ℕ := (buf.getD 0 0 &&& 0x0f).toNat

theorem headerLen_eq (buf : Bytes) : headerLen buf = headerWords buf * 4 := rfl

/-- The declared header has the twenty mandatory bytes and lies in the buffer. -/
def WholeHeader (buf : Bytes) : Prop := 5 ≤ headerWords buf ∧ headerLen buf ≤ buf.length

/-- **The parsers return something behind a whole header only**: what they report is read off bytes
behind the twenty mandatory ones, and a shorter declared header gives nothing. -/
structure OnlyWholeHeaders (buf : Bytes) (src dst : Ipv4Addr) : Prop where
  tcp : ∀ fields, parseTcpInIpv4 buf src dst = some (some fields) →
    WholeHeader buf ∧ ∃ n, 20 ≤ n ∧ fields = tcpFields (buf.drop n)
  icmp : ∀ payload, stripIpv4 buf = some (some payload) →
    WholeHeader buf ∧ ∃ n, 20 ≤ n ∧ payload = buf.drop n
  short : headerWords buf < 5 →
    parseTcpInIpv4 buf src dst = some none ∧ stripIpv4 buf = some none

/-- The buffers `strip_ipv4` takes for ICMP. -/
def IsIcmp (buf : Bytes) : Prop := 20 ≤ buf.length ∧ buf.getD 9 0 = 1

theorem wholeHeader_of_tcp {buf : Bytes} {src dst : Ipv4Addr} (h5 : 5 ≤ headerWords buf)
    {fields : TcpFields} (h : parseTcpInIpv4 buf src dst = some (some fields)) :
    WholeHeader buf ∧ ∃ n, 20 ≤ n ∧ fields = tcpFields (buf.drop n) := by
  rw [parseTcpInIpv4_eq, Option.some.injEq] at h
  split_ifs at h with htcp
  have hroom := htcp.2.1
  have hwords := headerLen_eq buf
  exact ⟨⟨h5, by omega⟩, headerLen buf, by omega, (Option.some.inj h).symm⟩

theorem wholeHeader_of_icmp {buf : Bytes} (h5 : 5 ≤ headerWords buf) {payload : Bytes}
    (h : stripIpv4 buf = some (some payload)) :
    WholeHeader buf ∧ ∃ n, 20 ≤ n ∧ payload = buf.drop n := by
  rw [stripIpv4_eq, Option.some.injEq] at h
  split_ifs at h with hicmp
  have hwords := headerLen_eq buf
  exact ⟨⟨h5, hicmp.2.2⟩, headerLen buf, by omega, (Option.some.inj h).symm⟩

/-- On a short header `parse_tcp_in_ipv4` returns nothing when something else is wrong as well. -/
theorem parseTcpInIpv4_eq_none_iff {buf : Bytes} {src dst : Ipv4Addr} :
    parseTcpInIpv4 buf src dst = some none ↔ ¬ IsTcpFor buf src dst := by
  rw [parseTcpInIpv4_eq]
  split_ifs with htcp
  · exact iff_of_false (fun h => nomatch h) (not_not.2 htcp)
  · exact iff_of_true rfl htcp

/-- On a short header `strip_ipv4` returns nothing when the buffer is not ICMP. -/
theorem stripIpv4_eq_none_iff {buf : Bytes} (hshort : headerWords buf < 5) :
    stripIpv4 buf = some none ↔ ¬ IsIcmp buf := by
  have hwords := headerLen_eq buf
  rw [stripIpv4_eq, IsIcmp]
  split_ifs with hicmp
  · exact iff_of_false (fun h => nomatch h) (not_not.2 ⟨hicmp.1, hicmp.2.1⟩)
  · exact iff_of_true rfl fun h => hicmp ⟨h.1, h.2, by omega⟩

/-- **When the parsers refuse a short header**: when the buffer is neither TCP between the two
addresses nor ICMP. -/
theorem only_whole_headers_iff (buf : Bytes) (src dst : Ipv4Addr) :
    OnlyWholeHeaders buf src dst ↔
      5 ≤ headerWords buf ∨ (¬ IsTcpFor buf src dst ∧ ¬ IsIcmp buf) := by
  by_cases h5 : 5 ≤ headerWords buf
  · refine iff_of_true ?_ (.inl h5)
    exact ⟨fun _ => wholeHeader_of_tcp h5, fun _ => wholeHeader_of_icmp h5,
      fun hshort => absurd h5 (Nat.not_le.2 hshort)⟩
  · have hshort : headerWords buf < 5 := Nat.not_le.1 h5
    constructor
    · intro h
      obtain ⟨htcp, hicmp⟩ := h.short hshort
      exact .inr ⟨parseTcpInIpv4_eq_none_iff.1 htcp, (stripIpv4_eq_none_iff hshort).1 hicmp⟩
    · rintro (h | ⟨htcp, hicmp⟩)
      · exact absurd h h5
      · have hparse := parseTcpInIpv4_eq_none_iff.2 htcp
        have hstrip := (stripIpv4_eq_none_iff hshort).2 hicmp
        refine ⟨fun fields h => ?_, fun payload h => ?_, fun _ => ⟨hparse, hstrip⟩⟩
        · rw [hparse] at h
          cases h
        · rw [hstrip] at h
          cases h

/-- An ICMP datagram from `10.0.0.2` to `10.0.0.1` that declares a header of one word. -/
def shortDatagram : Bytes :=
  [0x41, 0, 0, 32, 0, 0, 0, 0, 64, 1, 0, 0, 10, 0, 0, 2, 10, 0, 0, 1] ++ List.replicate 12 0xff

/-- The bytes behind its first word are taken for an ICMP message. -/
theorem short_header_stripped :
    ¬ OnlyWholeHeaders shortDatagram ⟨10, 0, 0, 2⟩ ⟨10, 0, 0, 1⟩ := by
  intro h
  have hstrip : stripIpv4 shortDatagram = some none := (h.short (by decide)).2
  rw [stripIpv4_eq_none_iff (by decide)] at hstrip
  exact hstrip ⟨by decide, by decide⟩

/-! ### The segments of a scan -/

/-- A TCP segment from the probed port to the source port of the probe, behind a whole IPv4
header. -/
def SynProbe.IsTcpSegment (p : SynProbe) (bytes : Bytes) : Prop :=
  5 ≤ headerWords bytes ∧ p.IsSegment bytes

instance (p : SynProbe) (bytes : Bytes) : Decidable (p.IsTcpSegment bytes) :=
  inferInstanceAs (Decidable (5 ≤ headerWords bytes ∧ p.IsSegment bytes))

/-- The state a TCP segment decides: a SYN-ACK is open, and else a RST is closed. -/
def SynProbe.segmentState (p : SynProbe) (bytes : Bytes) : Option PortState :=
  if p.IsTcpSegment bytes then
    if IsSynAck bytes then some .open else if IsRst bytes then some .closed else none
  else none

/-- The state the scan makes of a buffer, whole header or not. -/
def SynProbe.answerState (p : SynProbe) (bytes : Bytes) : Option PortState :=
  (verdictOf p.target p.srcIp p.port p.srcPort bytes).map Verdict.state

/-- The buffers the rounds of a scan receive. -/
def received (rounds : List RecvCall) : List Bytes :=
  rounds.filterMap fun call => call.recv.toOption

/-- The scan reports what the first TCP segment among the buffers received says that decides
something, and filtered when none does. -/
def DecidedByFirstSegment (target : Ipv4Addr) (port : UInt16) (timing : Timing) (env : SynEnv)
    (srcIp : Ipv4Addr) (srcPort : SourcePort) : Prop :=
  ∃ run r, scanBlocking target port timing env = some run ∧ run.result = .ok r ∧
    r.state = ((received (env.rounds timing)).findSome?
      (env.probe target port timing srcIp srcPort).segmentState).getD .filtered

/-- A short header makes no difference: when the first buffer taken for an answer has one, the
first TCP segment that decides something says the same. -/
def ShortHeadersAgree (p : SynProbe) (buffers : List Bytes) : Prop :=
  ∀ bytes, (buffers.find? fun b => (p.answerState b).isSome) = some bytes →
    headerWords bytes < 5 → buffers.findSome? p.segmentState = p.answerState bytes

theorem SynProbe.answerState_eq (p : SynProbe) (bytes : Bytes) :
    p.answerState bytes =
      if p.IsSegment bytes then
        if IsSynAck bytes then some .open else if IsRst bytes then some .closed else none
      else none := by
  unfold SynProbe.answerState
  cases hv : verdictOf p.target p.srcIp p.port p.srcPort bytes with
  | none =>
      have hnone : ∀ v : Verdict, ¬ (p.IsSegment bytes ∧
          ((IsSynAck bytes ∧ v = .open (segmentAck bytes)) ∨
            (¬ IsSynAck bytes ∧ IsRst bytes ∧ v = .closed))) := by
        intro v h
        rw [verdictOf_eq_some_iff.2 h] at hv
        cases hv
      split_ifs with hseg hsyn hrst
      · exact absurd ⟨hseg, .inl ⟨hsyn, rfl⟩⟩ (hnone _)
      · exact absurd ⟨hseg, .inr ⟨hsyn, hrst, rfl⟩⟩ (hnone _)
      · rfl
      · rfl
  | some v =>
      obtain ⟨hseg, ⟨hsyn, rfl⟩ | ⟨hsyn, hrst, rfl⟩⟩ := verdictOf_eq_some_iff.1 hv
      · rw [if_pos hseg, if_pos hsyn]
        rfl
      · rw [if_pos hseg, if_neg hsyn, if_pos hrst]
        rfl

/-- Behind a whole header the scan sees the segments, and nothing else. -/
theorem SynProbe.segmentState_eq (p : SynProbe) (bytes : Bytes) :
    p.segmentState bytes = if 5 ≤ headerWords bytes then p.answerState bytes else none := by
  rw [SynProbe.segmentState, SynProbe.answerState_eq]
  by_cases h5 : 5 ≤ headerWords bytes
  · rw [if_pos h5]
    exact if_congr (and_iff_right h5) rfl rfl
  · rw [if_neg h5, if_neg fun h : p.IsTcpSegment bytes => h5 h.1]

theorem SynProbe.ne_filtered_of_answerState {p : SynProbe} {bytes : Bytes} {st : PortState}
    (h : p.answerState bytes = some st) : st ≠ .filtered := by
  obtain ⟨v, -, rfl⟩ := Option.map_eq_some_iff.1 h
  cases v with
  | «open» ack => exact PortState.noConfusion
  | closed => exact PortState.noConfusion

/-! ### The first answer and the first segment -/

section Buffers

variable {p : SynProbe} {buffers : List Bytes}

/-- Without an answer there is no segment. -/
theorem findSome?_of_no_answer
    (h : (buffers.find? fun b => (p.answerState b).isSome) = none) :
    buffers.findSome? p.answerState = none ∧ buffers.findSome? p.segmentState = none := by
  have hnone : ∀ b ∈ buffers, p.answerState b = none := by
    intro b hb
    simpa using List.find?_eq_none.1 h b hb
  refine ⟨List.findSome?_eq_none_iff.2 hnone, List.findSome?_eq_none_iff.2 fun b hb => ?_⟩
  rw [p.segmentState_eq, hnone b hb, ite_self]

/-- The first answer decides the scan; when its header is whole, it is the first segment. -/
theorem findSome?_of_answer {bytes : Bytes}
    (h : (buffers.find? fun b => (p.answerState b).isSome) = some bytes) :
    buffers.findSome? p.answerState = p.answerState bytes ∧
      (5 ≤ headerWords bytes → buffers.findSome? p.segmentState = p.answerState bytes) := by
  obtain ⟨hsome, before, after, rfl, hbefore⟩ := List.find?_eq_some_iff_append.1 h
  obtain ⟨st, hst⟩ := Option.isSome_iff_exists.1 hsome
  have hnone : ∀ b ∈ before, p.answerState b = none := by
    intro b hb
    simpa using hbefore b hb
  refine ⟨?_, fun h5 => ?_⟩
  · rw [hst]
    exact List.findSome?_eq_some_iff.2 ⟨before, bytes, after, rfl, hst, hnone⟩
  · rw [hst]
    refine List.findSome?_eq_some_iff.2 ⟨before, bytes, after, rfl, ?_, fun b hb => ?_⟩
    · rw [p.segmentState_eq, if_pos h5, hst]
    · rw [p.segmentState_eq, hnone b hb, ite_self]

/-- The first answer and the first segment say the same exactly when short headers make no
difference. -/
theorem shortHeadersAgree_iff :
    (buffers.findSome? p.answerState).getD .filtered =
        (buffers.findSome? p.segmentState).getD .filtered ↔
      ShortHeadersAgree p buffers := by
  unfold ShortHeadersAgree
  cases hfind : buffers.find? fun b => (p.answerState b).isSome with
  | none =>
      obtain ⟨hanswer, hsegment⟩ := findSome?_of_no_answer hfind
      rw [hanswer, hsegment]
      exact iff_of_true rfl fun bytes h => nomatch h
  | some bytes =>
      obtain ⟨hanswer, hwhole⟩ := findSome?_of_answer hfind
      rw [hanswer]
      by_cases h5 : 5 ≤ headerWords bytes
      · rw [hwhole h5]
        refine iff_of_true rfl ?_
        rintro _ ⟨⟩ hshort
        exact absurd h5 (Nat.not_le.2 hshort)
      · have hsome : (p.answerState bytes).isSome = true :=
          List.find?_some (p := fun b => (p.answerState b).isSome) hfind
        obtain ⟨st, hst⟩ := Option.isSome_iff_exists.1 hsome
        have hne := SynProbe.ne_filtered_of_answerState hst
        constructor
        · rintro heq _ ⟨⟩ -
          rw [hst, Option.getD_some] at heq
          cases hsegment : buffers.findSome? p.segmentState with
          | none =>
              rw [hsegment] at heq
              exact absurd heq hne
          | some st' =>
              rw [hsegment] at heq
              rw [hst]
              exact congrArg some heq.symm
        · intro h
          rw [h bytes rfl (Nat.not_le.1 h5)]

end Buffers

/-! ### The scan -/

section Scan

variable {target : Ipv4Addr} {port : UInt16} {timing : Timing} {env : SynEnv} {srcIp : Ipv4Addr}
  {srcPort : SourcePort} {seq : UInt32}

theorem findSome?_verdict (p : SynProbe) (rounds : List RecvCall) :
    (rounds.findSome? (RecvCall.verdict p)).map Verdict.state =
      (received rounds).findSome? p.answerState := by
  induction rounds with
  | nil => rfl
  | cons call rounds ih =>
      rw [received, List.filterMap_cons, List.findSome?_cons, RecvCall.verdict]
      cases call.recv with
      | error e => exact ih
      | ok bytes =>
          change _ = (bytes :: received rounds).findSome? p.answerState
          rw [List.findSome?_cons, SynProbe.answerState]
          dsimp only
          cases verdictOf p.target p.srcIp p.port p.srcPort bytes with
          | none => exact ih
          | some v => rfl

/-- **What a scan without failing system calls reports**: what its first answer says. -/
theorem state_of_quiet (h : QuietScan target port timing env srcIp srcPort seq) :
    ∃ run r, scanBlocking target port timing env = some run ∧ run.result = .ok r ∧
      r.state = ((received (env.rounds timing)).findSome?
        (env.probe target port timing srcIp srcPort).answerState).getD .filtered := by
  obtain ⟨run, r, hrun, hr, hstate⟩ := scanBlocking_quiet h
  rw [findSome?_verdict] at hstate
  exact ⟨run, r, hrun, hr, hstate⟩

theorem decidedByFirstSegment_iff (h : QuietScan target port timing env srcIp srcPort seq) :
    DecidedByFirstSegment target port timing env srcIp srcPort ↔
      ShortHeadersAgree (env.probe target port timing srcIp srcPort)
        (received (env.rounds timing)) := by
  obtain ⟨run, r, hrun, hr, hstate⟩ := state_of_quiet h
  rw [← shortHeadersAgree_iff, ← hstate]
  constructor
  · rintro ⟨run', r', hrun', hr', hstate'⟩
    obtain rfl := Option.some.inj (hrun.symm.trans hrun')
    obtain rfl := Except.ok.inj (hr.symm.trans hr')
    exact hstate'
  · exact fun hsegment => ⟨run, r, hrun, hr, hsegment⟩

/-- The TCP segments among the buffers that decide something. -/
def SynProbe.segments (p : SynProbe) (buffers : List Bytes) : List Bytes :=
  buffers.filter fun bytes => (p.segmentState bytes).isSome

/-- The buffers that are no such segments may be left out. -/
theorem findSome?_segments (p : SynProbe) (buffers : List Bytes) :
    (p.segments buffers).findSome? p.segmentState = buffers.findSome? p.segmentState := by
  induction buffers with
  | nil => rfl
  | cons bytes buffers ih =>
      rw [SynProbe.segments, List.filter_cons, List.findSome?_cons]
      cases hst : p.segmentState bytes with
      | none => exact ih
      | some st =>
          rw [Option.isSome_some, if_pos rfl, List.findSome?_cons, hst]

/-- **When the first segment decides a scan**: when short headers make no difference.  Two scans of
one 4-tuple of which this is true, and which receive the same segments among whatever else, report
the same state.  No buffer makes the parser index out of range. -/
theorem first_segment_decides_iff (h : QuietScan target port timing env srcIp srcPort seq) :
    (DecidedByFirstSegment target port timing env srcIp srcPort ↔
      ShortHeadersAgree (env.probe target port timing srcIp srcPort)
        (received (env.rounds timing))) ∧
    (∀ (timing' : Timing) (env' : SynEnv) (seq' : UInt32),
      QuietScan target port timing' env' srcIp srcPort seq' →
      ShortHeadersAgree (env.probe target port timing srcIp srcPort)
        (received (env.rounds timing)) →
      ShortHeadersAgree (env'.probe target port timing' srcIp srcPort)
        (received (env'.rounds timing')) →
      (env'.probe target port timing' srcIp srcPort).segments (received (env'.rounds timing')) =
        (env.probe target port timing srcIp srcPort).segments (received (env.rounds timing)) →
      ∃ run r run' r', scanBlocking target port timing env = some run ∧ run.result = .ok r ∧
        scanBlocking target port timing' env' = some run' ∧ run'.result = .ok r' ∧
        r'.state = r.state) ∧
    ∀ bytes, parseTcpInIpv4 bytes target srcIp ≠ none := by
  refine ⟨decidedByFirstSegment_iff h, ?_, fun bytes hnone => ?_⟩
  · intro timing' env' seq' h' hagree hagree' hsame
    obtain ⟨run, r, hrun, hr, hstate⟩ := (decidedByFirstSegment_iff h).2 hagree
    obtain ⟨run', r', hrun', hr', hstate'⟩ := (decidedByFirstSegment_iff h').2 hagree'
    refine ⟨run, r, run', r', hrun, hr, hrun', hr', ?_⟩
    rw [hstate, hstate', ← findSome?_segments, hsame, ← findSome?_segments _ (received _)]
    rfl
  · rw [parseTcpInIpv4_eq] at hnone
    cases hnone

end Scan

/-- A buffer with a header of two words.  Its TTL and protocol are read as the port 16390, its
header checksum as the port 40000, and a byte behind the header as the flags of a SYN-ACK. -/
def shortAnswer : Bytes :=
  [0x42, 0, 0, 40, 0, 0, 0x40, 0, 64, 6, 0x9c, 0x40, 192, 168, 0, 1, 192, 168, 0, 7, 0, 0x12] ++
    List.replicate 18 0

/-- The round in which it arrives. -/
def shortRound : RecvCall := ⟨.ok (), .ok shortAnswer, fromMillis 20⟩

theorem quiet_shortRound : QuietScan ⟨192, 168, 0, 1⟩ 16390 (Timing.new 3) (sampleEnv [shortRound])
    ⟨192, 168, 0, 7⟩ ⟨40000, by decide⟩ 7 := by
  refine ⟨rfl, rfl, rfl, fun call hcall => ?_, fun call hcall e he => ?_⟩
  · obtain rfl := List.mem_singleton.1 (mem_of_mem_callsBefore hcall)
    rfl
  · obtain rfl := List.mem_singleton.1 (mem_of_mem_callsBefore hcall)
    cases he

/-- A scan that receives nothing else reports an open port. -/
theorem short_header_decides :
    ¬ DecidedByFirstSegment ⟨192, 168, 0, 1⟩ 16390 (Timing.new 3) (sampleEnv [shortRound])
      ⟨192, 168, 0, 7⟩ ⟨40000, by decide⟩ := by
  rw [decidedByFirstSegment_iff quiet_shortRound, ← shortHeadersAgree_iff]
  decide +kernel

/-- A scan that receives the answer to its SYN is decided by it. -/
theorem first_segment_decides_answered :
    DecidedByFirstSegment ⟨192, 168, 0, 1⟩ 80 (Timing.new 3) (sampleEnv [staleRound 8])
      ⟨192, 168, 0, 7⟩ ⟨40000, by decide⟩ := by
  refine (first_segment_decides_iff (synReacts_staleRound 8).quiet).1.2 ?_
  rw [← shortHeadersAgree_iff]
  decide +kernel

end Rnmap
