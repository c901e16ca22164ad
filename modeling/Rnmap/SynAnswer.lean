/-
**Which segment decides a SYN scan.**

The scan tells the segments it receives apart by addresses and ports.  The first SYN-ACK or RST of
its own 4-tuple that is received in a round entered before the deadline decides it, whatever
sequence number that segment acknowledges; so a stale or a forged one decides it as well as the
answer to its SYN.

Main definitions:

* `Rnmap.SynProbe.DecidedOn` — the segment that decides a scan;
* `Rnmap.Acknowledges` — the segment answers the SYN with this sequence number;
* `Rnmap.AnswersItsSyn` — every verdict answers the SYN of the scan.

Main results:

* `Rnmap.state_eq_iff` — the state a scan reports, by the segment that decides it;
* `Rnmap.decided_by_tuple` — **the verdict is that of the first segment of the 4-tuple**, and
  answers the SYN exactly when that segment does;
* `Rnmap.stale_answer_decides` — a segment that acknowledges something else decides a scan.
-/

import Rnmap.ScanAgreement

set_option relaxedAutoImplicit false
set_option autoImplicit false

namespace Rnmap

open Bytes

/-! ### Segments -/

/-- ACK is set. -/
def CarriesAck (bytes : Bytes) : Prop := segmentFlags bytes &&& 0x10 = 0x10

/-- The acknowledgement number is one past the sequence number of the SYN, modulo `2 ^ 32`. -/
def Acknowledges (seq : UInt32) (bytes : Bytes) : Prop := segmentAck bytes = seq + 1

/-- A round that decides nothing: its system calls at most time out, and no SYN-ACK or RST of the
4-tuple is received in it. -/
structure RecvCall.Passes (p : SynProbe) (call : RecvCall) : Prop where
  armed : call.setReadTimeout = .ok ()
  patient : ∀ e, call.recv = .error e → e.kind = .wouldBlock ∨ e.kind = .timedOut
  unanswered : ∀ bytes, call.recv = .ok bytes → p.IsSegment bytes →
    ¬ (IsSynAck bytes ∨ IsRst bytes)

/-- The segment that decides a probe with these rounds, which are those entered before its deadline:
the first SYN-ACK or RST of its 4-tuple, when no system call fails before it. -/
def SynProbe.DecidedOn (p : SynProbe) (rounds : List RecvCall) (bytes : Bytes) : Prop :=
  ∃ before call after, rounds = before ++ call :: after ∧ (∀ c ∈ before, c.Passes p) ∧
    call.setReadTimeout = .ok () ∧ call.recv = .ok bytes ∧ p.IsSegment bytes ∧
    (IsSynAck bytes ∨ IsRst bytes)

/-- **Every verdict answers the SYN of the scan**: a port is open on a SYN-ACK and closed on a RST
with ACK, which acknowledges the sequence number of the SYN. -/
def AnswersItsSyn (target : Ipv4Addr) (port : UInt16) (timing : Timing) (env : SynEnv) : Prop :=
  ∀ srcIp srcPort seq run r, env.localAddr = .ok (.v4 srcIp) → env.random = some (srcPort, seq) →
    scanBlocking target port timing env = some run → run.result = .ok r →
    (r.state = .open → ∃ bytes,
      (env.probe target port timing srcIp srcPort).DecidedOn (env.rounds timing) bytes ∧
        IsSynAck bytes ∧ Acknowledges seq bytes) ∧
    (r.state = .closed → ∃ bytes,
      (env.probe target port timing srcIp srcPort).DecidedOn (env.rounds timing) bytes ∧
        IsRst bytes ∧ CarriesAck bytes ∧ Acknowledges seq bytes)

/-! ### The verdict of a segment -/

/-- Every SYN-ACK and RST of the 4-tuple has a verdict. -/
theorem exists_verdictOf {p : SynProbe} {bytes : Bytes} (hseg : p.IsSegment bytes)
    (hflags : IsSynAck bytes ∨ IsRst bytes) :
    ∃ v, verdictOf p.target p.srcIp p.port p.srcPort bytes = some v := by
  by_cases hsyn : IsSynAck bytes
  · exact ⟨_, verdictOf_eq_some_iff.2 ⟨hseg, .inl ⟨hsyn, rfl⟩⟩⟩
  · exact ⟨_, verdictOf_eq_some_iff.2 ⟨hseg, .inr ⟨hsyn, hflags.resolve_left hsyn, rfl⟩⟩⟩

/-- A SYN-ACK carries ACK. -/
theorem IsSynAck.carriesAck {bytes : Bytes} (h : IsSynAck bytes) : CarriesAck bytes := by
  unfold IsSynAck at h
  calc segmentFlags bytes &&& 0x10
      = segmentFlags bytes &&& (0x12 &&& 0x10) := rfl
    _ = segmentFlags bytes &&& 0x12 &&& 0x10 := (UInt8.and_assoc _ _ _).symm
    _ = 0x12 &&& 0x10 := by rw [h]

/-- The rounds that decide nothing are those the loop goes on after. -/
theorem RecvCall.passes_iff {p : SynProbe} {call : RecvCall} :
    call.Passes p ↔ call.ending p = none := by
  constructor
  · rintro ⟨harmed, hpatient, hunanswered⟩
    rw [RecvCall.ending_eq harmed hpatient, Option.map_eq_none_iff, RecvCall.verdict]
    cases hrecv : call.recv with
    | error e => rfl
    | ok bytes =>
        refine Option.eq_none_iff_forall_ne_some.2 fun v hv => ?_
        obtain ⟨hseg, hflags⟩ := verdictOf_eq_some_iff.1 hv
        exact hunanswered bytes hrecv hseg (hflags.imp And.left fun h => h.2.1)
  · intro h
    unfold RecvCall.ending at h
    cases harmed : call.setReadTimeout with
    | error e =>
        rw [harmed] at h
        cases h
    | ok _ =>
        simp only [harmed] at h
        refine ⟨harmed, fun e he => ?_, fun bytes hrecv hseg hflags => ?_⟩
        · simp only [he] at h
          split_ifs at h with hkind
          exact hkind
        · simp only [hrecv, Option.map_eq_none_iff] at h
          obtain ⟨v, hv⟩ := exists_verdictOf hseg hflags
          rw [hv] at h
          cases h

/-- The round that decides a probe ends the loop, and is the first that does. -/
theorem SynProbe.DecidedOn.ending {p : SynProbe} {rounds : List RecvCall} {bytes : Bytes}
    (h : p.DecidedOn rounds bytes) :
    ∃ call v, (rounds.find? fun c => (c.ending p).isSome) = some call ∧ call.recv = .ok bytes ∧
      verdictOf p.target p.srcIp p.port p.srcPort bytes = some v ∧
      rounds.findSome? (RecvCall.ending p) = some (p.decided v call.time) := by
  obtain ⟨before, call, after, rfl, hbefore, harmed, hrecv, hseg, hflags⟩ := h
  obtain ⟨v, hv⟩ := exists_verdictOf hseg hflags
  have hcall : call.ending p = some (p.decided v call.time) := by
    simp only [RecvCall.ending, harmed, hrecv, hv, Option.map_some]
  have hnone : ∀ c ∈ before, c.ending p = none := fun c hc => RecvCall.passes_iff.1 (hbefore c hc)
  refine ⟨call, v, List.find?_eq_some_iff_append.2 ⟨?_, before, after, rfl, ?_⟩, hrecv, hv,
    List.findSome?_eq_some_iff.2 ⟨before, call, after, rfl, hcall, hnone⟩⟩
  · rw [hcall]
    rfl
  · intro c hc
    rw [hnone c hc]
    rfl

/-- No two segments decide a probe. -/
theorem SynProbe.DecidedOn.unique {p : SynProbe} {rounds : List RecvCall} {bytes bytes' : Bytes}
    (h : p.DecidedOn rounds bytes) (h' : p.DecidedOn rounds bytes') : bytes = bytes' := by
  obtain ⟨call, v, hcall, hrecv, -⟩ := h.ending
  obtain ⟨call', v', hcall', hrecv', -⟩ := h'.ending
  obtain rfl := Option.some.inj (hcall.symm.trans hcall')
  exact Except.ok.inj (hrecv.symm.trans hrecv')

/-- A result other than that of a failing system call is decided on some segment. -/
theorem exists_decidedOn {p : SynProbe} {rounds : List RecvCall} {run : SynRun} {r : PortResult}
    (h : rounds.findSome? (RecvCall.ending p) = some run) (hr : run.result = .ok r) :
    ∃ bytes v, p.DecidedOn rounds bytes ∧
      verdictOf p.target p.srcIp p.port p.srcPort bytes = some v ∧ r.state = v.state := by
  obtain ⟨before, call, after, rfl, hcall, hbefore⟩ := List.findSome?_eq_some_iff.1 h
  have hpasses : ∀ c ∈ before, c.Passes p := fun c hc => RecvCall.passes_iff.2 (hbefore c hc)
  unfold RecvCall.ending at hcall
  cases harmed : call.setReadTimeout with
  | error e =>
      rw [harmed] at hcall
      cases hcall
      cases hr
  | ok _ =>
      simp only [harmed] at hcall
      cases hrecv : call.recv with
      | error e =>
          simp only [hrecv] at hcall
          split_ifs at hcall
          cases hcall
          cases hr
      | ok bytes =>
          simp only [hrecv] at hcall
          obtain ⟨v, hv, rfl⟩ := Option.map_eq_some_iff.1 hcall
          cases hr
          obtain ⟨hseg, hflags⟩ := verdictOf_eq_some_iff.1 hv
          exact ⟨bytes, v, ⟨before, call, after, rfl, hpasses, harmed, hrecv, hseg,
            hflags.imp And.left fun h => h.2.1⟩, hv, rfl⟩

/-! ### The state a scan reports -/

section

variable {target : Ipv4Addr} {port : UInt16} {timing : Timing} {env : SynEnv} {srcIp : Ipv4Addr}
  {srcPort : SourcePort} {seq : UInt32} {run : SynRun} {r : PortResult}

/-- A scan that returns a result has sent its SYN and returns what its rounds decide. -/
theorem result_of_scanBlocking (hlocal : env.localAddr = .ok (.v4 srcIp))
    (hrandom : env.random = some (srcPort, seq))
    (h : scanBlocking target port timing env = some run) (hr : run.result = .ok r) :
    (((env.rounds timing).findSome?
      (RecvCall.ending (env.probe target port timing srcIp srcPort))).getD
        (env.probe target port timing srcIp srcPort).filtered).result = .ok r := by
  have hpick : pickSourceIpv4For env = .ok srcIp := by
    rw [pickSourceIpv4For, hlocal]
  simp only [scanBlocking, hpick, hrandom, Option.bind_eq_bind, Option.bind_some] at h
  split at h
  · cases h
    cases hr
  · obtain ⟨run', hloop, hrun⟩ := Option.bind_eq_some_iff.1 h
    rw [recvLoop_eq] at hloop
    obtain rfl := Option.some.inj hloop
    obtain rfl := Option.some.inj hrun
    exact hr

/-- **The state a scan reports** is that of the segment that decides it, and filtered when none
does. -/
theorem state_eq_iff (hlocal : env.localAddr = .ok (.v4 srcIp))
    (hrandom : env.random = some (srcPort, seq))
    (h : scanBlocking target port timing env = some run) (hr : run.result = .ok r)
    (st : PortState) :
    r.state = st ↔
      (∃ bytes v, (env.probe target port timing srcIp srcPort).DecidedOn (env.rounds timing) bytes ∧
        verdictOf target srcIp port srcPort.port bytes = some v ∧ v.state = st) ∨
      (st = .filtered ∧ ∀ bytes,
        ¬ (env.probe target port timing srcIp srcPort).DecidedOn (env.rounds timing) bytes) := by
  have hresult := result_of_scanBlocking hlocal hrandom h hr
  set p := env.probe target port timing srcIp srcPort
  cases hfind : (env.rounds timing).findSome? (RecvCall.ending p) with
  | none =>
      rw [hfind] at hresult
      cases hresult
      -- no round ends the loop, so that none decides it
      have hnone : ∀ bytes, ¬ p.DecidedOn (env.rounds timing) bytes := by
        intro bytes hbytes
        obtain ⟨call, v, -, -, -, hsome⟩ := hbytes.ending
        rw [hfind] at hsome
        cases hsome
      constructor
      · rintro rfl
        exact .inr ⟨rfl, hnone⟩
      · rintro (⟨bytes, v, hbytes, -⟩ | ⟨rfl, -⟩)
        · exact absurd hbytes (hnone bytes)
        · rfl
  | some run' =>
      rw [hfind] at hresult
      obtain ⟨bytes, v, hbytes, hv, hstate⟩ := exists_decidedOn hfind hresult
      constructor
      · rintro rfl
        exact .inl ⟨bytes, v, hbytes, hv, hstate.symm⟩
      · rintro (⟨bytes', v', hbytes', hv', rfl⟩ | ⟨-, hnone⟩)
        · -- what is decided on another segment is decided in the same way
          obtain ⟨call, w, -, -, hw, hsome⟩ := hbytes'.ending
          obtain rfl := Option.some.inj (hw.symm.trans hv')
          rw [hfind] at hsome
          obtain rfl := Option.some.inj hsome
          cases hresult
          rfl
        · exact absurd hbytes (hnone bytes)

/-- The segment that decides a scan opens or closes its port. -/
theorem open_or_closed (hlocal : env.localAddr = .ok (.v4 srcIp))
    (hrandom : env.random = some (srcPort, seq))
    (h : scanBlocking target port timing env = some run) (hr : run.result = .ok r) {bytes : Bytes}
    (hbytes : (env.probe target port timing srcIp srcPort).DecidedOn (env.rounds timing) bytes) :
    (IsSynAck bytes ∧ r.state = .open) ∨
      (¬ IsSynAck bytes ∧ IsRst bytes ∧ r.state = .closed) := by
  obtain ⟨call, v, -, -, hv, -⟩ := hbytes.ending
  have hstate : r.state = v.state :=
    (state_eq_iff hlocal hrandom h hr v.state).2 (.inl ⟨bytes, v, hbytes, hv, rfl⟩)
  obtain ⟨-, ⟨hsyn, rfl⟩ | ⟨hsyn, hrst, rfl⟩⟩ := verdictOf_eq_some_iff.1 hv
  · exact .inl ⟨hsyn, hstate⟩
  · exact .inr ⟨hsyn, hrst, hstate⟩

theorem exists_decidedOn_of_ne_filtered (hlocal : env.localAddr = .ok (.v4 srcIp))
    (hrandom : env.random = some (srcPort, seq))
    (h : scanBlocking target port timing env = some run) (hr : run.result = .ok r)
    (hstate : r.state ≠ .filtered) :
    ∃ bytes,
      (env.probe target port timing srcIp srcPort).DecidedOn (env.rounds timing) bytes := by
  obtain ⟨bytes, v, hbytes, -⟩ | ⟨hfiltered, -⟩ :=
    (state_eq_iff hlocal hrandom h hr r.state).1 rfl
  · exact ⟨bytes, hbytes⟩
  · exact absurd hfiltered hstate

theorem open_iff (hlocal : env.localAddr = .ok (.v4 srcIp))
    (hrandom : env.random = some (srcPort, seq))
    (h : scanBlocking target port timing env = some run) (hr : run.result = .ok r) :
    r.state = .open ↔ ∃ bytes,
      (env.probe target port timing srcIp srcPort).DecidedOn (env.rounds timing) bytes ∧
        IsSynAck bytes := by
  constructor
  · intro hopen
    obtain ⟨bytes, hbytes⟩ :=
      exists_decidedOn_of_ne_filtered hlocal hrandom h hr (hopen ▸ PortState.noConfusion)
    rcases open_or_closed hlocal hrandom h hr hbytes with ⟨hsyn, -⟩ | ⟨-, -, hclosed⟩
    · exact ⟨bytes, hbytes, hsyn⟩
    · rw [hopen] at hclosed
      cases hclosed
  · rintro ⟨bytes, hbytes, hsyn⟩
    rcases open_or_closed hlocal hrandom h hr hbytes with ⟨-, hopen⟩ | ⟨hnot, -⟩
    · exact hopen
    · exact absurd hsyn hnot

theorem closed_iff (hlocal : env.localAddr = .ok (.v4 srcIp))
    (hrandom : env.random = some (srcPort, seq))
    (h : scanBlocking target port timing env = some run) (hr : run.result = .ok r) :
    r.state = .closed ↔ ∃ bytes,
      (env.probe target port timing srcIp srcPort).DecidedOn (env.rounds timing) bytes ∧
        ¬ IsSynAck bytes ∧ IsRst bytes := by
  constructor
  · intro hclosed
    obtain ⟨bytes, hbytes⟩ :=
      exists_decidedOn_of_ne_filtered hlocal hrandom h hr (hclosed ▸ PortState.noConfusion)
    rcases open_or_closed hlocal hrandom h hr hbytes with ⟨-, hopen⟩ | ⟨hsyn, hrst, -⟩
    · rw [hclosed] at hopen
      cases hopen
    · exact ⟨bytes, hbytes, hsyn, hrst⟩
  · rintro ⟨bytes, hbytes, hsyn, -⟩
    rcases open_or_closed hlocal hrandom h hr hbytes with ⟨hsyn', -⟩ | ⟨-, -, hclosed⟩
    · exact absurd hsyn' hsyn
    · exact hclosed

/-- The segment a scan is decided on is received in one of its rounds. -/
theorem SynProbe.DecidedOn.received {p : SynProbe} {rounds : List RecvCall} {bytes : Bytes}
    (h : p.DecidedOn rounds bytes) :
    ∃ call ∈ rounds, call.recv = .ok bytes ∧ p.IsSegment bytes ∧
      (IsSynAck bytes ∨ IsRst bytes) := by
  obtain ⟨before, call, after, rfl, -, -, hrecv, hseg, hflags⟩ := h
  exact ⟨call, by simp, hrecv, hseg, hflags⟩

/-- **The verdict answers the SYN** exactly when the segment it is taken from does. -/
theorem answersItsSyn_iff (hlocal : env.localAddr = .ok (.v4 srcIp))
    (hrandom : env.random = some (srcPort, seq))
    (h : scanBlocking target port timing env = some run) (hr : run.result = .ok r) :
    AnswersItsSyn target port timing env ↔ ∀ bytes,
      (env.probe target port timing srcIp srcPort).DecidedOn (env.rounds timing) bytes →
        CarriesAck bytes ∧ Acknowledges seq bytes := by
  constructor
  · intro hanswers bytes hbytes
    obtain ⟨hopen, hclosed⟩ := hanswers srcIp srcPort seq run r hlocal hrandom h hr
    rcases open_or_closed hlocal hrandom h hr hbytes with ⟨hsyn, hstate⟩ | ⟨-, -, hstate⟩
    · obtain ⟨bytes', hbytes', -, hack⟩ := hopen hstate
      obtain rfl := hbytes.unique hbytes'
      exact ⟨hsyn.carriesAck, hack⟩
    · obtain ⟨bytes', hbytes', -, hcarries, hack⟩ := hclosed hstate
      obtain rfl := hbytes.unique hbytes'
      exact ⟨hcarries, hack⟩
  · intro hanswers srcIp' srcPort' seq' run' r' hlocal' hrandom' h' hr'
    -- the scan has one source, one sequence number and one result
    cases hlocal.symm.trans hlocal'
    cases hrandom.symm.trans hrandom'
    cases h.symm.trans h'
    cases hr.symm.trans hr'
    constructor
    · intro hopen
      obtain ⟨bytes, hbytes, hsyn⟩ := (open_iff hlocal hrandom h hr).1 hopen
      exact ⟨bytes, hbytes, hsyn, (hanswers bytes hbytes).2⟩
    · intro hclosed
      obtain ⟨bytes, hbytes, -, hrst⟩ := (closed_iff hlocal hrandom h hr).1 hclosed
      exact ⟨bytes, hbytes, hrst, hanswers bytes hbytes⟩

/-- **The verdict is that of the first segment of the 4-tuple** received in a round entered before
the deadline, whatever it acknowledges: it answers the SYN of the scan exactly when that segment
carries ACK and acknowledges the sequence number of the SYN. -/
theorem decided_by_tuple (hlocal : env.localAddr = .ok (.v4 srcIp))
    (hrandom : env.random = some (srcPort, seq))
    (h : scanBlocking target port timing env = some run) (hr : run.result = .ok r) :
    (r.state = .open ↔ ∃ bytes,
      (env.probe target port timing srcIp srcPort).DecidedOn (env.rounds timing) bytes ∧
        IsSynAck bytes) ∧
    (r.state = .closed ↔ ∃ bytes,
      (env.probe target port timing srcIp srcPort).DecidedOn (env.rounds timing) bytes ∧
        ¬ IsSynAck bytes ∧ IsRst bytes) ∧
    (AnswersItsSyn target port timing env ↔ ∀ bytes,
      (env.probe target port timing srcIp srcPort).DecidedOn (env.rounds timing) bytes →
        CarriesAck bytes ∧ Acknowledges seq bytes) :=
  ⟨open_iff hlocal hrandom h hr, closed_iff hlocal hrandom h hr,
    answersItsSyn_iff hlocal hrandom h hr⟩

end

/-! ### A stale answer -/

/-- The round in which a SYN-ACK of the probed port arrives that acknowledges `ack`. -/
def staleRound (ack : UInt32) : RecvCall :=
  let tcp := buildTcp ⟨192, 168, 0, 1⟩ ⟨192, 168, 0, 7⟩ 80 40000 7 ack 0x12 64240
  ⟨.ok (), .ok (buildIpv4 9 ⟨192, 168, 0, 1⟩ ⟨192, 168, 0, 7⟩ tcp ++ tcp), fromMillis 20⟩

theorem verdictOf_staleRound (ack : UInt32) (p : SynProbe)
    (hp : p.target = ⟨192, 168, 0, 1⟩ ∧ p.srcIp = ⟨192, 168, 0, 7⟩ ∧ p.port = 80 ∧
      p.srcPort = 40000) : (staleRound ack).verdict p = some (.open ack) := by
  obtain ⟨htarget, hsrc, hport, hsrcPort⟩ := hp
  simp only [RecvCall.verdict, staleRound, htarget, hsrc, hport, hsrcPort, verdictOf_packet,
    and_self, if_true]
  rfl

/-- A scan that receives such a SYN-ACK. -/
theorem synReacts_staleRound (ack : UInt32) :
    SynReacts ⟨192, 168, 0, 1⟩ 80 (Timing.new 3) (sampleEnv [staleRound ack]) ⟨192, 168, 0, 7⟩
      ⟨40000, by decide⟩ 7 .synAck := by
  have hrounds : (sampleEnv [staleRound ack]).rounds (Timing.new 3) = [staleRound ack] := by
    change callsBefore (0 + (Timing.new 3).connectTimeout) (fromMillis 1) [staleRound ack] = _
    rw [callsBefore, if_neg (by decide +kernel), callsBefore]
  refine ⟨rfl, rfl, fun _ => rfl, ?_, ?_, ?_⟩
  · simp [sampleEnv, staleRound]
  · simp [sampleEnv, staleRound]
  · rw [hrounds, List.findSome?_singleton, ← RecvCall.verdict_reaction,
      verdictOf_staleRound ack _ ⟨rfl, rfl, rfl, rfl⟩]
    rfl

theorem open_of_staleRound (ack : UInt32) :
    ∃ run r, scanBlocking ⟨192, 168, 0, 1⟩ 80 (Timing.new 3) (sampleEnv [staleRound ack]) =
        some run ∧ run.result = .ok r ∧ r.state = .open := by
  let script : ℕ → Reaction := fun _ => .synAck
  have hreacts : SynReacts ⟨192, 168, 0, 1⟩ 80 (Timing.new 3) (sampleEnv [staleRound ack])
      ⟨192, 168, 0, 7⟩ ⟨40000, by decide⟩ 7 (script 0) := synReacts_staleRound ack
  exact scanBlocking_probed hreacts

/-- Such a scan is decided on a SYN-ACK that acknowledges `ack`. -/
theorem ack_of_decidedOn_staleRound {ack : UInt32} {bytes : Bytes}
    (h : ((sampleEnv [staleRound ack]).probe ⟨192, 168, 0, 1⟩ 80 (Timing.new 3) ⟨192, 168, 0, 7⟩
      ⟨40000, by decide⟩).DecidedOn ((sampleEnv [staleRound ack]).rounds (Timing.new 3)) bytes) :
    IsSynAck bytes ∧ segmentAck bytes = ack := by
  obtain ⟨call, hcall, hrecv, -⟩ := h.received
  obtain rfl := List.mem_singleton.1 (mem_of_mem_callsBefore hcall)
  have hverdict := verdictOf_staleRound ack ((sampleEnv [staleRound ack]).probe
    ⟨192, 168, 0, 1⟩ 80 (Timing.new 3) ⟨192, 168, 0, 7⟩ ⟨40000, by decide⟩) ⟨rfl, rfl, rfl, rfl⟩
  rw [RecvCall.verdict, hrecv] at hverdict
  obtain ⟨-, ⟨hsyn, hopen⟩ | ⟨-, -, hclosed⟩⟩ := verdictOf_eq_some_iff.1 hverdict
  · exact ⟨hsyn, (Verdict.open.inj hopen).symm⟩
  · cases hclosed

/-- A scan whose SYN has the sequence number 7 reports an open port on a SYN-ACK that acknowledges
something else. -/
theorem stale_answer_decides :
    ¬ AnswersItsSyn ⟨192, 168, 0, 1⟩ 80 (Timing.new 3) (sampleEnv [staleRound 4242]) := by
  intro hanswers
  obtain ⟨run, r, hrun, hr, hstate⟩ := open_of_staleRound 4242
  obtain ⟨bytes, hbytes, -, hack⟩ := (hanswers _ _ _ run r rfl rfl hrun hr).1 hstate
  -- the segment acknowledges 4242 and not 8
  rw [Acknowledges, (ack_of_decidedOn_staleRound hbytes).2] at hack
  cases hack

/-- A scan that receives the answer to its SYN is decided on it. -/
theorem decided_by_tuple_answered :
    ∃ run r, scanBlocking ⟨192, 168, 0, 1⟩ 80 (Timing.new 3) (sampleEnv [staleRound 8]) = some run ∧
      run.result = .ok r ∧ r.state = .open ∧ (∃ bytes,
        ((sampleEnv [staleRound 8]).probe ⟨192, 168, 0, 1⟩ 80 (Timing.new 3) ⟨192, 168, 0, 7⟩
          ⟨40000, by decide⟩).DecidedOn ((sampleEnv [staleRound 8]).rounds (Timing.new 3)) bytes ∧
        IsSynAck bytes) ∧
      AnswersItsSyn ⟨192, 168, 0, 1⟩ 80 (Timing.new 3) (sampleEnv [staleRound 8]) := by
  obtain ⟨run, r, hrun, hr, hstate⟩ := open_of_staleRound 8
  obtain ⟨hopen, -, hanswers⟩ := decided_by_tuple rfl rfl hrun hr
  refine ⟨run, r, hrun, hr, hstate, hopen.1 hstate, hanswers.2 fun bytes hbytes => ?_⟩
  obtain ⟨hsyn, hack⟩ := ack_of_decidedOn_staleRound hbytes
  exact ⟨hsyn.carriesAck, hack⟩

end Rnmap
