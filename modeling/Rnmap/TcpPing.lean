/-
**The TCP ping of host discovery.**

`tcp_ping` connects to one port after the other.  The first connection shows that the host is up; a
host that only refuses or resets connections is up as well, but this is known only when all ports
are tried.  The errors of a connection are told apart here and in the connect scan, each on its
own; the two agree.

Main definitions:

* `Rnmap.PingProbe` — a port and what happens when it is connected to;
* `Rnmap.tcpPingLoop`, `Rnmap.tcpPing` — the ping;
* `Rnmap.PingProbe.scanState` — what a connect scan of one attempt would report;
* `Rnmap.PingAgrees` — the ping agrees with the connect scan.

Main results:

* `Rnmap.tcpPingLoop_eq` — **the outcome of a ping**;
* `Rnmap.tcpPing_agrees` — **the ping agrees with the connect scan**, whatever happens.
-/

import Rnmap.ConnectScan
import Rnmap.IcmpPing

set_option relaxedAutoImplicit false
set_option autoImplicit false

namespace Rnmap

open Text

/-! ### The ping -/

/-- One probe of a ping: its port, and how and when connecting to it ends. -/
structure PingProbe where
  port : UInt16
  outcome : ConnectOutcome
  duration : Duration

/-- The loop over the ports; `anyRst` tells whether a connection was refused or reset so far. -/
def tcpPingLoop : List PingProbe → Bool → DiscoveryOutcome
  | [], anyRst =>
      if anyRst then ⟨.up, "tcp-rst".toList, none⟩ else ⟨.down, "no-response".toList, none⟩
  | p :: ps, anyRst =>
      match p.outcome with
      | .connected => ⟨.up, "tcp-syn-ack:".toList ++ decimal p.port.toNat, some p.duration⟩
      | .failed e =>
          if e.kind = .connectionRefused ∨ e.kind = .connectionReset then tcpPingLoop ps true
          else tcpPingLoop ps anyRst
      | .elapsed => tcpPingLoop ps anyRst

/-- `tcp_ping`. -/
def tcpPing (probes : List PingProbe) : DiscoveryOutcome := tcpPingLoop probes false

/-! ### What a ping finds out -/

/-- The same connection as an attempt of the connect scan. -/
def PingProbe.attempt (p : PingProbe) : Attempt := ⟨p.outcome, p.duration, 0⟩

/-- The connection is made. -/
def PingProbe.connects (p : PingProbe) : Bool := p.attempt.decides = some .open

/-- The connection is refused or reset. -/
def PingProbe.refused (p : PingProbe) : Bool := p.attempt.decides = some .closed

theorem PingProbe.connects_iff {p : PingProbe} : p.connects = true ↔ p.outcome = .connected := by
  unfold PingProbe.connects PingProbe.attempt Attempt.decides
  cases p.outcome with
  | connected => simp
  | elapsed => simp
  | failed e =>
      by_cases hkind : e.kind = .connectionRefused ∨ e.kind = .connectionReset <;> simp [hkind]

theorem PingProbe.refused_iff {p : PingProbe} : p.refused = true ↔
    ∃ e, p.outcome = .failed e ∧ (e.kind = .connectionRefused ∨ e.kind = .connectionReset) := by
  unfold PingProbe.refused PingProbe.attempt Attempt.decides
  cases p.outcome with
  | connected => simp
  | elapsed => simp
  | failed e =>
      by_cases hkind : e.kind = .connectionRefused ∨ e.kind = .connectionReset <;> simp [hkind]

/-- **The outcome of a ping**: that of the first connection, or else whether any was refused or
reset. -/
theorem tcpPingLoop_eq (probes : List PingProbe) (anyRst : Bool) :
    tcpPingLoop probes anyRst =
      match probes.find? PingProbe.connects with
      | some p => ⟨.up, "tcp-syn-ack:".toList ++ decimal p.port.toNat, some p.duration⟩
      | none =>
          if anyRst || probes.any PingProbe.refused then ⟨.up, "tcp-rst".toList, none⟩
          else ⟨.down, "no-response".toList, none⟩ := by
  induction probes generalizing anyRst with
  | nil => rw [tcpPingLoop, List.find?_nil, List.any_nil, Bool.or_false]
  | cons p ps ih =>
      have hconnects : p.outcome ≠ .connected → p.connects = false := fun h =>
        Bool.eq_false_iff.2 (mt PingProbe.connects_iff.1 h)
      have hrefused : p.refused = true ↔ _ := PingProbe.refused_iff
      rw [tcpPingLoop, List.find?_cons, List.any_cons]
      cases hout : p.outcome with
      | connected =>
          rw [PingProbe.connects_iff.2 hout]
      | elapsed =>
          rw [hconnects (by simp [hout]), Bool.eq_false_iff.2 (mt hrefused.1 (by simp [hout])),
            Bool.false_or]
          exact ih anyRst
      | failed e =>
          rw [hconnects (by simp [hout])]
          by_cases hkind : e.kind = .connectionRefused ∨ e.kind = .connectionReset
          · rw [hrefused.2 ⟨e, hout, hkind⟩, Bool.true_or, Bool.or_true]
            dsimp only
            rw [if_pos hkind]
            exact ih true
          · have hnot : p.refused = false := by
              refine Bool.eq_false_iff.2 fun h => ?_
              obtain ⟨e', he', hkind'⟩ := hrefused.1 h
              obtain rfl := ConnectOutcome.failed.inj (hout.symm.trans he')
              exact hkind hkind'
            rw [hnot, Bool.false_or]
            dsimp only
            rw [if_neg hkind]
            exact ih anyRst

/-! ### Against the connect scan -/

/-- The state a connect scan of one attempt reports. -/
def PingProbe.scanState (p : PingProbe) (timing : Timing) (started : Duration) : PortState :=
  (connectScan p.port { timing with maxRetries := 0 } (fun _ => p.attempt) started).result.state

theorem PingProbe.scanState_eq (p : PingProbe) (timing : Timing) (started : Duration) :
    p.scanState timing started = p.attempt.decides.getD .filtered := by
  rw [PingProbe.scanState, connectScan_state]
  change ((List.range 1).findSome? fun _ => p.attempt.decides).getD .filtered = _
  rw [List.range_one, List.findSome?_singleton]

/-- The host answers the probe, as the connect scan sees it. -/
def PingProbe.Answered (p : PingProbe) (timing : Timing) (started : Duration) : Prop :=
  p.scanState timing started = .open ∨ p.scanState timing started = .closed

/-- **The ping agrees with the connect scan.** -/
structure PingAgrees (probes : List PingProbe) (timing : Timing) (started : Duration) : Prop where
  /-- The host is up when the connect scan would find some port open or closed. -/
  up_iff : (tcpPing probes).state = .up ↔ ∃ p ∈ probes, p.Answered timing started
  /-- Otherwise it is down. -/
  down_iff : (tcpPing probes).state = .down ↔ ¬ ∃ p ∈ probes, p.Answered timing started
  /-- Order and repetition of the probes do not matter. -/
  order : ∀ probes' : List PingProbe, (∀ p, p ∈ probes' ↔ p ∈ probes) →
    (tcpPing probes').state = (tcpPing probes).state
  /-- The reason names the first port that connects. -/
  synAck : ∀ before p after, probes = before ++ p :: after → p.outcome = .connected →
    (∀ q ∈ before, q.outcome ≠ .connected) →
      (tcpPing probes).reason = "tcp-syn-ack:".toList ++ decimal p.port.toNat
  /-- The reason is a reset only when no port connects and some refuses or resets. -/
  rst : (tcpPing probes).reason = "tcp-rst".toList →
    (∀ p ∈ probes, p.outcome ≠ .connected) ∧
      ∃ p ∈ probes, ∃ e, p.outcome = .failed e ∧
        (e.kind = .connectionRefused ∨ e.kind = .connectionReset)

/-- What the connect scan finds open connects, and what it finds closed refuses or resets. -/
theorem PingProbe.answered_iff {p : PingProbe} {timing : Timing} {started : Duration} :
    p.Answered timing started ↔ p.connects = true ∨ p.refused = true := by
  unfold PingProbe.Answered PingProbe.connects PingProbe.refused
  rw [p.scanState_eq]
  cases p.attempt.decides with
  | none => simp
  | some st => simp

/-- The ping finds a host up when some probe is answered. -/
theorem tcpPing_state (probes : List PingProbe) :
    (tcpPing probes).state =
      if probes.any (fun p => p.connects || p.refused) then .up else .down := by
  rw [tcpPing, tcpPingLoop_eq, Bool.false_or]
  cases hfind : probes.find? PingProbe.connects with
  | some p =>
      have hany : (probes.any fun p => p.connects || p.refused) = true :=
        List.any_eq_true.2 ⟨p, List.mem_of_find?_eq_some hfind, by
          rw [List.find?_some hfind, Bool.true_or]⟩
      rw [if_pos hany]
  | none =>
      have hany : (probes.any fun p => p.connects || p.refused) = probes.any PingProbe.refused := by
        rw [Bool.eq_iff_iff, List.any_eq_true, List.any_eq_true]
        refine exists_congr fun p => and_congr_right fun hp => ?_
        rw [Bool.eq_false_iff.2 (List.find?_eq_none.1 hfind p hp), Bool.false_or]
      rw [hany]
      dsimp only
      split_ifs
      · rfl
      · rfl

theorem tcpPing_up_iff {probes : List PingProbe} {timing : Timing} {started : Duration} :
    (tcpPing probes).state = .up ↔ ∃ p ∈ probes, p.Answered timing started := by
  rw [tcpPing_state]
  have hany : (probes.any fun p => p.connects || p.refused) = true ↔
      ∃ p ∈ probes, p.Answered timing started := by
    simp only [List.any_eq_true, Bool.or_eq_true, PingProbe.answered_iff]
  rw [← hany]
  cases probes.any fun p => p.connects || p.refused with
  | true => exact iff_of_true rfl rfl
  | false => exact iff_of_false (fun h => nomatch h) Bool.false_ne_true

/-- A ping never leaves a host unknown. -/
theorem tcpPing_down_iff {probes : List PingProbe} :
    (tcpPing probes).state = .down ↔ (tcpPing probes).state ≠ .up := by
  rw [tcpPing_state]
  cases probes.any fun p => p.connects || p.refused with
  | true => exact iff_of_false (fun h => nomatch h) fun h => h rfl
  | false => exact iff_of_true rfl fun h => nomatch h

/-- The first connection makes the reason. -/
theorem reason_of_connected {before after : List PingProbe} {p : PingProbe}
    (hp : p.outcome = .connected) (hbefore : ∀ q ∈ before, q.outcome ≠ .connected) :
    (tcpPing (before ++ p :: after)).reason = "tcp-syn-ack:".toList ++ decimal p.port.toNat := by
  have hfind : (before ++ p :: after).find? PingProbe.connects = some p := by
    have hnone : before.find? PingProbe.connects = none :=
      List.find?_eq_none.2 fun q hq => mt PingProbe.connects_iff.1 (hbefore q hq)
    rw [List.find?_append, hnone, Option.none_or,
      List.find?_cons_of_pos (PingProbe.connects_iff.2 hp)]
  rw [tcpPing, tcpPingLoop_eq, hfind]

/-- A reset makes it only when there is no connection. -/
theorem refused_of_reason {probes : List PingProbe}
    (h : (tcpPing probes).reason = "tcp-rst".toList) :
    (∀ p ∈ probes, p.connects = false) ∧ ∃ p ∈ probes, p.refused = true := by
  rw [tcpPing, tcpPingLoop_eq, Bool.false_or] at h
  cases hfind : probes.find? PingProbe.connects with
  | some p =>
      rw [hfind] at h
      -- the two reasons differ in their fifth character
      have hfifth : some 's' = some 'r' := congrArg (fun s : Text => s[4]?) h
      exact absurd hfifth (by decide)
  | none =>
      rw [hfind] at h
      dsimp only at h
      split_ifs at h with hany
      · exact ⟨fun p hp => Bool.eq_false_iff.2 (List.find?_eq_none.1 hfind p hp),
          List.any_eq_true.1 hany⟩
      · exact absurd h (by decide)

/-- **The ping agrees with the connect scan**, whatever happens to the probes. -/
theorem tcpPing_agrees (probes : List PingProbe) (timing : Timing) (started : Duration) :
    PingAgrees probes timing started where
  up_iff := tcpPing_up_iff
  down_iff := tcpPing_down_iff.trans (not_congr tcpPing_up_iff)
  order := by
    intro probes' hmem
    have hany : (probes'.any fun p => p.connects || p.refused) =
        probes.any fun p => p.connects || p.refused := by
      rw [Bool.eq_iff_iff, List.any_eq_true, List.any_eq_true]
      exact exists_congr fun p => and_congr_left fun _ => hmem p
    rw [tcpPing_state, tcpPing_state, hany]
  synAck := by
    rintro before p after rfl hp hbefore
    exact reason_of_connected hp hbefore
  rst := by
    intro h
    obtain ⟨hnone, p, hp, hrefused⟩ := refused_of_reason h
    refine ⟨fun q hq hcon => ?_, p, hp, PingProbe.refused_iff.1 hrefused⟩
    exact Bool.false_ne_true ((hnone q hq).symm.trans (PingProbe.connects_iff.2 hcon))

end Rnmap
