/-
**Probes that can still be decided.**

A SYN scan sends its SYN once and then only reads, whatever number of retries it is given.  So its
verdict is lost with the last trace of the SYN.  As long as the SYN is in flight, or the port holds
a connection half open for it, or an answer is in flight that decides, the probe can still find its
port open or closed; after that nothing the network or the port does helps it any more.

Main definitions:

* `Rnmap.Exchange.Pending` — a trace of the SYN is left;
* `Rnmap.Exchange.Lost` — a probe that waits in vain, or has given up.

Main results:

* `Rnmap.Exchange.exists_verdict_of_pending` — a trace of the SYN can lead to a verdict;
* `Rnmap.Exchange.Lost.step` — a lost probe stays lost;
* `Rnmap.Exchange.decided_iff_pending` — **when a probe can still be decided**, and what a scan
  reports if it cannot.
-/

import Rnmap.Handshake

set_option relaxedAutoImplicit false
set_option autoImplicit false

/-! ### What a port does with the segments of a half-open handshake -/

namespace Tcp

/-- A port that has no connection leaves the reset of one alone. -/
theorem Conn.receive_undoing_of_no_conn {c : Conn} (hc : c = .closed ∨ c = .listen) (w : Window)
    (iss seq : UInt32) : c.receive w iss (undoing seq) = (c, none) := by
  rcases hc with rfl | rfl
  · rfl
  · rfl

end Tcp

namespace Rnmap

open Bytes Runs

namespace Exchange

variable (x : Exchange)

/-- A trace of the SYN is left: the SYN itself, a connection the port holds half open for it, or an
answer that decides the probe. -/
def Pending (s : State) : Prop :=
  x.syn ∈ s.toTarget ∨ (∃ iss irs, s.port = .synReceived iss irs) ∨
    ∃ b ∈ s.toClient, ∃ v, x.verdict b = some v

/-- A probe that waits in vain, or has given up. -/
structure Lost (s : State) : Prop where
  begun : s.client ≠ .idle
  undecided : ∀ v, s.client ≠ .ended (some v)
  noTrace : ¬ x.Pending s

variable {x} {s t : State}

/-! ### From a trace to a verdict -/

/-- The packets of the port decide by their flags. -/
theorem verdict_builtPacket (id : UInt16) (seq ack : UInt32) (flags : UInt8) (win : UInt16) :
    x.verdict (builtPacket id x.p.target x.p.srcIp x.p.port x.p.srcPort seq ack flags win) =
      flagsVerdict flags ack := by
  rw [verdict, builtPacket, verdictOf_packet, if_pos ⟨rfl, rfl⟩, if_pos ⟨rfl, rfl⟩]

/-- There are datagrams with the answer of a listening port, and they decide. -/
theorem exists_synAck (iss : UInt32) :
    ∃ b, x.Carries b (Tcp.synAck iss x.seq) ∧ x.verdict b = some (.open (x.seq + 1)) := by
  have hflags : toSegment (x.p.port, x.p.srcPort, 0x12, iss, x.seq + 1) =
      Tcp.synAck iss x.seq := by
    have hbits : (0x12 : UInt8) &&& 0x02 = 0x02 ∧ (0x12 : UInt8) &&& 0x10 = 0x10 ∧
        (0x12 : UInt8) &&& 0x04 ≠ 0x04 := by decide
    simp [toSegment, Tcp.synAck, hbits]
  rw [← hflags]
  refine ⟨_, carries_builtPacket 0 iss (x.seq + 1) 0x12 0, ?_⟩
  rw [verdict_builtPacket]
  rfl

/-- There are datagrams with the answer of a closed port, and they decide. -/
theorem exists_refusal :
    ∃ b, x.Carries b (Tcp.resetFor (Tcp.opening x.seq)) ∧ x.verdict b = some .closed := by
  have hflags : toSegment (x.p.port, x.p.srcPort, 0x14, 0, x.seq + 1) =
      Tcp.resetFor (Tcp.opening x.seq) := by
    have hbits : (0x14 : UInt8) &&& 0x02 ≠ 0x02 ∧ (0x14 : UInt8) &&& 0x10 = 0x10 ∧
        (0x14 : UInt8) &&& 0x04 = 0x04 := by decide
    simp [toSegment, Tcp.resetFor, Tcp.opening, hbits]
  rw [← hflags]
  refine ⟨_, carries_builtPacket 0 0 (x.seq + 1) 0x14 0, ?_⟩
  rw [verdict_builtPacket]
  rfl

/-- An answer in flight that decides can be read. -/
theorem exists_verdict_of_answer (hwaiting : s.client = .waiting) {b : Bytes} {v : Verdict}
    (hb : b ∈ s.toClient) (hv : x.verdict b = some v) :
    ∃ t, x.Step s t ∧ t.client = .ended (some v) := by
  obtain ⟨pre, post, hwire⟩ := List.append_of_mem hb
  have hjudged : x.judged b = some (some v) := by rw [judged_eq_verdict, hv]
  exact ⟨_, .decide hwaiting hwire hjudged, rfl⟩

/-- A half-open connection of the port can be answered for once more. -/
theorem exists_verdict_of_synReceived (hwaiting : s.client = .waiting) {iss : UInt32}
    (hport : s.port = .synReceived iss x.seq) :
    ∃ t v, Reachable x.Step s t ∧ t.client = .ended (some v) := by
  obtain ⟨b, hcarries, hv⟩ := exists_synAck (x := x) iss
  have hagain : x.Step s { s with toClient := s.toClient ++ [b] } := .answerAgain hport hcarries
  obtain ⟨t, hdecide, ht⟩ := exists_verdict_of_answer
    (s := { s with toClient := s.toClient ++ [b] }) hwaiting List.mem_concat_self hv
  exact ⟨t, _, (Reachable.init.step hagain).step hdecide, ht⟩

/-- A port without a connection can answer the SYN. -/
theorem exists_verdict_of_syn (hwaiting : s.client = .waiting) (hsyn : x.syn ∈ s.toTarget)
    (hport : s.port = .closed ∨ s.port = .listen) :
    ∃ t v, Reachable x.Step s t ∧ t.client = .ended (some v) := by
  obtain ⟨pre, post, hwire⟩ := List.append_of_mem hsyn
  obtain ⟨r, b, v, hreceive, hcarries, hv⟩ : ∃ r b v,
      (s.port.receive x.window 0 (Tcp.opening x.seq)).2 = some r ∧ x.Carries b r ∧
        x.verdict b = some v := by
    rcases hport with hclosed | hlisten
    · obtain ⟨b, hcarries, hv⟩ := exists_refusal (x := x)
      exact ⟨_, b, _, by rw [hclosed]; rfl, hcarries, hv⟩
    · obtain ⟨b, hcarries, hv⟩ := exists_synAck (x := x) 0
      exact ⟨_, b, _, by rw [hlisten]; rfl, hcarries, hv⟩
  have hanswer := Step.answer hwire heard_syn hreceive hcarries
  obtain ⟨t, hdecide, ht⟩ := exists_verdict_of_answer (s := { s with
    port := (s.port.receive x.window 0 (Tcp.opening x.seq)).1
    toTarget := pre ++ post
    toClient := s.toClient ++ [b] }) hwaiting List.mem_concat_self hv
  exact ⟨t, v, (Reachable.init.step hanswer).step hdecide, ht⟩

/-- **A trace of the SYN can lead to a verdict.** -/
theorem exists_verdict_of_pending {listening : Bool} (hinv : x.Inv listening s)
    (hwaiting : s.client = .waiting) (h : x.Pending s) :
    ∃ t v, Reachable x.Step s t ∧ t.client = .ended (some v) := by
  have hhalf := hinv.halfOpen
  rcases h with hsyn | ⟨iss, irs, hport⟩ | ⟨b, hb, v, hv⟩
  · cases hport : s.port with
    | closed => exact exists_verdict_of_syn hwaiting hsyn (.inl hport)
    | listen => exact exists_verdict_of_syn hwaiting hsyn (.inr hport)
    | synReceived iss irs =>
        rw [hport] at hhalf
        obtain rfl : irs = x.seq := hhalf
        exact exists_verdict_of_synReceived hwaiting hport
    | established => exact absurd hport hinv.not_established
  · rw [hport] at hhalf
    obtain rfl : irs = x.seq := hhalf
    exact exists_verdict_of_synReceived hwaiting hport
  · obtain ⟨t, hdecide, ht⟩ := exists_verdict_of_answer hwaiting hb hv
    exact ⟨t, v, Reachable.init.step hdecide, ht⟩

/-! ### Lost probes -/

/-- A probe whose datagrams in flight are some of those before has no new trace. -/
theorem Lost.shrink (h : x.Lost s) (hclient : t.client = s.client) (hport : t.port = s.port)
    (htarget : ∀ b ∈ t.toTarget, b ∈ s.toTarget) (hanswers : ∀ b ∈ t.toClient, b ∈ s.toClient) :
    x.Lost t := by
  refine ⟨hclient ▸ h.begun, hclient ▸ h.undecided, fun htrace => h.noTrace ?_⟩
  rcases htrace with hsyn | hconn | ⟨b, hb, hv⟩
  · exact .inl (htarget _ hsyn)
  · exact .inr (.inl (hport ▸ hconn))
  · exact .inr (.inr ⟨b, hanswers b hb, hv⟩)

/-- The port of a lost probe has no connection and is sent nothing but resets. -/
theorem Lost.hears {listening : Bool} (hinv : x.Inv listening s) (h : x.Lost s) {b : Bytes}
    (hb : b ∈ s.toTarget) {seg : Tcp.Segment} (hseg : x.heard b = some seg) (iss : UInt32) :
    s.port.receive x.window iss seg = (s.port, none) := by
  have hport : s.port = .closed ∨ s.port = .listen := by
    cases hs : s.port with
    | closed => exact .inl rfl
    | listen => exact .inr rfl
    | synReceived iss irs => exact absurd (.inr (.inl ⟨iss, irs, hs⟩)) h.noTrace
    | established => exact absurd hs hinv.not_established
  rcases hinv.toTarget b hb with rfl | rfl
  · exact absurd (.inl hb) h.noTrace
  · rw [heard_rst] at hseg
    obtain rfl := Option.some.inj hseg
    exact Tcp.Conn.receive_undoing_of_no_conn hport x.window iss x.seq

/-- **A lost probe stays lost**, whatever the network and the port do. -/
theorem Lost.step {listening : Bool} (hinv : x.Inv listening s) (h : x.Lost s)
    (hs : x.Step s t) : x.Lost t := by
  cases hs with
  | send hidle => exact absurd hidle h.begun
  | loseRequest hwire =>
      exact h.shrink rfl rfl (fun b hb => mem_of_mem_removed hwire hb) fun b hb => hb
  | loseAnswer hwire =>
      exact h.shrink rfl rfl (fun b hb => hb) fun b hb => mem_of_mem_removed hwire hb
  | repeatRequest hmem =>
      refine h.shrink rfl rfl (fun b hb => ?_) fun b hb => hb
      rcases List.mem_append.1 hb with hb | hb
      · exact hb
      · exact List.mem_singleton.1 hb ▸ hmem
  | repeatAnswer hmem =>
      refine h.shrink rfl rfl (fun b hb => hb) fun b hb => ?_
      rcases List.mem_append.1 hb with hb | hb
      · exact hb
      · exact List.mem_singleton.1 hb ▸ hmem
  | @hear pre post b iss seg hwire hseg _ =>
      have hheard := h.hears hinv (hwire ▸ List.mem_append_cons_self) hseg iss
      exact h.shrink rfl (congrArg Prod.fst hheard)
        (fun b hb => mem_of_mem_removed hwire hb) fun b hb => hb
  | @answer pre post b b' iss seg r hwire hseg hr _ =>
      rw [h.hears hinv (hwire ▸ List.mem_append_cons_self) hseg iss] at hr
      cases hr
  | answerAgain hport _ => exact absurd (.inr (.inl ⟨_, _, hport⟩)) h.noTrace
  | forget hport => exact absurd (.inr (.inl ⟨_, _, hport⟩)) h.noTrace
  | overhear _ _ _ => exact h.shrink rfl rfl (fun b hb => hb) fun b hb => hb
  | overhearDecide _ hother hsome => exact absurd (isSegment_of_judged hsome) hother
  | skip _ hwire _ =>
      exact h.shrink rfl rfl (fun b hb => hb) fun b hb => mem_of_mem_removed hwire hb
  | @decide pre post b v _ hwire hjudged =>
      rw [judged_eq_verdict] at hjudged
      exact absurd (.inr (.inr ⟨b, hwire ▸ List.mem_append_cons_self, v,
        Option.some.inj hjudged⟩)) h.noTrace
  | giveUp hwaiting =>
      refine ⟨?_, ?_, h.noTrace⟩
      · intro hidle
        cases hidle
      · intro v hended
        cases hended

/-- A lost probe stays lost in every run that goes on from it. -/
theorem Lost.of_reachable {listening : Bool} (hinv : x.Inv listening s) (h : x.Lost s)
    (ht : Reachable x.Step s t) : x.Inv listening t ∧ x.Lost t := by
  induction ht with
  | refl => exact ⟨hinv, h⟩
  | tail _ hs ih => exact ⟨ih.1.step hs, ih.2.step ih.1 hs⟩

/-- A lost probe has sent nothing but its SYN, and is reported as filtered. -/
theorem Lost.sent_eq {listening : Bool} (hinv : x.Inv listening s) (h : x.Lost s) :
    s.sent = [x.syn] ∧ s.client.state = .filtered := by
  have hclient := hinv.client
  unfold ClientInv at hclient
  split at hclient
  · rename_i hidle
    exact absurd hidle h.begun
  · rename_i hwaiting
    rw [hwaiting]
    exact ⟨hclient.1, rfl⟩
  · rename_i hended
    rw [hended]
    exact ⟨hclient.1, rfl⟩
  · rename_i v hended
    exact absurd hended (h.undecided v)

/-- **When a probe can still be decided**: while it waits, exactly as long as a trace of its SYN is
left.  When none is left, whatever the network and the port do from then on, the probe is not
decided, and a scan that follows it has sent one SYN and reports its port as filtered, with any
number of retries. -/
theorem decided_iff_pending {port : Tcp.Conn} (hport : port = .closed ∨ port = .listen)
    (h : x.Reaches port s) (hwaiting : s.client = .waiting) :
    ((∃ t v, Reachable x.Step s t ∧ t.client = .ended (some v)) ↔ x.Pending s) ∧
    (¬ x.Pending s → ∀ t, Reachable x.Step s t →
      ∀ (timing : Timing) (env : SynEnv) (srcPort : SourcePort), x.Follows t timing env srcPort →
        ∃ run r, scanBlocking x.p.target x.p.port timing env = some run ∧ run.result = .ok r ∧
          run.sent = [x.syn] ∧ r.state = .filtered) := by
  have hinv := inv_of_reaches hport h
  have hlost : ¬ x.Pending s → x.Lost s := by
    intro htrace
    refine ⟨?_, ?_, htrace⟩
    · intro hidle
      rw [hwaiting] at hidle
      cases hidle
    · intro v hended
      rw [hwaiting] at hended
      cases hended
  constructor
  · constructor
    · rintro ⟨t, v, ht, hended⟩
      by_contra htrace
      exact ((hlost htrace).of_reachable hinv ht).2.undecided v hended
    · exact exists_verdict_of_pending hinv hwaiting
  · intro htrace t ht timing env srcPort hfollows
    obtain ⟨hinv', hlost'⟩ := (hlost htrace).of_reachable hinv ht
    obtain ⟨hsent, hfiltered⟩ := hlost'.sent_eq hinv'
    obtain ⟨run, r, hscan, hr, hsent', hstate⟩ := hfollows.scanBlocking_eq hinv'
    exact ⟨run, r, hscan, hr, hsent'.trans hsent, hstate.trans hfiltered⟩

/-! ### A lost SYN -/

/-- The SYN of the sample is lost. -/
def sampleLost : State := ⟨.waiting, [sample.syn], [], .listen, [], []⟩

theorem reaches_sampleLost : sample.Reaches .listen sampleLost := by
  have hsend : sample.Step (.start .listen) sampleWaiting := .send rfl
  have hwire : sampleWaiting.toTarget = [] ++ sample.syn :: [] := rfl
  have hlose : sample.Step sampleWaiting sampleLost := .loseRequest hwire
  exact (Reachable.init.step hsend).step hlose

/-- No trace of it is left. -/
theorem not_pending_sampleLost : ¬ sample.Pending sampleLost := by
  rintro (hsyn | ⟨iss, irs, hport⟩ | ⟨b, hb, -⟩)
  · cases hsyn
  · cases hport
  · cases hb

/-- A scan that receives nothing follows the probe of the sample. -/
theorem follows_sampleLost :
    sample.Follows sampleLost (Timing.new 3) (sampleEnv []) ⟨40000, by decide⟩ := by
  have hbegun : sampleLost.client ≠ .idle := by
    intro h
    cases h
  exact ⟨hbegun, (synReacts_sampleEnv 80 .silence).quiet, rfl, rfl, rfl⟩

/-- The port listens, and is reported as filtered. -/
theorem decided_iff_pending_lost :
    (¬ ∃ t v, Reachable sample.Step sampleLost t ∧ t.client = .ended (some v)) ∧
      ∃ run r, scanBlocking ⟨192, 168, 0, 1⟩ 80 (Timing.new 3) (sampleEnv []) = some run ∧
        run.result = .ok r ∧ run.sent = [sample.syn] ∧ r.state = .filtered := by
  obtain ⟨hdecided, hreport⟩ := decided_iff_pending (.inr rfl) reaches_sampleLost rfl
  exact ⟨fun h => not_pending_sampleLost (hdecided.1 h),
    hreport not_pending_sampleLost _ Reachable.init _ _ _ follows_sampleLost⟩

end Exchange

end Rnmap
