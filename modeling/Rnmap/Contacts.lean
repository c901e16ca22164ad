/-
**What a run may send, and how much.**

What a run sends to a host follows from its stages.  Each contact is one that was asked for: the
address is that of a host of the run, the port one to ping or one to scan, a host that is not up is
not scanned, and service detection connects to open ports only.  The segments of a SYN scan leave
their connection half open: each is a SYN or a RST without acknowledgement.  The number of contacts
has a bound that depends on the numbers of hosts, ports and retries.

Main definitions:

* `Rnmap.IsHalfOpen` — the segments of a SYN scan;
* `Rnmap.ScanScript.Permitted` — the contacts that were asked for.

Main results:

* `Rnmap.sent_scanBlocking` — what a SYN scan sends;
* `Rnmap.ScanScript.permitted_of_sent` — **nothing else is sent**;
* `Rnmap.ScanScript.length_sent_le` — **how much is sent**;
* `Rnmap.ScanScript.count_connect_le` — how often a port is connected to.
-/

import Rnmap.Traffic

set_option relaxedAutoImplicit false
set_option autoImplicit false

namespace Rnmap

open Runs Text Utf8

/-! ### The segments of a SYN scan -/

/-- A segment that a scan of a port sends: from some source, to the target and the port, a SYN or a
RST, and nothing acknowledged. -/
def IsHalfOpen (target : Ipv4Addr) (port : UInt16) (packet : Bytes) : Prop :=
  ∃ src sp flags seq, IsTcpFor packet src target ∧
    tcpFields (packet.drop (headerLen packet)) = (sp, port, flags, seq, 0) ∧
    (flags = 0x02 ∨ flags = 0x04)

theorem isHalfOpen_builtPacket (id : UInt16) (src target : Ipv4Addr) (sp port : UInt16)
    (seq : UInt32) {flags : UInt8} (win : UInt16) (hflags : flags = 0x02 ∨ flags = 0x04) :
    IsHalfOpen target port (builtPacket id src target sp port seq 0 flags win) := by
  refine ⟨src, sp, flags, seq, isTcpFor_builtPacket .., ?_, hflags⟩
  rw [drop_headerLen_builtPacket, tcpFields_buildTcp]

/-- **What a SYN scan sends**: half-open segments to the port, two at most, and one at most when it
fails. -/
theorem sent_scanBlocking {target : Ipv4Addr} {port : UInt16} {timing : Timing} {env : SynEnv}
    {run : SynRun} (h : scanBlocking target port timing env = some run) :
    (∀ packet ∈ run.sent, IsHalfOpen target port packet) ∧ run.sent.length ≤ 2 ∧
      ((∃ e, run.result = .error e) → run.sent.length ≤ 1) := by
  rcases scanBlocking_cases h with ⟨e, rfl⟩ | ⟨p, seq, loop, rfl, rfl, rfl, hloop⟩
  · exact ⟨fun _ hmem => (nomatch hmem), Nat.zero_le _, fun _ => Nat.zero_le _⟩
  · have hsyn := isHalfOpen_builtPacket env.ipIds.1 p.srcIp p.target p.srcPort p.port seq 0xFFFF
      (.inl rfl)
    rcases hloop with rfl | ⟨e, rfl⟩ | ⟨v, time, rfl⟩
    · exact ⟨List.forall_mem_singleton.2 hsyn, Nat.le_succ 1, fun _ => le_rfl⟩
    · exact ⟨List.forall_mem_singleton.2 hsyn, Nat.le_succ 1, fun _ => le_rfl⟩
    · cases v with
      | closed => exact ⟨List.forall_mem_singleton.2 hsyn, Nat.le_succ 1, fun _ => le_rfl⟩
      | «open» ack =>
          refine ⟨List.forall_mem_cons.2 ⟨hsyn, List.forall_mem_singleton.2 ?_⟩, le_rfl, ?_⟩
          · exact isHalfOpen_builtPacket p.rstId p.srcIp p.target p.srcPort p.port ack 0 (.inr rfl)
          · rintro ⟨e, he⟩
            cases he

/-! ### Connection attempts -/

/-- The retry loop makes an attempt for each number it is given, at most. -/
theorem attempts_connectLoop_le (port : UInt16) (maxRetries : ℕ) (script : ℕ → Attempt)
    (started : Duration) (ns : List ℕ) (s : ConnectState) :
    (connectLoop port maxRetries script started ns s).attempts ≤ s.made + ns.length := by
  induction ns generalizing s with
  | nil => exact le_rfl
  | cons attempt rest ih =>
      have hmade : ∀ t : ConnectState, t.made = s.made + 1 →
          (connectLoop port maxRetries script started rest t).attempts ≤
            s.made + (attempt :: rest).length := by
        intro t ht
        have hrest := ih t
        rw [List.length_cons]
        omega
      have hone : s.made + 1 ≤ s.made + (attempt :: rest).length := by
        rw [List.length_cons]
        omega
      rw [connectLoop]
      cases (script attempt).outcome with
      | connected => exact hone
      | elapsed => exact hmade _ rfl
      | failed e =>
          dsimp only
          split
          · exact hone
          · exact hmade _ rfl

/-- The connect scan makes an attempt for each retry and one more, at most. -/
theorem made_le (s : PortScript) (port : UInt16) (timing : Timing) :
    s.made port timing ≤ timing.maxRetries.toNat + 1 := by
  have hattempts : (s.scan port timing).attempts ≤ timing.maxRetries.toNat + 1 := by
    have h := attempts_connectLoop_le port timing.maxRetries.toNat s.attempts s.started
      (List.range (timing.maxRetries.toNat + 1)) ⟨s.started, none, 0⟩
    rwa [List.length_range, Nat.zero_add] at h
  unfold PortScript.made
  split
  · exact (min_le_right _ _).trans hattempts
  · exact hattempts

/-! ### Contacts that were asked for -/

theorem mem_of_mem_pingsMade {ps : List PingProbe} {p : PingProbe} (h : p ∈ pingsMade ps) :
    p ∈ ps := by
  induction ps with
  | nil => exact h
  | cons q ps ih =>
      rw [pingsMade] at h
      split at h
      · exact List.mem_singleton.1 h ▸ List.mem_cons_self
      · rcases List.mem_cons.1 h with rfl | h
        · exact List.mem_cons_self
        · exact List.mem_cons_of_mem q (ih h)
      · rcases List.mem_cons.1 h with rfl | h
        · exact List.mem_cons_self
        · exact List.mem_cons_of_mem q (ih h)

namespace ScanScript

variable (sc : ScanScript)

/-- The host is scanned: it is up, or was not to be discovered. -/
def Scans (h : HostScript) : Prop := sc.run.skips (sc.plan h) = false

/-- The port is one of those to scan, of a host that is scanned, and it was found open. -/
def FoundOpen (h : HostScript) (port : UInt16) : Prop :=
  sc.Scans h ∧ port ∈ sc.ports ∧ ∃ r, sc.run.probeResult (sc.plan h) port = some r ∧ r.state = .open

/-- **A contact that was asked for** with a host. -/
def Permitted (h : HostScript) : Contact → Prop
  | .ping ip port => ip = h.ip ∧ sc.pn = false ∧ sc.pe = false ∧ port ∈ sc.pingPorts
  | .echo ip packet =>
      ip = h.ip ∧ sc.pn = false ∧ sc.pe = true ∧
        packet = buildIcmpEcho (echoId h.icmp.env.pid) echoSeq echoPayload
  | .segment target port packet =>
      .v4 target = h.ip ∧ sc.sS = true ∧ sc.Scans h ∧ port ∈ sc.ports ∧
        IsHalfOpen target port packet
  | .connect ip port => ip = h.ip ∧ sc.Scans h ∧ port ∈ sc.ports
  | .detect ip port => ip = h.ip ∧ sc.sV = true ∧ sc.FoundOpen h port
  | .payload ip port payload =>
      ip = h.ip ∧ sc.sV = true ∧ sc.FoundOpen h port ∧ ¬ (h.port port).detect.Greets ∧
        ∃ text, payloadFor port = some text ∧ payload = encode text

variable {sc}

theorem permitted_of_discovery {h : HostScript} {c : Contact} (hc : c ∈ sc.discovery h) :
    sc.Permitted h c := by
  unfold discovery at hc
  split_ifs at hc with hpn hpe
  · cases hc
  · obtain ⟨packet, hpacket, rfl⟩ := List.mem_map.1 hc
    refine ⟨rfl, by simpa using hpn, hpe, ?_⟩
    unfold echoesSent at hpacket
    split at hpacket
    · cases hpacket
    · split at hpacket
      · exact List.mem_singleton.1 hpacket
      · cases hpacket
  · obtain ⟨p, hp, rfl⟩ := List.mem_map.1 hc
    obtain ⟨port, hport, rfl⟩ := List.mem_map.1 (mem_of_mem_pingsMade hp)
    exact ⟨rfl, by simpa using hpn, by simpa using hpe, hport⟩

theorem permitted_of_probes {h : HostScript} {c : Contact} (hc : c ∈ sc.probes h) :
    sc.Permitted h c := by
  unfold probes at hc
  cases hskip : sc.run.skips (sc.plan h) with
  | true =>
      rw [hskip] at hc
      cases hc
  | false =>
      rw [hskip] at hc
      obtain ⟨port, hport, hc⟩ := List.mem_flatMap.1 hc
      have hconnect : c ∈ sc.connectContacts h port → sc.Permitted h c := by
        intro hmem
        obtain rfl := List.eq_of_mem_replicate hmem
        exact ⟨rfl, hskip, hport⟩
      have hsyn : sc.sS = true → c ∈ sc.synContacts h port → sc.Permitted h c := by
        intro hsS hmem
        unfold synContacts at hmem
        split at hmem
        · cases hmem
        · rename_i target hip
          split at hmem
          · rename_i run hrun
            obtain ⟨packet, hpacket, rfl⟩ := List.mem_map.1 hmem
            exact ⟨hip.symm, hsS, hskip, hport, (sent_scanBlocking hrun).1 packet hpacket⟩
          · cases hmem
      have hfirst : sc.run.firstPhase (sc.plan h) = .syn → sc.sS = true := by
        intro hphase
        unfold CliRun.firstPhase at hphase
        split_ifs at hphase with hsS
        exact hsS
      cases hphase : sc.run.firstPhase (sc.plan h) with
      | finished result =>
          rw [hphase] at hc
          cases hc
      | connect =>
          rw [hphase] at hc
          exact hconnect hc
      | syn =>
          rw [hphase] at hc
          rcases List.mem_append.1 hc with hc | hc
          · exact hsyn (hfirst hphase) hc
          · unfold fallbackContacts at hc
            split at hc
            · cases hc
            · exact hconnect hc

theorem permitted_of_detection {h : HostScript} {c : Contact} (hc : c ∈ sc.detection h) :
    sc.Permitted h c := by
  cases hskip : sc.run.skips (sc.plan h) with
  | true =>
      rw [detection, CliRun.hostResult, if_pos hskip] at hc
      cases hc
  | false =>
      rw [detection_eq hskip] at hc
      obtain ⟨r, hr, hc⟩ := List.mem_flatMap.1 hc
      obtain ⟨port, hport, hres⟩ :=
        List.mem_filterMap.1 ((CliRun.sortByPort_spec _).1.mem_iff.1 hr)
      obtain rfl : r.port = port := (CliRun.isProbeOf_of_probeResult hres).port_eq
      unfold detectContacts at hc
      split_ifs at hc with hopen
      · have hfound : sc.FoundOpen h r.port := ⟨hskip, hport, r, hres, hopen.2⟩
        rcases List.mem_cons.1 hc with rfl | hc
        · exact ⟨rfl, hopen.1, hfound⟩
        · obtain ⟨payload, hpayload, rfl⟩ := List.mem_map.1 hc
          obtain ⟨-, hgreets, htext⟩ := (sent_detect _ _ _).1 hpayload
          exact ⟨rfl, hopen.1, hfound, hgreets, htext⟩
      · cases hc

variable (sc) in
/-- All that is sent to a host, in some order. -/
def contacts (h : HostScript) : List Contact := sc.discovery h ++ (sc.probes h ++ sc.detection h)

theorem flatten_stages (hosts : List HostScript) :
    (hosts.flatMap sc.stages).flatten = hosts.flatMap sc.contacts := by
  have hsingle : ∀ cs : List Contact, (cs.map fun c => [c]).flatten = cs := by
    intro cs
    induction cs with
    | nil => rfl
    | cons c cs ih => rw [List.map_cons, List.flatten_cons, ih, List.singleton_append]
  induction hosts with
  | nil => rfl
  | cons h hosts ih =>
      rw [List.flatMap_cons, List.flatMap_cons, List.flatten_append, ih, stages, contacts,
        List.flatten_append, List.flatten_cons, hsingle, hsingle]

/-- What a run sent is part of what is sent to its hosts. -/
theorem exists_perm_of_sends {s : LoopState} {log : List Contact} (h : sc.Sends s log) :
    ∃ rest, (log ++ rest).Perm (sc.hosts.flatMap sc.contacts) :=
  ⟨_, flatten_stages sc.hosts ▸ (staged_of_sends h).perm⟩

theorem permitted_of_contacts {h : HostScript} {c : Contact} (hc : c ∈ sc.contacts h) :
    sc.Permitted h c := by
  rcases List.mem_append.1 hc with hc | hc
  · exact permitted_of_discovery hc
  · rcases List.mem_append.1 hc with hc | hc
    · exact permitted_of_probes hc
    · exact permitted_of_detection hc

/-- **Nothing else is sent**: each contact of a run is one that was asked for with one of its
hosts. -/
theorem permitted_of_sent {s : LoopState} {log : List Contact} (h : sc.Sends s log) :
    ∀ c ∈ log, ∃ host ∈ sc.hosts, sc.Permitted host c := by
  intro c hc
  obtain ⟨rest, hperm⟩ := exists_perm_of_sends h
  obtain ⟨host, hhost, hmem⟩ :=
    List.mem_flatMap.1 (hperm.mem_iff.1 (List.mem_append_left rest hc))
  exact ⟨host, hhost, permitted_of_contacts hmem⟩

/-- A scan of SSH and HTTP sends nothing else. -/
theorem permitted_of_sent_sample :
    ∃ s log, sampleScript.Sends s log ∧ s.Finished ∧
      ∀ c ∈ log, ∃ host ∈ sampleScript.hosts, sampleScript.Permitted host c := by
  obtain ⟨s, log, hlog, hfin⟩ := exists_sent_sample
  exact ⟨s, log, hlog, hfin, permitted_of_sent hlog⟩

/-! ### How much is sent -/

theorem length_discovery_le (h : HostScript) :
    (sc.discovery h).length ≤ max sc.pingPorts.length 1 := by
  have hmade : ∀ ps : List PingProbe, (pingsMade ps).length ≤ ps.length := by
    intro ps
    induction ps with
    | nil => exact le_rfl
    | cons p ps ih =>
        rw [pingsMade, List.length_cons]
        split
        · exact Nat.succ_le_succ (Nat.zero_le _)
        · exact Nat.succ_le_succ ih
        · exact Nat.succ_le_succ ih
  unfold discovery
  split_ifs with hpn hpe
  · exact Nat.zero_le _
  · refine le_trans ?_ (le_max_right _ _)
    rw [List.length_map]
    unfold echoesSent
    split
    · exact Nat.zero_le 1
    · split
      · exact le_rfl
      · exact Nat.zero_le 1
  · refine le_trans ?_ (le_max_left _ _)
    rw [List.length_map]
    exact (hmade _).trans (List.length_map _).le

/-- The task of a port sends a SYN and a RST, or a SYN and all connection attempts, at most. -/
theorem length_toSend_le (h : HostScript) (port : UInt16) (phase : Phase) :
    (sc.toSend h port phase).length ≤ sc.timing.maxRetries.toNat + 2 := by
  have hconnect : (sc.connectContacts h port).length ≤ sc.timing.maxRetries.toNat + 1 :=
    List.length_replicate.le.trans (made_le _ _ _)
  cases phase with
  | finished result => exact Nat.zero_le _
  | connect => exact hconnect.trans (Nat.le_succ _)
  | syn =>
      have hmore : ∀ phase,
          (sc.fallbackContacts h port phase).length ≤ sc.timing.maxRetries.toNat + 1 := by
        intro phase
        unfold fallbackContacts
        split
        · exact Nat.zero_le _
        · exact hconnect
      have hnone : sc.synContacts h port = [] →
          (sc.toSend h port .syn).length ≤ sc.timing.maxRetries.toNat + 2 := by
        intro hsyn
        rw [toSend, hsyn, List.nil_append]
        exact (hmore _).trans (Nat.le_succ _)
      cases hip : h.ip with
      | v6 ip => exact hnone (by rw [synContacts, hip])
      | v4 target =>
          cases hscan : scanBlocking target port sc.timing (h.port port).syn with
          | none => exact hnone (by simp only [synContacts, hip, hscan])
          | some run =>
              obtain ⟨-, htwo, hone⟩ := sent_scanBlocking hscan
              have hsyn : (sc.synContacts h port).length = run.sent.length := by
                simp only [synContacts, hip, hscan, List.length_map]
              rw [toSend, List.length_append, hsyn]
              cases hresult : run.result with
              | error e =>
                  have hlen := hone ⟨e, hresult⟩
                  have hrest := hmore (sc.run.afterSyn (sc.plan h) port)
                  omega
              | ok r =>
                  -- a result ends the task
                  have hafter : sc.run.afterSyn (sc.plan h) port = .finished (some r) := by
                    obtain ⟨result, sent⟩ := run
                    obtain rfl : result = .ok r := hresult
                    have hplan : (sc.plan h).ip = .v4 target := hip
                    have htask : scanBlocking target port sc.run.timing
                        ((sc.plan h).task port).syn = some ⟨.ok r, sent⟩ := hscan
                    simp only [CliRun.afterSyn, hplan, htask]
                  rw [hafter]
                  exact htwo.trans (by omega)

theorem length_flatMap_le {α β : Type} {f : α → List β} {n : ℕ} {xs : List α}
    (h : ∀ x ∈ xs, (f x).length ≤ n) : (xs.flatMap f).length ≤ xs.length * n := by
  have hsum : (xs.map fun x => (f x).length).sum ≤ (xs.map fun x => (f x).length).length • n := by
    refine List.sum_le_card_nsmul _ _ fun k hk => ?_
    obtain ⟨x, hx, rfl⟩ := List.mem_map.1 hk
    exact h x hx
  rwa [List.length_map, smul_eq_mul, ← List.length_flatMap] at hsum

theorem length_probes_le (h : HostScript) :
    (sc.probes h).length ≤ sc.ports.length * (sc.timing.maxRetries.toNat + 2) := by
  unfold probes
  split
  · exact Nat.zero_le _
  · exact length_flatMap_le fun port _ => length_toSend_le h port _

theorem length_detection_le (h : HostScript) : (sc.detection h).length ≤ sc.ports.length * 2 := by
  have hone : ∀ r, (sc.detectContacts h r).length ≤ 2 := by
    intro r
    unfold detectContacts
    split_ifs
    · rw [List.length_cons, List.length_map]
      exact Nat.succ_le_succ (length_sent_detect_le _ _)
    · exact Nat.zero_le 2
  cases hskip : sc.run.skips (sc.plan h) with
  | true =>
      rw [detection, CliRun.hostResult, if_pos hskip]
      exact Nat.zero_le _
  | false =>
      rw [detection_eq hskip]
      refine (length_flatMap_le fun r _ => hone r).trans (Nat.mul_le_mul_right 2 ?_)
      rw [(CliRun.sortByPort_spec _).1.length_eq]
      exact List.length_filterMap_le _ _

/-- **How much is sent**: for each host, the pings or one echo request, and for each port the
connection attempts with up to three more contacts. -/
theorem length_sent_le {s : LoopState} {log : List Contact} (h : sc.Sends s log) :
    log.length ≤ sc.hosts.length * (max sc.pingPorts.length 1 +
      sc.ports.length * (sc.timing.maxRetries.toNat + 4)) := by
  obtain ⟨rest, hperm⟩ := exists_perm_of_sends h
  have hhosts : (sc.hosts.flatMap sc.contacts).length ≤ sc.hosts.length *
      (max sc.pingPorts.length 1 + sc.ports.length * (sc.timing.maxRetries.toNat + 4)) := by
    refine length_flatMap_le fun host _ => ?_
    have hdiscovery : (sc.discovery host).length ≤ _ := length_discovery_le host
    have hprobes : (sc.probes host).length ≤ _ := length_probes_le host
    have hdetection : (sc.detection host).length ≤ _ := length_detection_le host
    rw [contacts, List.length_append, List.length_append]
    rw [Nat.mul_add] at hprobes ⊢
    omega
  have hlen := hperm.length_eq
  rw [List.length_append] at hlen
  omega

/-- Two ports with two retries each, and three pings. -/
theorem length_sent_le_sample :
    ∃ s log, sampleScript.Sends s log ∧ s.Finished ∧ log.length ≤ 15 := by
  obtain ⟨s, log, hlog, hfin⟩ := exists_sent_sample
  exact ⟨s, log, hlog, hfin, length_sent_le hlog⟩

/-- How often something is sent, when only some of the senders send it. -/
theorem count_flatMap_le {α : Type} {f : α → List Contact} {p : α → Bool} {c : Contact} {n : ℕ}
    {xs : List α} (hnone : ∀ x ∈ xs, p x = false → (f x).count c = 0)
    (hsome : ∀ x ∈ xs, (f x).count c ≤ n) : (xs.flatMap f).count c ≤ xs.countP p * n := by
  induction xs with
  | nil => exact Nat.zero_le _
  | cons x xs ih =>
      have hrest := ih (fun y hy => hnone y (List.mem_cons_of_mem x hy))
        (fun y hy => hsome y (List.mem_cons_of_mem x hy))
      rw [List.flatMap_cons, List.count_append]
      cases hp : p x with
      | false =>
          rw [hnone x List.mem_cons_self hp, List.countP_cons_of_neg (by simp [hp])]
          omega
      | true =>
          have hfirst := hsome x List.mem_cons_self
          rw [List.countP_cons_of_pos hp, Nat.succ_mul]
          omega

/-- Only the connect scan of a port connects to it in this way. -/
theorem count_connect_toSend (h : HostScript) (port : UInt16) (phase : Phase) (ip : IpAddr)
    (port' : UInt16) :
    (sc.toSend h port phase).count (.connect ip port') ≤ sc.timing.maxRetries.toNat + 1 ∧
      (port ≠ port' → (sc.toSend h port phase).count (.connect ip port') = 0) := by
  have hconnect : (sc.connectContacts h port).count (.connect ip port') ≤
        sc.timing.maxRetries.toNat + 1 ∧
      (port ≠ port' → (sc.connectContacts h port).count (.connect ip port') = 0) := by
    refine ⟨List.count_le_length.trans (List.length_replicate.le.trans (made_le _ _ _)), ?_⟩
    intro hne
    refine List.count_eq_zero.2 fun hmem => hne ?_
    exact (Contact.connect.inj (List.eq_of_mem_replicate hmem)).2.symm
  have hsyn : (sc.synContacts h port).count (.connect ip port') = 0 := by
    refine List.count_eq_zero.2 fun hmem => ?_
    unfold synContacts at hmem
    split at hmem
    · cases hmem
    · split at hmem
      · obtain ⟨packet, -, hpacket⟩ := List.mem_map.1 hmem
        cases hpacket
      · cases hmem
  cases phase with
  | finished result => exact ⟨Nat.zero_le _, fun _ => rfl⟩
  | connect => exact hconnect
  | syn =>
      rw [toSend, List.count_append, hsyn, Nat.zero_add]
      unfold fallbackContacts
      split
      · exact ⟨Nat.zero_le _, fun _ => rfl⟩
      · exact hconnect

theorem count_connect_contacts (hnodup : sc.ports.Nodup) (h : HostScript) (ip : IpAddr)
    (port : UInt16) :
    (sc.contacts h).count (.connect ip port) ≤ sc.timing.maxRetries.toNat + 1 := by
  have hdiscovery : (sc.discovery h).count (.connect ip port) = 0 := by
    refine List.count_eq_zero.2 fun hmem => ?_
    unfold discovery at hmem
    split_ifs at hmem
    · cases hmem
    · obtain ⟨packet, -, hpacket⟩ := List.mem_map.1 hmem
      cases hpacket
    · obtain ⟨p, -, hp⟩ := List.mem_map.1 hmem
      cases hp
  have hdetection : (sc.detection h).count (.connect ip port) = 0 := by
    refine List.count_eq_zero.2 fun hmem => ?_
    obtain ⟨r, -, hr⟩ := List.mem_flatMap.1 hmem
    unfold detectContacts at hr
    split_ifs at hr
    · rcases List.mem_cons.1 hr with hr | hr
      · cases hr
      · obtain ⟨payload, -, hpayload⟩ := List.mem_map.1 hr
        cases hpayload
    · cases hr
  have hprobes : (sc.probes h).count (.connect ip port) ≤ sc.timing.maxRetries.toNat + 1 := by
    unfold probes
    split
    · exact Nat.zero_le _
    · refine (count_flatMap_le (fun x _ hx => ?_) fun x _ => ?_).trans
        ((Nat.mul_le_mul_right _ (List.nodup_iff_count_le_one.1 hnodup port)).trans
          (Nat.one_mul _).le)
      · exact (count_connect_toSend h x _ ip port).2 (by simpa using hx)
      · exact (count_connect_toSend h x _ ip port).1
  rw [contacts, List.count_append, List.count_append, hdiscovery, hdetection]
  omega

/-- **How often a port is connected to**: by the connect scan, as often as there are retries and
once more, for each time the address is asked for. -/
theorem count_connect_le (hnodup : sc.ports.Nodup) {s : LoopState} {log : List Contact}
    (h : sc.Sends s log) (ip : IpAddr) (port : UInt16) :
    log.count (.connect ip port) ≤
      sc.hosts.countP (fun host => host.ip = ip) * (sc.timing.maxRetries.toNat + 1) := by
  obtain ⟨rest, hperm⟩ := exists_perm_of_sends h
  have hcount := hperm.count_eq (Contact.connect ip port)
  rw [List.count_append] at hcount
  have hhosts : (sc.hosts.flatMap sc.contacts).count (.connect ip port) ≤
      sc.hosts.countP (fun host => host.ip = ip) * (sc.timing.maxRetries.toNat + 1) := by
    refine count_flatMap_le (fun host _ hip => ?_) fun host _ => ?_
    · -- a host of another address is not connected to
      refine List.count_eq_zero.2 fun hmem => ?_
      have haddr : ip = host.ip := (permitted_of_contacts hmem).1
      simp [haddr] at hip
    · exact count_connect_contacts hnodup host ip port
  omega

/-- Each port is connected to three times at most. -/
theorem count_connect_le_sample :
    sampleScript.ports.Nodup ∧ ∃ s log, sampleScript.Sends s log ∧ s.Finished ∧
      log.count (.connect (.v4 ⟨192, 168, 0, 1⟩) 80) ≤ 3 := by
  have hnodup : sampleScript.ports.Nodup := by decide
  obtain ⟨s, log, hlog, hfin⟩ := exists_sent_sample
  exact ⟨hnodup, s, log, hlog, hfin, count_connect_le hnodup hlog _ 80⟩

end ScanScript

end Rnmap
