/-
**From the bytes of services to the characters of documents.**

An XML document may hold only the characters of the XML production `Char`.  What is shown of a
service comes from bytes it sent, what is shown of a filtered port from the text of an operating
system error, and everything else is the scanner's own.  So conditions on what comes in from outside
make the document of every run one of XML characters.

Main definitions:

* `Rnmap.XmlBytes` — bytes without the encoding of a forbidden character;
* `Rnmap.ScanScript.SourcesClean` — what comes in from outside is clean.

Main results:

* `Rnmap.xmlClean_decodeLossy` — clean bytes are decoded to clean texts;
* `Rnmap.reason_connectScan` — the reasons of a connect scan;
* `Rnmap.ScanScript.xmlClean_of_sourcesClean` — **clean sources make clean documents**, in every
  state of every run.
-/

import Rnmap.Traffic
import Rnmap.Retries
import Rnmap.XmlOutput

set_option relaxedAutoImplicit false
set_option autoImplicit false

namespace Rnmap

open Runs Text Utf8

/-! ### Bytes -/

/-- Bytes without the encoding of a character that XML forbids: no control byte but tab and the
line ends, and neither U+FFFE nor U+FFFF. -/
structure XmlBytes (bs : Bytes) : Prop where
  controls : ∀ b ∈ bs, 0x20 ≤ b.toNat ∨ b.toNat = 0x9 ∨ b.toNat = 0xA ∨ b.toNat = 0xD
  fffe : ¬ [0xEF, 0xBF, 0xBE] <:+: bs
  ffff : ¬ [0xEF, 0xBF, 0xBF] <:+: bs

/-- The characters that XML forbids. -/
theorem not_isXmlChar_cases {c : Char} (h : ¬ IsXmlChar c) :
    (c.toNat < 0x20 ∧ c.toNat ≠ 0x9 ∧ c.toNat ≠ 0xA ∧ c.toNat ≠ 0xD) ∨
      c = Char.ofNat 0xFFFE ∨ c = Char.ofNat 0xFFFF := by
  have hvalid : c.toNat < 0xD800 ∨ 0xDFFF < c.toNat ∧ c.toNat < 0x110000 := c.valid
  have hcases : (c.toNat < 0x20 ∧ c.toNat ≠ 0x9 ∧ c.toNat ≠ 0xA ∧ c.toNat ≠ 0xD) ∨
      c.toNat = 0xFFFE ∨ c.toNat = 0xFFFF := by
    unfold IsXmlChar at h
    omega
  refine hcases.imp id (Or.imp (fun h => ?_) fun h => ?_)
  · rw [← h, Char.ofNat_toNat]
  · rw [← h, Char.ofNat_toNat]

/-- **Clean bytes are decoded to clean texts.** -/
theorem xmlClean_decodeLossy {bs : Bytes} (h : XmlBytes bs) : XmlClean (decodeLossy bs) := by
  intro c hc
  by_contra hforbidden
  have hne : c ≠ replacement := by
    rintro rfl
    exact hforbidden (by decide)
  have hstands := (decodes bs).isInfix hc hne
  rcases not_isXmlChar_cases hforbidden with ⟨hlow, h9, hA, hD⟩ | rfl | rfl
  · rw [encodeChar_of_ascii (by omega)] at hstands
    have hbyte : c.toNat = (UInt8.ofNat c.toNat).toNat := (ofNat_eq_iff (by omega)).1 rfl
    have hallowed := h.controls _ (hstands.subset List.mem_cons_self)
    omega
  · exact h.fffe hstands
  · exact h.ffff hstands

/-! ### Reasons -/

/-- The reasons of a connect scan: its own, or the text of an error of an attempt. -/
theorem reason_connectScan (port : UInt16) (timing : Timing) (script : ℕ → Attempt)
    (started : Duration) :
    (connectScan port timing script started).result.reason ∈
        ["syn-ack".toList, "conn-refused".toList, "timeout".toList] ∨
      ∃ n e, (script n).outcome = .failed e ∧
        (connectScan port timing script started).result.reason = e.display := by
  rcases firstDecides_or_undecided script timing.maxRetries.toNat with
    ⟨k, hk, st, hfirst⟩ | hundecided
  · left
    rw [connectScan_of_firstDecides hfirst hk]
    cases st with
    | «open» => exact List.mem_cons_self
    | closed => exact List.mem_cons_of_mem _ List.mem_cons_self
    | filtered => exact List.mem_cons_of_mem _ List.mem_cons_self
    | unfiltered => exact List.mem_cons_of_mem _ List.mem_cons_self
  · obtain ⟨s, hlast, -, hrun⟩ := connectScan_of_undecided hundecided
    have hreason : (connectScan port timing script started).result.reason =
        s.lastErr.getD "no-response".toList := by
      rw [hrun]
      rfl
    rw [hreason, hlast, Attempt.errText]
    have hnone := hundecided _ le_rfl
    rw [Attempt.decides] at hnone
    cases hout : (script timing.maxRetries.toNat).outcome with
    | connected =>
        rw [hout] at hnone
        cases hnone
    | elapsed => exact .inl (by decide)
    | failed e => exact .inr ⟨_, e, hout, rfl⟩

/-- The reasons of a SYN scan. -/
theorem reason_scanBlocking {target : Ipv4Addr} {port : UInt16} {timing : Timing} {env : SynEnv}
    {run : SynRun} {r : PortResult} (h : scanBlocking target port timing env = some run)
    (hr : run.result = .ok r) :
    r.reason ∈ ["syn-ack".toList, "rst".toList, "no-response".toList] := by
  rcases scanBlocking_cases h with ⟨e, rfl⟩ | ⟨p, seq, loop, rfl, rfl, rfl, hloop⟩
  · cases hr
  · rcases hloop with rfl | ⟨e, rfl⟩ | ⟨v, time, rfl⟩
    · obtain rfl := Except.ok.inj hr
      exact List.mem_cons_of_mem _ (List.mem_cons_of_mem _ List.mem_cons_self)
    · cases hr
    · obtain rfl := Except.ok.inj hr
      cases v with
      | «open» ack => exact List.mem_cons_self
      | closed => exact List.mem_cons_of_mem _ List.mem_cons_self

/-! ### Documents -/

namespace ScanScript

variable {sc : ScanScript}

variable (sc) in
/-- **What comes in from outside is clean**: the arguments, the names of the hosts, the texts of the
errors of connection attempts, and the bytes that services send. -/
structure SourcesClean (args : List Text) : Prop where
  args : ∀ s ∈ args, XmlClean s
  hostname : ∀ h ∈ sc.hosts, ∀ s, h.hostname = some s → XmlClean s
  errors : ∀ h ∈ sc.hosts, ∀ port ∈ sc.ports, ∀ n e,
    ((h.port port).attempts n).outcome = .failed e → XmlClean e.display
  streams : sc.sV = true → ∀ h ∈ sc.hosts, ∀ port ∈ sc.ports,
    (h.port port).detect.connect = .connected → XmlBytes (heard port (h.port port).detect).bytes

/-- The reason of a host is the scanner's own. -/
theorem xmlClean_discover (h : HostScript) : XmlClean (sc.run.discover (sc.plan h)).2 := by
  have htcp : XmlClean (tcpPing (h.pings sc.pingPorts)).reason := by
    rw [tcpPing, tcpPingLoop_eq]
    split
    · exact xmlClean_append.2 ⟨by decide, xmlClean_decimal _⟩
    · split
      · exact (by decide : XmlClean "tcp-rst".toList)
      · exact (by decide : XmlClean "no-response".toList)
  have hicmp : ∀ o, icmpPing h.ip h.icmp.env h.icmp.joinError h.icmp.elapsed = .ok o →
      XmlClean o.reason := by
    intro o ho
    unfold icmpPing at ho
    split at ho
    · cases ho
    · split at ho
      · cases ho
      · cases ho
      · obtain rfl := Except.ok.inj ho
        exact (by decide : XmlClean "icmp-echo-reply".toList)
      · obtain rfl := Except.ok.inj ho
        exact (by decide : XmlClean "no-icmp-reply".toList)
  unfold CliRun.discover
  split
  · exact (by decide : XmlClean "skipped".toList)
  · split
    · split
      · rename_i o ho
        exact hicmp o ho
      · exact (by decide : XmlClean "icmp-error".toList)
    · exact htcp

/-- The reason of a port is the scanner's own or the text of an error. -/
theorem xmlClean_reason {args : List Text} (hclean : sc.SourcesClean args) {h : HostScript}
    (hh : h ∈ sc.hosts) {port : UInt16} (hport : port ∈ sc.ports) {r : PortResult}
    (hr : sc.run.probeResult (sc.plan h) port = some r) : XmlClean r.reason := by
  rw [CliRun.probeResult_eq] at hr
  rcases Option.or_eq_some_iff.1 hr with hsyn | ⟨-, hconnect⟩
  · unfold CliRun.synResult at hsyn
    split at hsyn
    · split at hsyn
      · rename_i hscan
        obtain rfl := Option.some.inj hsyn
        exact (by decide : ∀ s ∈ ["syn-ack".toList, "rst".toList, "no-response".toList], XmlClean s)
          _ (reason_scanBlocking hscan rfl)
      · cases hsyn
    · cases hsyn
  · obtain ⟨⟨started, script⟩, htask, rfl⟩ := Option.map_eq_some_iff.1 hconnect
    have hscript : (h.port port).attempts = script := by
      change (if (h.port port).survives port sc.timing then
        some ((h.port port).started, (h.port port).attempts) else none) = some (started, script)
        at htask
      split_ifs at htask
      exact (Prod.mk.inj (Option.some.inj htask)).2
    rcases reason_connectScan port sc.run.timing script started with hown | ⟨n, e, hfailed, hreason⟩
    · exact (by decide : ∀ s ∈ ["syn-ack".toList, "conn-refused".toList, "timeout".toList],
        XmlClean s) _ hown
    · rw [hreason]
      exact hclean.errors h hh port hport n e (hscript ▸ hfailed)

/-- The service of a port is one of bytes it sent. -/
theorem serviceClean_detectOn {args : List Text} (hclean : sc.SourcesClean args) {h : HostScript}
    (hh : h ∈ sc.hosts) {r : PortResult} (hport : r.port ∈ sc.ports) (hnone : r.service = none)
    {svc : ServiceInfo} (hsvc : (sc.run.detectOn (sc.plan h) r).service = some svc) :
    ServiceClean svc := by
  rw [detectOn_plan] at hsvc
  split_ifs at hsvc with hdetect
  · obtain ⟨hconnect, rfl⟩ := service_detect_eq_some_iff.1 hsvc
    exact serviceClean_of_banner _
      (xmlClean_decodeLossy (hclean.streams hdetect.1 h hh r.port hport hconnect))
  · rw [hnone] at hsvc
    cases hsvc

theorem hostClean_hostResult {args : List Text} (hclean : sc.SourcesClean args) (onlyOpen : Bool)
    {h : HostScript} (hh : h ∈ sc.hosts) : HostClean onlyOpen (sc.run.hostResult (sc.plan h)) := by
  obtain ⟨hreason, hname⟩ : XmlClean (sc.run.hostResult (sc.plan h)).reason ∧
      (sc.run.hostResult (sc.plan h)).hostname = h.hostname := by
    unfold CliRun.hostResult
    split_ifs
    · exact ⟨xmlClean_discover h, rfl⟩
    · exact ⟨xmlClean_discover h, rfl⟩
  refine ⟨hreason, hname ▸ hclean.hostname h hh, fun p hp => ?_⟩
  obtain ⟨r, hport, hres, rfl⟩ := CliRun.exists_probed (List.mem_filter.1 hp).1
  have hprobe := CliRun.isProbeOf_of_probeResult hres
  rw [CliRun.port_detectOn] at hport hres hprobe
  have hkept : (sc.run.detectOn (sc.plan h) r).reason = r.reason := by
    rw [detectOn_plan]
    split_ifs
    · rfl
    · rfl
  exact ⟨hkept ▸ xmlClean_reason hclean hh hport hres,
    fun svc hsvc => serviceClean_detectOn hclean hh hport hprobe.service hsvc⟩

/-- **Clean sources make clean documents**, in every state of every run. -/
theorem xmlClean_of_sourcesClean {args : List Text} (hclean : sc.SourcesClean args)
    {s : LoopState} (h : sc.run.LoopReachable s) (fmt : Formats) (startedAt endedAt : DateTime)
    (elapsed : Duration) (onlyOpen : Bool) :
    XmlClean (renderXml fmt (CliRun.report args startedAt endedAt elapsed s) onlyOpen) := by
  obtain ⟨past, hpast, hhosts⟩ := (CliRun.loopInv_of_reachable h).reported
  have hscanner : XmlClean "rnmap".toList := by decide
  have hversion : XmlClean "0.1.0".toList := by decide
  refine (xmlClean_renderXml fmt _ onlyOpen).2 ⟨hscanner, hversion, hclean.args, ?_⟩
  intro host hhost
  change host ∈ s.hosts at hhost
  rw [hhosts] at hhost
  obtain ⟨plan, hplan, rfl⟩ := List.mem_map.1 hhost
  have hmem : plan ∈ sc.hosts.map sc.plan := by
    change plan ∈ sc.run.hosts
    rw [hpast]
    exact List.mem_append_left _ hplan
  obtain ⟨script, hscript, rfl⟩ := List.mem_map.1 hmem
  exact hostClean_hostResult hclean onlyOpen hscript

/-- The document of a scan of SSH and HTTP, at its end. -/
theorem xmlClean_of_sourcesClean_sample :
    ∃ s, sampleScript.run.LoopReachable s ∧ s.Finished ∧
      sampleScript.SourcesClean ["rnmap".toList, "-sV".toList] ∧
      XmlClean (renderXml epochFormats
        (CliRun.report ["rnmap".toList, "-sV".toList] ⟨0, 0⟩ ⟨1, 0⟩ (fromSecs 1) s) false) := by
  have hclean : sampleScript.SourcesClean ["rnmap".toList, "-sV".toList] := by
    refine ⟨by decide, ?_, ?_, ?_⟩
    · intro h hh s hs
      obtain rfl := List.mem_singleton.1 hh
      cases hs
    · intro h hh port _ n e he
      obtain rfl := List.mem_singleton.1 hh
      dsimp only at he
      split_ifs at he
    · intro _ h hh port hport _
      obtain rfl := List.mem_singleton.1 hh
      rcases List.mem_cons.1 hport with rfl | hport
      · exact ⟨by decide +kernel, by decide +kernel, by decide +kernel⟩
      · obtain rfl := List.mem_singleton.1 hport
        exact ⟨by decide +kernel, by decide +kernel, by decide +kernel⟩
  obtain ⟨s, hs, hfin⟩ := exists_finished_sample
  exact ⟨s, hs, hfin, hclean, xmlClean_of_sourcesClean hclean hs _ _ _ _ _⟩

end ScanScript

end Rnmap
