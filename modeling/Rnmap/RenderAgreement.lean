/-
**The three renderers show the same.**

Each renderer has a filter of its own: the normal report shows no ports of a host that is not up
and no version without a product, the XML report skips ports as it writes them, and the JSON report
drops them from a copy.  On a report that some run builds the filters make no difference, because a
host that is not up has no ports and no version is guessed without a product.

Main definitions:

* `Rnmap.Entry`, `Rnmap.HostView` — what is shown of a port and of a host;
* `Rnmap.normalView`, `Rnmap.xmlViews`, `Rnmap.jsonViews` — what each renderer shows;
* `Rnmap.reportViews`, `Rnmap.countShown` — what all of them should show, and count;
* `Rnmap.ShowsView` — a section of the normal report that shows a view;
* `Rnmap.CliRun.Builds` — the reports of runs.

Main results:

* `Rnmap.showsView_normalView` — the normal report is written from the views;
* `Rnmap.CliRun.plainlyShown_of_builds` — what holds of the hosts of every run;
* `Rnmap.CliRun.renderers_agree` — **the three renderers show the same**.
-/

import Rnmap.JsonOutput
import Rnmap.NormalDocument

set_option relaxedAutoImplicit false
set_option autoImplicit false

namespace Rnmap

open Text Xml Layout

/-! ### Views -/

/-- A port of a host, as it is shown. -/
structure Entry where
  address : IpAddr
  port : UInt16
  protocol : Protocol
  state : PortState
  service : Option ServiceFacts

/-- A host, as it is shown. -/
structure HostView where
  address : IpAddr
  state : HostState
  entries : List Entry

/-- The view of what is said of a host. -/
def HostFacts.view (f : HostFacts) : HostView :=
  ⟨f.address, f.state, f.ports.map fun p => ⟨f.address, p.port, p.protocol, p.state, p.service⟩⟩

/-- What should be shown: every host, with all of its ports or with the open ones. -/
def reportViews (r : ScanReport) (onlyOpen : Bool) : List HostView :=
  r.hosts.map fun h => (h.facts (h.ports.filter fun p => !onlyOpen || p.state = .open)).view

/-- The entry a row shows; a version without a product is not shown. -/
def rowEntry (address : IpAddr) (p : PortResult) : Entry :=
  ⟨address, p.port, p.protocol, p.state,
    p.service.map fun svc => ⟨svc.name, svc.product, svc.product.bind fun _ => svc.version⟩⟩

/-- What the normal report shows of a host. -/
def normalView (onlyOpen : Bool) (h : HostResult) : HostView :=
  ⟨h.address, h.state,
    if h.state = .up then (shownPorts onlyOpen h).map (rowEntry h.address) else []⟩

/-- What the XML report shows. -/
def xmlViews (fmt : Formats) (r : ScanReport) (onlyOpen : Bool) : Option (List HostView) :=
  (readHosts (reportElement fmt r onlyOpen)).map fun hosts => hosts.map HostFacts.view

/-- What the JSON report shows. -/
def jsonViews (serde : Serde) (r : ScanReport) (onlyOpen : Bool) : Option (List HostView) :=
  (readJson (reportJson serde (jsonCopy r onlyOpen))).map fun hosts => hosts.map HostFacts.view

/-! ### The normal report is written from the views -/

/-- The product and the version in a row. -/
def ServiceFacts.detail (svc : ServiceFacts) : Text :=
  match svc.product, svc.version with
  | some prod, some v => prod ++ " ".toList ++ v
  | some prod, none => prod
  | none, _ => []

/-- The row of an entry. -/
def entryRow (e : Entry) : Text :=
  padRight 10 (decimal e.port.toNat ++ "/".toList ++ e.protocol.display) ++
    padRight 13 e.state.display ++
    padRight 16 ((e.service.map ServiceFacts.name).getD "-".toList) ++
    (e.service.map ServiceFacts.detail).getD []

/-- The table of a view. -/
def viewTable (onlyOpen : Bool) (v : HostView) : Text :=
  if v.state ≠ .up then []
  else if v.entries.isEmpty then
    line ("(no ports ".toList ++ (if onlyOpen then "open".toList else "scanned".toList) ++
      ")".toList)
  else
    line "PORT      STATE        SERVICE         VERSION".toList ++
      v.entries.flatMap fun e => line (entryRow e)

/-- **A section that shows a view**: it names the address, behind a host name if there is one, then
the state with a reason, and then has the table. -/
def ShowsView (onlyOpen : Bool) (v : HostView) (s : Text) : Prop :=
  ∃ name reason : Text,
    (name = v.address.display ∨
      ∃ hostname, name = hostname ++ " (".toList ++ v.address.display ++ ")".toList) ∧
    s = line ("rnmap scan report for ".toList ++ name) ++
      line ("Host is ".toList ++ v.state.word ++ " (".toList ++ reason ++ ")".toList) ++
      viewTable onlyOpen v ++ line []

/-- A row as it is read back: it has the product and the version in one column. -/
def Entry.row (e : Entry) : NormalRow :=
  ⟨e.port, e.protocol, e.state, e.service.map ServiceFacts.name,
    (e.service.map ServiceFacts.detail).getD []⟩

/-- A section as it is read back says what a view says. -/
structure NormalHost.Says (h : NormalHost) (v : HostView) : Prop where
  address : h.address = v.address
  state : h.state = v.state
  rows : h.rows = v.entries.map Entry.row

/-- The entry of a port names its service. -/
theorem name_rowEntry (address : IpAddr) (p : PortResult) :
    (rowEntry address p).service.map ServiceFacts.name = p.service.map ServiceInfo.name := by
  rw [rowEntry, Option.map_map]
  rfl

/-- The entry of a port has the product and the version that stand in its row. -/
theorem detail_rowEntry (address : IpAddr) (p : PortResult) :
    ((rowEntry address p).service.map ServiceFacts.detail).getD [] = versionColumn p := by
  unfold rowEntry versionColumn
  cases p.service with
  | none => rfl
  | some svc =>
      obtain ⟨name, product, version, banner⟩ := svc
      cases product with
      | none => rfl
      | some prod =>
          cases version with
          | none => rfl
          | some v => rfl

/-- The row of a port is the row of its entry. -/
theorem entryRow_rowEntry (address : IpAddr) (p : PortResult) :
    entryRow (rowEntry address p) = portRow p := by
  have hname : (p.service.map ServiceInfo.name).getD "-".toList = serviceColumn p := by
    unfold serviceColumn
    cases p.service with
    | none => rfl
    | some svc => rfl
  rw [entryRow, name_rowEntry, detail_rowEntry, hname]
  rfl

/-- **The normal report is written from the views**: behind the lines that name a host and its
state stands the table of its view. -/
theorem showsView_normalView (onlyOpen : Bool) (h : HostResult) :
    ShowsView onlyOpen (normalView onlyOpen h) (hostSection onlyOpen h) := by
  refine ⟨hostDisplay h, h.reason, ?_, ?_⟩
  · unfold hostDisplay
    cases h.hostname with
    | none => exact .inl rfl
    | some name => exact .inr ⟨name, rfl⟩
  · unfold hostSection hostHead viewTable normalView
    by_cases hup : h.state = .up
    · have hrows : ((shownPorts onlyOpen h).map (rowEntry h.address)).flatMap
          (fun e => line (entryRow e)) = tableRows (shownPorts onlyOpen h) := by
        simp only [List.flatMap_map, entryRow_rowEntry, tableRows]
      simp only [hup, if_true, ne_eq, not_true_eq_false, if_false, List.isEmpty_map, hrows]
      rfl
    · simp only [ne_eq, hup, not_false_eq_true, if_true]

/-- What is read back of a section says what its view says. -/
theorem says_normalView (onlyOpen : Bool) (h : HostResult) :
    (h.normalHost onlyOpen).Says (normalView onlyOpen h) := by
  have hrow : ∀ p : PortResult, (rowEntry h.address p).row = p.normalRow := by
    intro p
    rw [Entry.row, name_rowEntry, detail_rowEntry]
    rfl
  refine ⟨rfl, rfl, ?_⟩
  unfold HostResult.normalHost normalView
  dsimp only
  split_ifs
  · rw [List.map_map]
    exact List.map_congr_left fun p _ => (hrow p).symm
  · rfl

/-! ### What holds of the hosts of every run -/

/-- A host of which the normal report shows everything. -/
structure PlainlyShown (h : HostResult) : Prop where
  ports : h.state ≠ .up → h.ports = []
  version : ∀ p ∈ h.ports, ∀ svc, p.service = some svc → svc.product = none → svc.version = none

namespace CliRun

variable {run : CliRun}

variable (run) in
/-- The reports a run can build at its end. -/
def Builds (r : ScanReport) : Prop :=
  ∃ s args startedAt endedAt elapsed, run.LoopReachable s ∧ s.Finished ∧
    r = report args startedAt endedAt elapsed s

theorem plainlyShown_hostResult (plan : HostPlan) : PlainlyShown (run.hostResult plan) := by
  refine ⟨fun hdown => ?_, fun p hp svc hsvc hproduct => ?_⟩
  · cases hskip : run.skips plan with
    | true =>
        rw [hostResult, hskip]
        rfl
    | false =>
        -- a host that is scanned is reported as up
        rw [hostResult, hskip] at hdown
        exact absurd rfl hdown
  · obtain ⟨banner, rfl⟩ := service_hostResult hp hsvc
    exact version_serviceInfo hproduct

theorem plainlyShown_of_builds {r : ScanReport} (h : run.Builds r) :
    ∀ host ∈ r.hosts, PlainlyShown host := by
  obtain ⟨s, args, startedAt, endedAt, elapsed, hs, hfin, rfl⟩ := h
  intro host hhost
  change host ∈ s.hosts at hhost
  rw [hosts_of_finished hs hfin] at hhost
  obtain ⟨plan, -, rfl⟩ := List.mem_map.1 hhost
  exact plainlyShown_hostResult plan

end CliRun

/-! ### The filters agree -/

theorem shownPorts_eq (onlyOpen : Bool) (h : HostResult) :
    shownPorts onlyOpen h = h.ports.filter fun p => !onlyOpen || p.state = .open := by
  cases onlyOpen <;> simp [shownPorts]

/-- The row of a port shows its facts, when its version comes with a product. -/
theorem rowEntry_eq {address : IpAddr} {p : PortResult}
    (h : ∀ svc, p.service = some svc → svc.product = none → svc.version = none) :
    rowEntry address p = ⟨address, p.port, p.protocol, p.state, p.facts.service⟩ := by
  unfold rowEntry PortResult.facts
  cases hsvc : p.service with
  | none => rfl
  | some svc =>
      have hversion := h svc hsvc
      obtain ⟨name, product, version, banner⟩ := svc
      cases product with
      | none =>
          obtain rfl := hversion rfl
          rfl
      | some prod => rfl

theorem normalView_eq {onlyOpen : Bool} {h : HostResult} (hshown : PlainlyShown h) :
    normalView onlyOpen h =
      (h.facts (h.ports.filter fun p => !onlyOpen || p.state = .open)).view := by
  have hentries : (h.ports.filter fun p => !onlyOpen || p.state = .open).map (rowEntry h.address) =
      (h.facts (h.ports.filter fun p => !onlyOpen || p.state = .open)).view.entries := by
    rw [HostResult.facts, HostFacts.view, List.map_map]
    refine List.map_congr_left fun p hp => ?_
    exact rowEntry_eq (hshown.version p (List.mem_filter.1 hp).1)
  rw [normalView, shownPorts_eq, hentries]
  split_ifs with hup
  · rfl
  · rw [hshown.ports hup]
    rfl

theorem xmlViews_eq (fmt : Formats) (r : ScanReport) (onlyOpen : Bool) :
    xmlViews fmt r onlyOpen = some (reportViews r onlyOpen) := by
  simp only [xmlViews, readHosts_reportElement, Option.map_some, List.map_map]
  rfl

theorem jsonViews_eq (serde : Serde) (r : ScanReport) (onlyOpen : Bool) :
    jsonViews serde r onlyOpen = some (reportViews r onlyOpen) := by
  rw [jsonViews, readJson_reportJson, Option.map_some, List.map_map, reportViews, jsonCopy]
  cases onlyOpen with
  | true =>
      simp only [if_true, List.map_map, Bool.not_true, Bool.false_or]
      rfl
  | false =>
      simp only [Bool.not_false, Bool.true_or, List.filter_true]
      rfl

/-! ### The summary -/

theorem upCount_eq (r : ScanReport) (onlyOpen : Bool) :
    r.upCount = ((reportViews r onlyOpen).filter fun v => v.state = .up).length := by
  rw [reportViews, List.filter_map, List.length_map]
  rfl

/-- The open entries of a view are the open ports of the host. -/
theorem length_open_view (h : HostResult) (onlyOpen : Bool) :
    ((h.facts (h.ports.filter fun p => !onlyOpen || p.state = .open)).view.entries.filter
      fun e => e.state = .open).length = (h.ports.filter fun p => p.state = .open).length := by
  rw [HostResult.facts, HostFacts.view, List.map_map, List.filter_map, List.length_map,
    List.filter_filter]
  congr 1
  refine List.filter_congr fun p _ => ?_
  change (decide (p.state = .open) && (!onlyOpen || decide (p.state = .open))) = _
  cases decide (p.state = PortState.open) <;> simp

theorem openPortCount_eq (r : ScanReport) (onlyOpen : Bool) :
    r.openPortCount = (((reportViews r onlyOpen).flatMap HostView.entries).filter
      fun e => e.state = .open).length := by
  unfold ScanReport.openPortCount reportViews
  induction r.hosts with
  | nil => rfl
  | cons h hosts ih =>
      rw [List.flatMap_cons, List.filter_append, List.length_append, ih, List.map_cons,
        List.flatMap_cons, List.filter_append, List.length_append, length_open_view]

/-! ### The renderers agree -/

/-- What the views show: so many hosts, so many of them up, and so many open entries. -/
def countShown (views : List HostView) : Summary :=
  ⟨views.length, (views.filter fun v => v.state = .up).length,
    ((views.flatMap HostView.entries).filter fun e => e.state = .open).length⟩

/-- **What it means that the renderers agree**: what each shows are the views of the report.

The text of the normal report is its header, a section that shows each view, and a last line; its
rows are written from the entries, it is read back as the views when its texts have no line feeds,
and the summary in its last line, whatever its texts are, counts what the views show.  The text of
the XML report writes a document that is read as the views and counts the hosts that are up, and
that of the JSON report is what the serialiser makes of a value that is read as the views. -/
structure RenderersAgree (fmt : Formats) (serde : Serde) (r : ScanReport) (onlyOpen : Bool) :
    Prop where
  normal_text : ∃ sections last,
    List.Forall₂ (ShowsView onlyOpen) (reportViews r onlyOpen) sections ∧ '\n' ∉ last ∧
    renderNormal fmt r onlyOpen =
      line ("# ".toList ++ r.scanner ++ " ".toList ++ r.version ++ " scan initiated ".toList ++
        fmt.utc r.startedAt) ++ line ("# args: ".toList ++ [' '].intercalate r.args) ++ line [] ++
      sections.flatten ++ line last
  normal : r.hosts.map (normalView onlyOpen) = reportViews r onlyOpen
  normal_read : OneLine r → ∃ hosts, readNormal (renderNormal fmt r onlyOpen) = some hosts ∧
    List.Forall₂ NormalHost.Says hosts (reportViews r onlyOpen)
  normal_summary : readSummary (renderNormal fmt r onlyOpen) =
    some (countShown (reportViews r onlyOpen))
  xml_text : ∃ body, renderXml fmt r onlyOpen = declaration ++ body ∧
    Writes body [reportElement fmt r onlyOpen]
  xml : xmlViews fmt r onlyOpen = some (reportViews r onlyOpen)
  xml_summary : readRunstats (reportElement fmt r onlyOpen) =
    some ((countShown (reportViews r onlyOpen)).up, (countShown (reportViews r onlyOpen)).hosts)
  json_text : ∀ s, serde.toStringPretty (reportJson serde (jsonCopy r onlyOpen)) = .ok s →
    renderJson serde r onlyOpen = s
  json : jsonViews serde r onlyOpen = some (reportViews r onlyOpen)

/-- The counts of a report are those of what is shown, with all ports or the open ones. -/
theorem countShown_reportViews (r : ScanReport) (onlyOpen : Bool) :
    countShown (reportViews r onlyOpen) = ⟨r.hostCount, r.upCount, r.openPortCount⟩ := by
  have hhosts : (reportViews r onlyOpen).length = r.hostCount := List.length_map _
  rw [countShown, hhosts, ← upCount_eq, ← openPortCount_eq]

namespace CliRun

/-- A report of a run has services of banners only. -/
theorem fromBanners_of_builds {run : CliRun} {r : ScanReport} (h : run.Builds r) :
    FromBanners r := by
  obtain ⟨s, args, startedAt, endedAt, elapsed, hs, -, rfl⟩ := h
  exact fromBanners_report hs args startedAt endedAt elapsed

/-- **The three renderers show the same** of every report some run can build. -/
theorem renderers_agree {run : CliRun} {r : ScanReport} (h : run.Builds r) (fmt : Formats)
    (serde : Serde) (onlyOpen : Bool) : RenderersAgree fmt serde r onlyOpen := by
  have hviews : r.hosts.map (normalView onlyOpen) = reportViews r onlyOpen :=
    List.map_congr_left fun host hhost => normalView_eq (plainlyShown_of_builds h host hhost)
  refine ⟨?_, hviews, fun hline => ?_, ?_, writes_renderXml fmt r onlyOpen,
    xmlViews_eq fmt r onlyOpen, ?_, fun s hs => ?_, jsonViews_eq serde r onlyOpen⟩
  · refine ⟨r.hosts.map (hostSection onlyOpen), footerLine fmt r, ?_,
      lf_notMem_footerLine fmt r, ?_⟩
    · rw [← hviews, List.forall₂_map_left_iff, List.forall₂_map_right_iff, List.forall₂_same]
      exact fun host _ => showsView_normalView onlyOpen host
    · rw [← List.flatMap_def]
      rfl
  · refine ⟨_, readNormal_renderNormal (fromBanners_of_builds h) hline fmt onlyOpen, ?_⟩
    rw [← hviews, List.forall₂_map_left_iff, List.forall₂_map_right_iff, List.forall₂_same]
    exact fun host _ => says_normalView onlyOpen host
  · rw [readSummary_renderNormal, countShown_reportViews]
  · rw [readRunstats_reportElement, countShown_reportViews]
  · rw [renderJson, hs]

/-- A report of the host and the two ports of a run. -/
theorem renderers_agree_sample :
    ∃ r, sampleRun.Builds r ∧ r.hosts = sampleRun.hosts.map sampleRun.hostResult ∧
      ∀ (fmt : Formats) (serde : Serde), RenderersAgree fmt serde r true := by
  have hstart : sampleRun.LoopReachable sampleRun.start := Runs.Reachable.init
  obtain ⟨t, ht, hfin⟩ := exists_finished_of_reachable hstart
  have hbuilds : sampleRun.Builds (report [] ⟨0, 0⟩ ⟨1, 0⟩ 0 t) :=
    ⟨t, [], ⟨0, 0⟩, ⟨1, 0⟩, 0, ht, hfin, rfl⟩
  exact ⟨_, hbuilds, hosts_of_finished ht hfin, fun fmt serde =>
    renderers_agree hbuilds fmt serde true⟩

end CliRun

end Rnmap
