/-
**The formats of a report.**

A call prints the normal report and writes the reports it is asked for, each in one of three
formats; a path may be named more than once, and then the last of its writers has it.  Every format
has a reader of its own.  What the readers get back from whatever a call leaves behind are views of
one report, that of its results without the ports that are not to be shown.

Main definitions:

* `Rnmap.OutputFormat`, `Rnmap.render` — the formats, and a report in one of them;
* `Rnmap.Cli.outputs` — the files of a call with their formats, in the order they are written;
* `Rnmap.OutputFormat.Keeps`, `Rnmap.OutputFormat.Says` — the reports a format keeps, and what its
  reader gets back from a text.

Main results:

* `Rnmap.Prepared.writes_eq` — what is written are the rendered outputs;
* `Rnmap.OutputFormat.says_render` — a format that keeps a report says it;
* `Rnmap.World.files_say_the_same` — **all that a call leaves behind says the same**.
-/

import Rnmap.CommandLine
import Rnmap.JsonDocument
import Rnmap.NormalDocument

set_option relaxedAutoImplicit false
set_option autoImplicit false

namespace Rnmap

open Runs Xml

/-! ### Formats -/

/-- `OutputFormat`. -/
inductive OutputFormat
  | normal
  | xml
  | json

/-- `output::render`. -/
def render (fmt : Formats) (serde : Serde) (r : ScanReport) (format : OutputFormat)
    (onlyOpen : Bool) : Text :=
  match format with
  | .normal => renderNormal fmt r onlyOpen
  | .xml => renderXml fmt r onlyOpen
  | .json => renderJson serde r onlyOpen

/-- The files a call writes, with their formats, in their order. -/
def Cli.outputs (cli : Cli) : List (Text × OutputFormat) :=
  (cli.oA.elim [] fun path =>
      [(UnixPath.withExtension path "nmap".toList, .normal),
        (UnixPath.withExtension path "xml".toList, .xml),
        (UnixPath.withExtension path "json".toList, .json)]) ++
    (cli.oN.map fun path => (path, .normal)).toList ++
    (cli.oX.map fun path => (path, .xml)).toList ++
    (cli.oJ.map fun path => (path, .json)).toList

/-- **What is written are the rendered outputs.** -/
theorem Prepared.writes_eq (w : World) (p : Prepared) (hosts : List HostResult) :
    p.writes w hosts = p.cli.outputs.map fun output =>
      (output.1, render w.fmt w.serde (w.report hosts) output.2 p.cli.open) := by
  simp only [writes, Cli.outputs, List.map_append]
  congr 1
  · congr 1
    · congr 1
      · cases p.cli.oA with
        | none => rfl
        | some path => rfl
      · cases p.cli.oN with
        | none => rfl
        | some path => rfl
    · cases p.cli.oX with
      | none => rfl
      | some path => rfl
  · cases p.cli.oJ with
    | none => rfl
    | some path => rfl

/-! ### What a text says -/

namespace OutputFormat

variable (json : JsonFormats)

/-- The reports a format keeps: those whose texts stay on their lines, whose texts are made of
characters that XML has, or whose numbers and time stamps survive. -/
def Keeps (onlyOpen : Bool) (r : ScanReport) : OutputFormat → Prop
  | .normal => OneLine r
  | .xml => ∀ s ∈ reportTexts onlyOpen r, XmlPlain s
  | .json => json.Exact r

/-- The reader of a format gets back from a text what the format says of this report. -/
def Says (r : ScanReport) (text : Text) : OutputFormat → Prop
  | .normal => readNormal text = some (r.hosts.map (HostResult.normalHost false))
  | .xml => (readReport text).bind readHosts = some (r.hosts.map fun h => h.facts h.ports)
  | .json => json.readBack text = some (pure r)

variable {json}

/-- The normal report shows all that is left in a copy without the ports not to be shown. -/
theorem normalHost_jsonCopy (r : ScanReport) (onlyOpen : Bool) :
    (jsonCopy r onlyOpen).hosts.map (HostResult.normalHost false) =
      r.hosts.map (HostResult.normalHost onlyOpen) := by
  cases onlyOpen with
  | false => rfl
  | true =>
      unfold jsonCopy
      rw [if_pos rfl, List.map_map]
      rfl

/-- So does the XML report. -/
theorem facts_jsonCopy (r : ScanReport) (onlyOpen : Bool) :
    (jsonCopy r onlyOpen).hosts.map (fun h => h.facts h.ports) =
      r.hosts.map fun h => h.facts (h.ports.filter fun p => !onlyOpen || p.state = .open) := by
  unfold jsonCopy
  cases onlyOpen with
  | false => simp
  | true => simp [HostResult.facts, Function.comp_def]

/-- **A format that keeps a report says it**, of the ports that are to be shown. -/
theorem says_render (fmt : Formats) {r : ScanReport} (hr : FromBanners r) {onlyOpen : Bool}
    {format : OutputFormat} (h : format.Keeps json onlyOpen r) :
    format.Says json (jsonCopy r onlyOpen) (render fmt json.serde r format onlyOpen) := by
  cases format with
  | normal =>
      change readNormal _ = _
      rw [normalHost_jsonCopy, render, readNormal_renderNormal hr h]
  | xml =>
      change Option.bind _ _ = _
      rw [facts_jsonCopy, render, readHosts_renderXml fmt h]
  | json => exact JsonFormats.readBack_toStringPretty (JsonFormats.Exact.jsonCopy h onlyOpen) rfl

end OutputFormat

/-! ### What a call leaves behind -/

namespace World

variable {w : World}

variable (w) in
/-- The report of a call, without the ports that are not to be shown. -/
def shownReport (p : Prepared) : ScanReport := jsonCopy (w.report (w.results p)) p.cli.open

/-- The services of a call come from banners. -/
theorem fromBanners_report (p : Prepared) : FromBanners (w.report (w.results p)) := by
  intro h hh port hport svc hsvc
  obtain ⟨plan, -, rfl⟩ := List.mem_map.1 hh
  exact CliRun.service_hostResult hport hsvc

/-- The hosts of a call are reported at their addresses and under their names. -/
theorem hosts_shownReport (p : Prepared) :
    ((w.shownReport p).hosts.map fun h => (h.address, h.hostname)) =
      p.targets.addrs.map fun r => (r.ip, hostnameFor w.lookupAddr r.label r.ip) := by
  have hcopy : ((w.shownReport p).hosts.map fun h => (h.address, h.hostname)) =
      (w.results p).map fun h => (h.address, h.hostname) := by
    unfold shownReport jsonCopy
    split_ifs
    · simp [report, Function.comp_def]
    · rfl
  rw [hcopy, results, ScanScript.run, Prepared.script, List.map_map, List.map_map]
  refine List.ext_getElem (by simp) fun i _ _ => ?_
  simp [address_hostResult, hostname_hostResult, ScanScript.plan]

theorem wanted_eq (p : Prepared) :
    w.wanted p = p.cli.outputs.map fun output =>
      (w.file output.1, render w.fmt w.serde (w.report (w.results p)) output.2 p.cli.open) := by
  rw [wanted, Prepared.writes_eq, List.map_map]
  rfl

/-- A file has what the last of its writers writes. -/
theorem last_wanted {p : Prepared} {before after : List (Text × OutputFormat)} {path : Text}
    {format : OutputFormat} (houtputs : p.cli.outputs = before ++ (path, format) :: after)
    (hlast : ∀ output ∈ after, w.file output.1 ≠ w.file path) :
    Writes.last (w.wanted p) (w.file path) =
      some (render w.fmt w.serde (w.report (w.results p)) format p.cli.open) := by
  have hnone : Writes.last (after.map fun output => (w.file output.1,
      render w.fmt w.serde (w.report (w.results p)) output.2 p.cli.open)) (w.file path) = none := by
    refine Writes.last_eq_none fun hmem => ?_
    rw [List.map_map] at hmem
    obtain ⟨output, houtput, hfile⟩ := List.mem_map.1 hmem
    exact hlast output houtput hfile
  rw [wanted_eq, houtputs, List.map_append, List.map_cons, Writes.last_append, Writes.last_cons,
    hnone, if_pos rfl]
  rfl

/-- **All that a call leaves behind says the same.**  When a call ends well, what it has printed and
what each of the files it was asked for holds, by the last option that names the file, are read back
as views of one report, as far as the format keeps it; and the report has a host for each of the
targets, in their order. -/
theorem files_say_the_same {json : JsonFormats} (hserde : w.serde = json.serde)
    {files : ℕ → Option Text} {s : ProgramState} (h : w.Reaches files s)
    (hend : s.progress = .ended (.ok ())) {p : Prepared} (hprepare : w.prepare = .ok p) :
    (∃ printed, s.stdout = some printed ∧
      (OutputFormat.normal.Keeps json p.cli.open (w.report (w.results p)) →
        OutputFormat.normal.Says json (w.shownReport p) printed)) ∧
    (∀ before path format after, p.cli.outputs = before ++ (path, format) :: after →
      (∀ output ∈ after, w.file output.1 ≠ w.file path) →
      format.Keeps json p.cli.open (w.report (w.results p)) →
      ∃ text, s.files (w.file path) = some text ∧ format.Says json (w.shownReport p) text) ∧
    ((w.shownReport p).hosts.map fun h => (h.address, h.hostname)) =
      p.targets.addrs.map fun r => (r.ip, hostnameFor w.lookupAddr r.label r.ip) := by
  obtain ⟨hstdout, hfiles⟩ := written_of_prepare hprepare h hend
  have hsays : ∀ format : OutputFormat,
      format.Keeps json p.cli.open (w.report (w.results p)) →
      format.Says json (w.shownReport p)
        (render w.fmt w.serde (w.report (w.results p)) format p.cli.open) := by
    intro format hkeeps
    rw [hserde]
    exact OutputFormat.says_render w.fmt (fromBanners_report p) hkeeps
  refine ⟨⟨_, hstdout, hsays .normal⟩, ?_, hosts_shownReport p⟩
  intro before path format after houtputs hlast hkeeps
  refine ⟨_, ?_, hsays format hkeeps⟩
  rw [hfiles, last_wanted houtputs hlast, Option.some_or]

/-! ### Three files -/

/-- The sample call with `-oN scan.txt` and `-oX report.xml` beside its `-oJ scan.json`. -/
def filesCli : Cli :=
  { sampleCli with oN := some "scan.txt".toList, oX := some "report.xml".toList }

/-- Its world. -/
def filesWorld : World :=
  { sampleWorld with
    args := ["rnmap".toList, "-Pn".toList, "-sV".toList, "-p".toList, "22,80".toList,
      "--open".toList, "-oN".toList, "scan.txt".toList, "-oX".toList, "report.xml".toList,
      "-oJ".toList, "scan.json".toList, "192.168.0.1".toList]
    parseFrom := fun _ => some filesCli }

def filesPrepared : Prepared := { samplePrepared with cli := filesCli }

theorem exact_filesWorld :
    JsonFormats.ofOneSecond.Exact (filesWorld.report (filesWorld.results filesPrepared)) := by
  refine ⟨?_, ?_⟩
  · change ∀ t ∈ [(⟨0, 0⟩ : DateTime), ⟨1, 0⟩, ⟨0, 0⟩, ⟨1, 0⟩], _
    decide
  · intro d hd
    obtain rfl : d = fromSecs 1 := by
      rcases List.mem_cons.1 hd with rfl | hd
      · rfl
      · exact List.mem_singleton.1 hd
    refine ⟨by decide, 1, rfl, ?_⟩
    norm_num [asSecsF64, fromSecs]

/-- The ports of its host: how they are shown, and the texts that are shown of them. -/
theorem ports_filesWorld {h : HostResult} (hh : h ∈ filesWorld.results filesPrepared)
    {r : PortResult} (hr : r ∈ h.ports) :
    '\n' ∉ portRow r ∧ ∀ s ∈ portTexts r, s ∈ ["syn-ack".toList, "ssh".toList,
      "OpenSSH".toList, "9.9p1".toList, "http".toList] := by
  let sc := filesPrepared.script filesWorld
  have hrows : ∀ script ∈ sc.hosts, ∀ probed ∈ sc.ports.filterMap (sc.run.probeResult
      (sc.plan script)), '\n' ∉ portRow (sc.run.detectOn (sc.plan script) probed) := by
    decide +kernel
  have htexts : ∀ script ∈ sc.hosts, ∀ probed ∈ sc.ports.filterMap (sc.run.probeResult
      (sc.plan script)), ∀ s ∈ portTexts (sc.run.detectOn (sc.plan script) probed),
        s ∈ ["syn-ack".toList, "ssh".toList, "OpenSSH".toList, "9.9p1".toList,
          "http".toList] := by
    decide +kernel
  obtain ⟨plan, hplan, rfl⟩ := List.mem_map.1 hh
  obtain ⟨script, hscript, rfl⟩ := List.mem_map.1 hplan
  obtain ⟨probed, hport, hprobed, rfl⟩ := CliRun.exists_probed hr
  have hmem := List.mem_filterMap.2 ⟨_, hport, hprobed⟩
  exact ⟨hrows script hscript probed hmem, htexts script hscript probed hmem⟩

theorem oneLine_filesWorld : OneLine (filesWorld.report (filesWorld.results filesPrepared)) := by
  refine ⟨by decide, by decide, by decide, ?_, ?_, ?_⟩
  · intro h hh name hname
    obtain rfl := List.mem_singleton.1 hh
    cases hname
  · intro h hh
    obtain rfl := List.mem_singleton.1 hh
    decide
  · intro h hh p hp banner hbanner
    rw [← lf_mem_portRow_of_banner hbanner]
    exact (ports_filesWorld hh hp).1

theorem xmlPlain_filesWorld :
    ∀ s ∈ reportTexts true (filesWorld.report (filesWorld.results filesPrepared)), XmlPlain s := by
  have hargs : ∀ s ∈ "rnmap".toList :: "0.1.0".toList :: filesWorld.args, XmlPlain s := by decide
  have hports : ∀ s ∈ ["syn-ack".toList, "ssh".toList, "OpenSSH".toList, "9.9p1".toList,
      "http".toList], XmlPlain s := by decide
  intro s hs
  rcases List.mem_append.1 (show s ∈ ("rnmap".toList :: "0.1.0".toList :: filesWorld.args) ++ _
    from hs) with hs | hs
  · exact hargs s hs
  · obtain ⟨h, hh, hs⟩ := List.mem_flatMap.1 hs
    rcases List.mem_append.1 (show s ∈ (h.reason :: h.hostname.toList) ++ _ from hs) with hs | hs
    · obtain rfl := List.mem_singleton.1 hh
      obtain rfl := List.mem_singleton.1 hs
      decide
    · obtain ⟨r, hr, hs⟩ := List.mem_flatMap.1 hs
      exact hports s ((ports_filesWorld hh (List.mem_filter.1 hr).1).2 s hs)

/-- Its three files are read back, each by the reader of its format, as views of one report. -/
theorem files_say_the_same_sample :
    ∃ s report normal xml json, filesWorld.Reaches (fun _ => none) s ∧
      s.files (filesWorld.file "scan.txt".toList) = some normal ∧
      s.files (filesWorld.file "report.xml".toList) = some xml ∧
      s.files (filesWorld.file "scan.json".toList) = some json ∧
      readNormal normal = some (report.hosts.map (HostResult.normalHost false)) ∧
      (readReport xml).bind readHosts = some (report.hosts.map fun h => h.facts h.ports) ∧
      JsonFormats.ofOneSecond.readBack json = some (pure report) ∧
      report.hosts.map HostResult.address = [.v4 ⟨192, 168, 0, 1⟩] := by
  obtain ⟨s, result, hs, hend⟩ := exists_reaches_ended filesWorld fun _ => none
  obtain rfl : result = .ok () := (congrArg Outcome.result (outcome_of_ended hs hend)).symm
  have hprepare : filesWorld.prepare = .ok filesPrepared := rfl
  have hserde : filesWorld.serde = JsonFormats.ofOneSecond.serde := rfl
  obtain ⟨-, hfiles, hhosts⟩ := files_say_the_same hserde hs hend hprepare
  obtain ⟨normal, hnormal, hread⟩ := hfiles [] "scan.txt".toList .normal
    [("report.xml".toList, .xml), ("scan.json".toList, .json)] rfl (by decide) oneLine_filesWorld
  obtain ⟨xml, hxml, hread'⟩ := hfiles [("scan.txt".toList, .normal)] "report.xml".toList .xml
    [("scan.json".toList, .json)] rfl (by decide) xmlPlain_filesWorld
  obtain ⟨json, hjson, hread''⟩ := hfiles
    [("scan.txt".toList, .normal), ("report.xml".toList, .xml)] "scan.json".toList .json
    [] rfl (by decide) exact_filesWorld
  refine ⟨s, _, normal, xml, json, hs, hnormal, hxml, hjson, hread, hread', hread'', ?_⟩
  have haddresses := congrArg (List.map Prod.fst) hhosts
  rwa [List.map_map] at haddresses

end World

end Rnmap
