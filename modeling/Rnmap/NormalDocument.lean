/-
**The normal report as a document.**

The normal report is made for the eye: nothing in it is quoted, a host is named before its address
and columns are padded.  It can be read back all the same.  Its sections are set apart by blank
lines, an address has neither blanks nor parentheses, and every service the scanner knows fits its
column; only line feeds would spoil it, which arguments, names and reasons do not have unless the
system puts them there, and rows only for the banners of `Rnmap.SplitsRow`.

Main definitions:

* `Rnmap.NormalRow`, `Rnmap.NormalHost` — what the normal report says of a port and of a host;
* `Rnmap.readNormal`, `Rnmap.readSummary` — the reader, and that of the last line;
* `Rnmap.OneLine` — a report whose texts have no line feeds.

Main results:

* `Rnmap.readRow_portRow`, `Rnmap.readDisplay_hostDisplay` — a row and the name of a host;
* `Rnmap.readSection_sectionLines` — the section of a host;
* `Rnmap.readSummary_renderNormal` — the summary, whatever stands in the report;
* `Rnmap.normal_round_trip` — **the normal report is read back as what was shown**.
-/

import Rnmap.Layout
import Rnmap.NormalOutput
import Rnmap.XmlDocument
import Rnmap.AddrSyntax

set_option relaxedAutoImplicit false
set_option autoImplicit false

namespace Rnmap

open Text Layout

/-! ### What a normal report says -/

/-- What a row says of a port; product and version stand in one column. -/
structure NormalRow where
  port : UInt16
  protocol : Protocol
  state : PortState
  service : Option Text
  version : Text
  deriving DecidableEq

/-- What a section says of a host. -/
structure NormalHost where
  address : IpAddr
  hostname : Option Text
  state : HostState
  reason : Text
  rows : List NormalRow
  deriving DecidableEq

def PortResult.normalRow (p : PortResult) : NormalRow :=
  ⟨p.port, p.protocol, p.state, p.service.map ServiceInfo.name, versionColumn p⟩

def HostResult.normalHost (onlyOpen : Bool) (h : HostResult) : NormalHost :=
  ⟨h.address, h.hostname, h.state, h.reason,
    if h.state = .up then (shownPorts onlyOpen h).map PortResult.normalRow else []⟩

/-! ### The reader -/

/-- A row, by its columns. -/
def readRow (s : Text) : Option NormalRow := do
  let label ← splitOnce '/' (cell 10 s)
  let port ← readPortNumber label.1
  let protocol ← readProtocol label.2
  let state ← readPortState (cell 13 (s.drop 10))
  let service := cell 16 ((s.drop 10).drop 13)
  some ⟨port, protocol, state, if service = "-".toList then none else some service,
    ((s.drop 10).drop 13).drop 16⟩

/-- A host as its section names it: its address stands between the last parentheses, or alone. -/
def readDisplay (s : Text) : Option (IpAddr × Option Text) :=
  if ')' ∈ s then
    let name := s.dropLast.rdropWhile (· ≠ '(')
    (IpAddr.fromStr (s.dropLast.drop name.length)).map fun ip => (ip, some name.dropLast.dropLast)
  else (IpAddr.fromStr s).map fun ip => (ip, none)

/-- A section, by its lines: two that name the host and its state, the header of the table or a
line that says that it has none, and the rows. -/
def readSection : List Text → Option NormalHost
  | title :: status :: table => do
      let display ← title.dropPrefix? "rnmap scan report for ".toList
      let (address, hostname) ← readDisplay display
      let said ← status.dropPrefix? "Host is ".toList
      let (word, reason) ← splitOnce ' ' said
      let state ← readHostState word
      let rows ← (table.drop 1).mapM readRow
      some ⟨address, hostname, state, (reason.drop 1).dropLast, rows⟩
  | _ => none

/-- A report, by its sections: the first is its header. -/
def readNormal (s : Text) : Option (List NormalHost) :=
  ((parts [] (parts '\n' s)).drop 1).mapM readSection

/-- What a summary counts. -/
structure Summary where
  hosts : ℕ
  up : ℕ
  openPorts : ℕ
  deriving DecidableEq

/-- The summary of a report: its last line, by the words with a blank behind them. -/
def readSummary (s : Text) : Option Summary := do
  let last ← (parts '\n' s).getLast?
  match parts ' ' last with
  | [hash, _, done, hosts, _, scanned, up, upWord, openPorts, openWord, _, _] =>
      if [hash, done, scanned, upWord, openWord] =
          ["#".toList, "done:".toList, "scanned,".toList, "up,".toList, "open".toList] then do
        let hosts ← readCount hosts
        let up ← readCount up
        let openPorts ← readCount openPorts
        some ⟨hosts, up, openPorts⟩
      else none
  | _ => none

/-! ### Rows -/

/-- A service whose name fits its column and is not taken for none. -/
structure FitsColumn (name : Text) : Prop where
  length_le : name.length ≤ 16
  last : name.getLast? ≠ some ' '
  ne_dash : name ≠ "-".toList

/-- Every service the scanner knows fits its column. -/
theorem fitsColumn_of_mem {name : Text} (h : name ∈ serviceNames) : FitsColumn name := by
  have hall : ∀ s ∈ serviceNames, s.length ≤ 16 ∧ s.getLast? ≠ some ' ' ∧ s ≠ "-".toList := by
    decide
  obtain ⟨hlen, hlast, hdash⟩ := hall name h
  exact ⟨hlen, hlast, hdash⟩

theorem notMem_decimal_of_isDigit {n : ℕ} {c : Char} (hc : c.isDigit = false) : c ∉ decimal n := by
  intro h
  rw [isDigit_of_mem_decimal h] at hc
  cases hc

/-- The number and the protocol of a port fit their column. -/
theorem portLabel_fits (p : PortResult) :
    (portLabel p).length ≤ 10 ∧ (portLabel p).getLast? ≠ some ' ' := by
  have hnumber : (decimal p.port.toNat).length ≤ 5 := by
    have hlt := p.port.toNat_lt
    rw [decimal, Nat.length_toDigits_le_iff (by decide) (by decide)]
    omega
  have hprotocol : p.protocol.display.length = 3 ∧ p.protocol.display.getLast? = some 'p' := by
    cases p.protocol <;> exact ⟨rfl, rfl⟩
  constructor
  · rw [portLabel, List.length_append, List.length_append, hprotocol.1]
    have hslash : "/".toList.length = 1 := rfl
    omega
  · rw [portLabel, List.getLast?_append, hprotocol.2, Option.some_or]
    decide

theorem display_fits (st : PortState) :
    st.display.length ≤ 13 ∧ st.display.getLast? ≠ some ' ' := by
  cases st <;> decide

theorem serviceColumn_fits {p : PortResult}
    (h : ∀ svc, p.service = some svc → FitsColumn svc.name) :
    (serviceColumn p).length ≤ 16 ∧ (serviceColumn p).getLast? ≠ some ' ' := by
  unfold serviceColumn
  cases hsvc : p.service with
  | none => decide
  | some svc => exact ⟨(h svc hsvc).length_le, (h svc hsvc).last⟩

theorem read_serviceColumn {p : PortResult}
    (h : ∀ svc, p.service = some svc → FitsColumn svc.name) :
    (if serviceColumn p = "-".toList then none else some (serviceColumn p)) =
      p.service.map ServiceInfo.name := by
  unfold serviceColumn
  cases hsvc : p.service with
  | none => rfl
  | some svc => exact if_neg (h svc hsvc).ne_dash

/-- **A row is read back.** -/
theorem readRow_portRow {p : PortResult} (h : ∀ svc, p.service = some svc → FitsColumn svc.name) :
    readRow (portRow p) = some p.normalRow := by
  obtain ⟨hlabel, hlabel'⟩ := portLabel_fits p
  obtain ⟨hstate, hstate'⟩ := display_fits p.state
  obtain ⟨hservice, hservice'⟩ := serviceColumn_fits h
  have hslash : splitOnce '/' (portLabel p) = some (decimal p.port.toNat, p.protocol.display) := by
    rw [splitOnce_eq_some, portLabel, List.append_assoc]
    exact ⟨rfl, notMem_decimal_of_isDigit (by decide)⟩
  have hrow : portRow p = padRight 10 (portLabel p) ++ (padRight 13 p.state.display ++
      (padRight 16 (serviceColumn p) ++ versionColumn p)) := by
    simp only [portRow, List.append_assoc]
  rw [readRow, hrow, cell_padRight hlabel hlabel', drop_padRight hlabel,
    cell_padRight hstate hstate', drop_padRight hstate, cell_padRight hservice hservice',
    drop_padRight hservice, hslash]
  simp only [Option.bind_eq_bind, Option.bind_some, readPortNumber_decimal, readProtocol_display,
    readPortState_display, read_serviceColumn h]
  rfl

/-! ### Names of hosts -/

/-- Addresses have neither blanks nor parentheses. -/
theorem notMem_display {c : Char} (hc : ¬ IsAddrChar c) (ip : IpAddr) : c ∉ ip.display :=
  fun h => hc (isAddrChar_of_fromStr (IpAddr.fromStr_display ip) c h)

/-- **The name of a host is read back**, whatever parentheses are in it. -/
theorem readDisplay_hostDisplay (h : HostResult) :
    readDisplay (hostDisplay h) = some (h.address, h.hostname) := by
  unfold readDisplay hostDisplay
  cases hname : h.hostname with
  | none =>
      dsimp only
      rw [if_neg (notMem_display (by decide) h.address), IpAddr.fromStr_display]
      rfl
  | some name =>
      dsimp only
      have hopen : '(' ∉ h.address.display := notMem_display (by decide) h.address
      have hall : ∀ c ∈ h.address.display, decide (c ≠ '(') = true :=
        fun c hc => decide_eq_true fun heq => hopen (heq ▸ hc)
      have hlast : (name ++ " (".toList ++ h.address.display ++ ")".toList).dropLast =
          name ++ " (".toList ++ h.address.display := List.dropLast_concat
      have hname' : (name ++ " (".toList ++ h.address.display).rdropWhile (· ≠ '(') =
          name ++ " (".toList := by
        rw [rdropWhile_append_of_last, List.rdropWhile_eq_nil_iff.2 hall, List.append_nil]
        intro c hc
        rw [List.getLast?_append] at hc
        cases hc
        decide
      have hblank : (name ++ " (".toList).dropLast.dropLast = name := by simp
      have hclose : ')' ∈ name ++ " (".toList ++ h.address.display ++ ")".toList :=
        List.mem_append_right _ (by decide)
      rw [if_pos hclose, hlast, hname', List.drop_left, IpAddr.fromStr_display, hblank]
      rfl

/-! ### Sections -/

/-- The lines of a table. -/
def tableLines (onlyOpen : Bool) (h : HostResult) : List Text :=
  if h.state ≠ .up then []
  else if (shownPorts onlyOpen h).isEmpty then
    ["(no ports ".toList ++ (if onlyOpen then "open".toList else "scanned".toList) ++ ")".toList]
  else tableHeader :: (shownPorts onlyOpen h).map portRow

/-- The lines of a section. -/
def sectionLines (onlyOpen : Bool) (h : HostResult) : List Text :=
  ("rnmap scan report for ".toList ++ hostDisplay h) ::
    ("Host is ".toList ++ h.state.word ++ " (".toList ++ h.reason ++ ")".toList) ::
      tableLines onlyOpen h

theorem tableLines_written (onlyOpen : Bool) (h : HostResult) :
    (tableLines onlyOpen h).flatMap line =
      if h.state ≠ .up then []
      else if (shownPorts onlyOpen h).isEmpty then
        line ("(no ports ".toList ++ (if onlyOpen then "open".toList else "scanned".toList) ++
          ")".toList)
      else line tableHeader ++ tableRows (shownPorts onlyOpen h) := by
  unfold tableLines
  split_ifs
  · rfl
  · rw [List.flatMap_singleton]
  · rw [List.flatMap_singleton]
  · rw [List.flatMap_cons, tableRows_eq]

theorem sectionLines_written (onlyOpen : Bool) (h : HostResult) :
    hostSection onlyOpen h = (sectionLines onlyOpen h ++ [[]]).flatMap line := by
  rw [hostSection, ← tableLines_written, List.flatMap_append, sectionLines, List.flatMap_cons,
    List.flatMap_cons, List.flatMap_singleton, hostHead, List.append_assoc (line _)]

theorem readRows_tableLines {onlyOpen : Bool} {h : HostResult}
    (hfits : ∀ p ∈ h.ports, ∀ svc, p.service = some svc → FitsColumn svc.name) :
    ((tableLines onlyOpen h).drop 1).mapM readRow = some (h.normalHost onlyOpen).rows := by
  unfold tableLines HostResult.normalHost
  by_cases hup : h.state = .up
  · rw [if_neg (not_not.2 hup), if_pos hup]
    cases hshown : (shownPorts onlyOpen h).isEmpty with
    | true =>
        rw [List.isEmpty_iff.1 hshown]
        rfl
    | false =>
        rw [if_neg Bool.false_ne_true, List.drop_one, List.tail_cons]
        exact mapM_map fun p hp => readRow_portRow (hfits p (mem_ports_of_mem_shownPorts hp))
  · rw [if_pos hup, if_neg hup]
    rfl

/-- **The section of a host is read back.** -/
theorem readSection_sectionLines {onlyOpen : Bool} {h : HostResult}
    (hfits : ∀ p ∈ h.ports, ∀ svc, p.service = some svc → FitsColumn svc.name) :
    readSection (sectionLines onlyOpen h) = some (h.normalHost onlyOpen) := by
  have htitle : ("rnmap scan report for ".toList ++ hostDisplay h).dropPrefix?
      "rnmap scan report for ".toList = some (hostDisplay h) :=
    List.dropPrefix?_append_of_beq _ (beq_self_eq_true _)
  have hstatus : ("Host is ".toList ++ h.state.word ++ " (".toList ++ h.reason ++
      ")".toList).dropPrefix? "Host is ".toList =
        some (h.state.word ++ ' ' :: ('(' :: h.reason ++ ")".toList)) := by
    have hassoc : "Host is ".toList ++ h.state.word ++ " (".toList ++ h.reason ++ ")".toList =
        "Host is ".toList ++ (h.state.word ++ ' ' :: ('(' :: h.reason ++ ")".toList)) := by
      simp
    rw [hassoc]
    exact List.dropPrefix?_append_of_beq _ (beq_self_eq_true _)
  have hword : splitOnce ' ' (h.state.word ++ ' ' :: ('(' :: h.reason ++ ")".toList)) =
      some (h.state.word, '(' :: h.reason ++ ")".toList) := by
    rw [splitOnce_eq_some]
    refine ⟨rfl, ?_⟩
    cases h.state <;> decide
  have hreason : (('(' :: h.reason ++ ")".toList).drop 1).dropLast = h.reason :=
    List.dropLast_concat
  rw [sectionLines, readSection, htitle]
  simp only [Option.bind_eq_bind, Option.bind_some, readDisplay_hostDisplay, hstatus, hword,
    readHostState_word, readRows_tableLines hfits, hreason]
  rfl

/-! ### Reports -/

/-- A report whose texts have no line feeds, nor the rows of its ports. -/
structure OneLine (r : ScanReport) : Prop where
  scanner : '\n' ∉ r.scanner
  version : '\n' ∉ r.version
  args : ∀ a ∈ r.args, '\n' ∉ a
  hostname : ∀ h ∈ r.hosts, ∀ name ∈ h.hostname, '\n' ∉ name
  reason : ∀ h ∈ r.hosts, '\n' ∉ h.reason
  banners : ∀ h ∈ r.hosts, ∀ p ∈ h.ports, ∀ banner,
    p.service = some (serviceInfo p.port banner) → ¬ SplitsRow banner

/-- The lines of the header. -/
def titleLines (fmt : Formats) (r : ScanReport) : List Text :=
  ["# ".toList ++ r.scanner ++ " ".toList ++ r.version ++ " scan initiated ".toList ++
    fmt.utc r.startedAt, "# args: ".toList ++ [' '].intercalate r.args]

/-- The last line. -/
def footerLine (fmt : Formats) (r : ScanReport) : Text :=
  "# rnmap done: ".toList ++ decimal r.hostCount ++ " host".toList ++
    pluralEnd r.hostCount ++ " scanned, ".toList ++ decimal r.upCount ++ " up, ".toList ++
    decimal r.openPortCount ++ " open port".toList ++ pluralEnd r.openPortCount ++ " in ".toList ++
    fmt.secs 2 r.elapsed ++ "s".toList

/-- The sections of a report, the header first. -/
def reportSections (fmt : Formats) (r : ScanReport) (onlyOpen : Bool) : List (List Text) :=
  titleLines fmt r :: r.hosts.map (sectionLines onlyOpen)

/-- The lines of a report. -/
def reportLines (fmt : Formats) (r : ScanReport) (onlyOpen : Bool) : List Text :=
  (reportSections fmt r onlyOpen).flatMap (fun s => s ++ [[]]) ++ [footerLine fmt r]

/-- **A report is written line by line.** -/
theorem reportLines_written (fmt : Formats) (r : ScanReport) (onlyOpen : Bool) :
    renderNormal fmt r onlyOpen = (reportLines fmt r onlyOpen).flatMap line := by
  have hhosts : r.hosts.flatMap (hostSection onlyOpen) =
      ((r.hosts.map (sectionLines onlyOpen)).flatMap (fun s => s ++ [[]])).flatMap line := by
    rw [List.flatMap_map, List.flatMap_assoc]
    exact List.flatMap_congr fun h _ => sectionLines_written onlyOpen h
  have hheader : normalHeader fmt r = (titleLines fmt r ++ [[]]).flatMap line := by
    simp [normalHeader, titleLines]
  rw [renderNormal, reportLines, reportSections, List.flatMap_append, List.flatMap_cons,
    List.flatMap_append, hhosts, hheader, List.flatMap_singleton]
  rfl

/-- The lines of a section are not empty. -/
theorem nil_notMem_sectionLines (onlyOpen : Bool) (h : HostResult) :
    [] ∉ sectionLines onlyOpen h := by
  have hrow : ∀ p, portRow p ≠ [] := by
    intro p hnil
    have hprefix : portLabel p <+: portRow p :=
      (prefix_padRight 10 (portLabel p)).trans ((List.prefix_append _ _).trans
        ((List.prefix_append _ _).trans (List.prefix_append _ _)))
    rw [hnil, List.prefix_nil, portLabel, List.append_assoc] at hprefix
    cases (List.append_eq_nil_iff.1 hprefix).2
  have htable : [] ∉ tableLines onlyOpen h := by
    unfold tableLines
    split_ifs
    · exact List.not_mem_nil
    · intro hmem
      cases List.mem_singleton.1 hmem
    · intro hmem
      cases List.mem_singleton.1 hmem
    · intro hmem
      rcases List.mem_cons.1 hmem with hheader | hmem
      · cases hheader
      · obtain ⟨p, -, hp⟩ := List.mem_map.1 hmem
        exact hrow p hp
  intro hmem
  rcases List.mem_cons.1 hmem with htitle | hmem
  · cases htitle
  · rcases List.mem_cons.1 hmem with hstatus | hmem
    · cases hstatus
    · exact htable hmem

theorem lf_notMem_of_printable {s : Text} (h : Printable s) : '\n' ∉ s := fun hmem =>
  absurd (h _ hmem) (by decide)

theorem lf_notMem_portRow_of_oneLine {r : ScanReport} (hr : FromBanners r) (h : OneLine r)
    {x : HostResult} (hx : x ∈ r.hosts) {p : PortResult} (hp : p ∈ x.ports) :
    '\n' ∉ portRow p := by
  cases hsvc : p.service with
  | none => exact lf_notMem_portRow hsvc
  | some svc =>
      obtain ⟨banner, rfl⟩ := hr x hx p hp svc hsvc
      rw [lf_mem_portRow_of_banner hsvc]
      exact h.banners x hx p hp banner hsvc

/-- The lines of a section have no line feeds. -/
theorem lf_notMem_sectionLines {r : ScanReport} (hr : FromBanners r) (h : OneLine r)
    {x : HostResult} (hx : x ∈ r.hosts) (onlyOpen : Bool) :
    ∀ l ∈ sectionLines onlyOpen x, '\n' ∉ l := by
  have hstate : '\n' ∉ x.state.word := by
    cases x.state <;> decide
  have haddress := lf_notMem_of_printable x.address.printable_display
  have hdisplay : '\n' ∉ hostDisplay x := by
    unfold hostDisplay
    cases hname : x.hostname with
    | none => exact haddress
    | some name => simp [h.hostname x hx name hname, haddress]
  refine List.forall_mem_cons.2 ⟨by simp [hdisplay], List.forall_mem_cons.2
    ⟨by simp [hstate, h.reason x hx], fun l hl => ?_⟩⟩
  unfold tableLines at hl
  split_ifs at hl
  · cases hl
  · obtain rfl := List.mem_singleton.1 hl
    decide
  · obtain rfl := List.mem_singleton.1 hl
    decide
  · rcases List.mem_cons.1 hl with rfl | hl
    · decide
    · obtain ⟨p, hp, rfl⟩ := List.mem_map.1 hl
      exact lf_notMem_portRow_of_oneLine hr h hx (mem_ports_of_mem_shownPorts hp)

theorem lf_notMem_titleLines {r : ScanReport} (h : OneLine r) (fmt : Formats) :
    ∀ l ∈ titleLines fmt r, '\n' ∉ l := by
  have hargs : '\n' ∉ [' '].intercalate r.args := by
    intro hmem
    rcases mem_intercalate hmem with hblank | ⟨a, ha, hlf⟩
    · exact absurd hblank (by decide)
    · exact h.args a ha hlf
  have hutc := lf_notMem_of_printable (fmt.printable_utc r.startedAt)
  refine List.forall_mem_cons.2 ⟨?_, List.forall_mem_singleton.2 ?_⟩
  · simp [h.scanner, h.version, hutc]
  · simp [hargs]

theorem lf_notMem_footerLine (fmt : Formats) (r : ScanReport) : '\n' ∉ footerLine fmt r := by
  have hsecs := lf_notMem_of_printable (fmt.printable_secs 2 r.elapsed)
  have hdecimal : ∀ n, '\n' ∉ decimal n := fun n => lf_notMem_of_printable (printable_decimal n)
  have hplural : ∀ n, '\n' ∉ pluralEnd n := by
    intro n
    unfold pluralEnd
    split_ifs <;> decide
  unfold footerLine
  simp [hdecimal, hplural, hsecs]

/-- The words of the last line that have a blank behind them. -/
def footerWords (r : ScanReport) : List Text :=
  ["#".toList, "rnmap".toList, "done:".toList, decimal r.hostCount,
    "host".toList ++ pluralEnd r.hostCount, "scanned,".toList, decimal r.upCount, "up,".toList,
    decimal r.openPortCount, "open".toList, "port".toList ++ pluralEnd r.openPortCount, "in".toList]

theorem parts_footerLine (fmt : Formats) (r : ScanReport) :
    parts ' ' (footerLine fmt r) = footerWords r := by
  have hwords : footerLine fmt r = (footerWords r).flatMap (fun word => word ++ [' ']) ++
      (fmt.secs 2 r.elapsed ++ "s".toList) := by
    unfold footerLine footerWords
    simp only [List.flatMap_cons, List.flatMap_nil, List.append_assoc, List.append_nil]
    -- the words between the numbers are the same
    generalize decimal r.hostCount = hosts
    generalize decimal r.upCount = up
    generalize decimal r.openPortCount = openPorts
    generalize pluralEnd r.hostCount = hostEnd
    generalize pluralEnd r.openPortCount = portEnd
    generalize fmt.secs 2 r.elapsed = secs
    rfl
  have hdecimal : ∀ n, ' ' ∉ decimal n := fun n => notMem_decimal_of_isDigit (by decide)
  have hplural : ∀ n, ' ' ∉ pluralEnd n := by
    intro n
    unfold pluralEnd
    split_ifs <;> decide
  have hsecs : ' ' ∉ fmt.secs 2 r.elapsed := by
    intro h
    rcases fmt.numeral_secs 2 r.elapsed ' ' h with hdigit | hdot
    · cases hdigit
    · cases hdot
  rw [hwords]
  refine parts_written ?_ (by simp [hsecs])
  simp [footerWords, hdecimal, hplural]

/-- **The summary is read back**, whatever stands in the report. -/
theorem readSummary_renderNormal (fmt : Formats) (r : ScanReport) (onlyOpen : Bool) :
    readSummary (renderNormal fmt r onlyOpen) =
      some ⟨r.hostCount, r.upCount, r.openPortCount⟩ := by
  obtain ⟨before, hbefore⟩ : ∃ before, renderNormal fmt r onlyOpen =
      before ++ '\n' :: (footerLine fmt r ++ ['\n']) := by
    -- a line stands before the last one
    have hlines : (reportSections fmt r onlyOpen).flatMap (fun s => s ++ [[]]) ≠ [] := by
      simp [reportSections, titleLines]
    obtain ⟨ls, l, hls⟩ := (List.eq_nil_or_concat _).resolve_left hlines
    refine ⟨ls.flatMap line ++ l, ?_⟩
    rw [reportLines_written, reportLines, hls]
    simp [line]
  have hlast : (parts '\n' (renderNormal fmt r onlyOpen)).getLast? = some (footerLine fmt r) := by
    rw [hbefore]
    exact getLast?_parts (lf_notMem_footerLine fmt r) before
  rw [readSummary, hlast]
  simp only [Option.bind_eq_bind, Option.bind_some, parts_footerLine, footerWords, if_true,
    readCount_decimal]

/-- The lines of a report that is to be read have no line feeds. -/
theorem lf_notMem_reportLines {r : ScanReport} (hr : FromBanners r) (h : OneLine r)
    (fmt : Formats) (onlyOpen : Bool) : ∀ l ∈ reportLines fmt r onlyOpen, '\n' ∉ l := by
  have hsections : ∀ s ∈ reportSections fmt r onlyOpen, ∀ l ∈ s, '\n' ∉ l := by
    refine List.forall_mem_cons.2 ⟨lf_notMem_titleLines h fmt, fun s hs => ?_⟩
    obtain ⟨x, hx, rfl⟩ := List.mem_map.1 hs
    exact lf_notMem_sectionLines hr h hx onlyOpen
  refine List.forall_mem_append.2 ⟨fun l hl => ?_,
    List.forall_mem_singleton.2 (lf_notMem_footerLine fmt r)⟩
  obtain ⟨s, hs, hl⟩ := List.mem_flatMap.1 hl
  rcases List.mem_append.1 hl with hl | hl
  · exact hsections s hs l hl
  · obtain rfl := List.mem_singleton.1 hl
    exact List.not_mem_nil

/-- **The sections of a report are found**, when its texts have no line feeds. -/
theorem parts_renderNormal {r : ScanReport} (hr : FromBanners r) (h : OneLine r) (fmt : Formats)
    (onlyOpen : Bool) :
    parts [] (parts '\n' (renderNormal fmt r onlyOpen)) = reportSections fmt r onlyOpen := by
  have hlines : parts '\n' (renderNormal fmt r onlyOpen) = reportLines fmt r onlyOpen := by
    have hwritten := parts_written (lf_notMem_reportLines hr h fmt onlyOpen)
      (List.not_mem_nil : '\n' ∉ [])
    rw [List.append_nil] at hwritten
    rw [reportLines_written]
    exact hwritten
  rw [hlines]
  have hfooter : [] ∉ [footerLine fmt r] := by
    intro hmem
    cases List.mem_singleton.1 hmem
  refine parts_written (fun s hs => ?_) hfooter
  rcases List.mem_cons.1 hs with rfl | hs
  · simp [titleLines]
  · obtain ⟨x, -, rfl⟩ := List.mem_map.1 hs
    exact nil_notMem_sectionLines onlyOpen x

/-- The sections of a report are read back. -/
theorem read_reportSections {r : ScanReport} (hr : FromBanners r) (fmt : Formats)
    (onlyOpen : Bool) :
    ((reportSections fmt r onlyOpen).drop 1).mapM readSection =
      some (r.hosts.map (HostResult.normalHost onlyOpen)) := by
  have hfits : ∀ x ∈ r.hosts, ∀ p ∈ x.ports, ∀ svc, p.service = some svc →
      FitsColumn svc.name := by
    intro x hx p hp svc hsvc
    obtain ⟨banner, rfl⟩ := hr x hx p hp svc hsvc
    exact fitsColumn_of_mem (name_guess p.port (trimmedBanner banner))
  rw [reportSections, List.drop_one, List.tail_cons]
  exact mapM_map fun x hx => readSection_sectionLines (hfits x hx)

/-- A report whose texts have no line feeds is read back. -/
theorem readNormal_renderNormal {r : ScanReport} (hr : FromBanners r) (h : OneLine r)
    (fmt : Formats) (onlyOpen : Bool) :
    readNormal (renderNormal fmt r onlyOpen) =
      some (r.hosts.map (HostResult.normalHost onlyOpen)) := by
  rw [readNormal, parts_renderNormal hr h, read_reportSections hr]

/-- **The normal report is read back as what was shown**, when its texts have no line feeds: every
host with its address, name, state and reason, and the shown ports of each that is up with their
protocol, state, service and version. -/
theorem normal_round_trip {r : ScanReport} (hr : FromBanners r) (h : OneLine r) (fmt : Formats)
    (onlyOpen : Bool) :
    readNormal (renderNormal fmt r onlyOpen) =
      some (r.hosts.map (HostResult.normalHost onlyOpen)) :=
  readNormal_renderNormal hr h fmt onlyOpen

/-- The report of a server that greets as OpenSSH, line end included. -/
theorem normal_round_trip_ssh :
    readNormal (renderNormal epochFormats
        (sampleReport 22 "SSH-2.0-OpenSSH_9.9p1\r\n".toList) true) =
      some [⟨.v4 ⟨192, 168, 0, 1⟩, none, .up, "skipped".toList,
        [⟨22, .tcp, .open, some "ssh".toList, "OpenSSH 9.9p1".toList⟩]⟩] := by
  have hline : OneLine (sampleReport 22 "SSH-2.0-OpenSSH_9.9p1\r\n".toList) := by
    refine ⟨by decide, by decide, by decide, ?_, ?_, ?_⟩
    · intro h hh name hname
      obtain rfl := List.mem_singleton.1 hh
      cases hname
    · intro h hh
      obtain rfl := List.mem_singleton.1 hh
      decide
    · intro h hh p hp banner hbanner
      obtain rfl := List.mem_singleton.1 hh
      obtain rfl := List.mem_singleton.1 hp
      rw [← lf_mem_portRow_of_banner hbanner]
      decide +kernel
  rw [normal_round_trip (fromBanners_sampleReport _ _) hline]
  decide +kernel

end Rnmap
