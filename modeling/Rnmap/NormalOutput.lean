/-
**The normal report.**

The renderer writes one section per host, and for a host that is up a table with one row per port.
Nothing it quotes is escaped, so the table has one line per port only as long as no text in it
holds a line feed.  Of the texts a banner decides, the version in a MySQL greeting may hold one.

Main definitions:

* `Rnmap.portRow`, `Rnmap.hostSection`, `Rnmap.renderNormal` — the renderer;
* `Rnmap.PortLines` — a text of one line per port;
* `Rnmap.PortTables` — a report all of whose tables are such texts;
* `Rnmap.SplitsRow` — the banners that put a line feed into a row.

Main results:

* `Rnmap.renderNormal_of_split` — where the table of a host stands in a report;
* `Rnmap.lf_mem_portRow_iff` — the rows that hold a line feed;
* `Rnmap.port_tables_iff` — **when every table has one line per port**.
-/

import Rnmap.Report

set_option relaxedAutoImplicit false
set_option autoImplicit false

namespace Rnmap

open Text

/-! ### The renderer -/

/-- The first lines of a report. -/
def normalHeader (fmt : Formats) (r : ScanReport) : Text :=
  line ("# ".toList ++ r.scanner ++ " ".toList ++ r.version ++ " scan initiated ".toList ++
    fmt.utc r.startedAt) ++
  line ("# args: ".toList ++ [' '].intercalate r.args) ++
  line []

/-- A host as its section names it. -/
def hostDisplay (h : HostResult) : Text :=
  match h.hostname with
  | some name => name ++ " (".toList ++ h.address.display ++ ")".toList
  | none => h.address.display

/-- The first two lines of a section. -/
def hostHead (h : HostResult) : Text :=
  line ("rnmap scan report for ".toList ++ hostDisplay h) ++
  line ("Host is ".toList ++ h.state.word ++ " (".toList ++ h.reason ++ ")".toList)

/-- The ports the normal report shows. -/
def shownPorts (onlyOpen : Bool) (h : HostResult) : List PortResult :=
  if onlyOpen then h.ports.filter fun p => p.state = .open else h.ports

/-- The column of the service's name. -/
def serviceColumn (p : PortResult) : Text :=
  match p.service with
  | some svc => svc.name
  | none => "-".toList

/-- The column of the product and the version; a version without a product is not shown. -/
def versionColumn (p : PortResult) : Text :=
  match p.service with
  | some svc =>
      match svc.product, svc.version with
      | some prod, some v => prod ++ " ".toList ++ v
      | some prod, none => prod
      | none, _ => []
  | none => []

/-- A port's number and protocol. -/
def portLabel (p : PortResult) : Text := decimal p.port.toNat ++ "/".toList ++ p.protocol.display

/-- The row of a port. -/
def portRow (p : PortResult) : Text :=
  padRight 10 (portLabel p) ++ padRight 13 p.state.display ++ padRight 16 (serviceColumn p) ++
    versionColumn p

/-- The header line of a table. -/
def tableHeader : Text := "PORT      STATE        SERVICE         VERSION".toList

/-- The rows of a table. -/
def tableRows (ports : List PortResult) : Text := ports.flatMap fun p => line (portRow p)

/-- The section of a host. -/
def hostSection (onlyOpen : Bool) (h : HostResult) : Text :=
  hostHead h ++
  (if h.state ≠ .up then []
    else if (shownPorts onlyOpen h).isEmpty then
      line ("(no ports ".toList ++ (if onlyOpen then "open".toList else "scanned".toList) ++
        ")".toList)
    else line tableHeader ++ tableRows (shownPorts onlyOpen h)) ++
  line []

/-- The ending of a noun that goes with a number. -/
def pluralEnd (n : ℕ) : Text := if n = 1 then [] else "s".toList

/-- The last line of a report. -/
def normalFooter (fmt : Formats) (r : ScanReport) : Text :=
  line ("# rnmap done: ".toList ++ decimal r.hostCount ++ " host".toList ++
    pluralEnd r.hostCount ++ " scanned, ".toList ++ decimal r.upCount ++ " up, ".toList ++
    decimal r.openPortCount ++ " open port".toList ++ pluralEnd r.openPortCount ++ " in ".toList ++
    fmt.secs 2 r.elapsed ++ "s".toList)

/-- `normal::render`. -/
def renderNormal (fmt : Formats) (r : ScanReport) (onlyOpen : Bool) : Text :=
  normalHeader fmt r ++ r.hosts.flatMap (hostSection onlyOpen) ++ normalFooter fmt r

/-! ### Tables in a report -/

/-- The text of a report up to the table of a host that comes after the hosts `before`. -/
def beforeTable (fmt : Formats) (r : ScanReport) (onlyOpen : Bool) (before : List HostResult)
    (h : HostResult) : Text :=
  normalHeader fmt r ++ before.flatMap (hostSection onlyOpen) ++ hostHead h ++ line tableHeader

/-- The text of a report from the blank line on that ends the table of a host, when the hosts
`after` come after it. -/
def afterTable (fmt : Formats) (r : ScanReport) (onlyOpen : Bool) (after : List HostResult) :
    Text :=
  line [] ++ after.flatMap (hostSection onlyOpen) ++ normalFooter fmt r

/-- **Where the table of a host stands**: its rows are what stands between the header line and the
blank line. -/
theorem renderNormal_of_split (fmt : Formats) {r : ScanReport} {onlyOpen : Bool}
    {before after : List HostResult} {h : HostResult} (hhosts : r.hosts = before ++ h :: after)
    (hup : h.state = .up) (hshown : shownPorts onlyOpen h ≠ []) :
    renderNormal fmt r onlyOpen =
      beforeTable fmt r onlyOpen before h ++ tableRows (shownPorts onlyOpen h) ++
        afterTable fmt r onlyOpen after := by
  have hempty : (shownPorts onlyOpen h).isEmpty = false := by simpa using hshown
  have hsection : hostSection onlyOpen h =
      hostHead h ++ (line tableHeader ++ tableRows (shownPorts onlyOpen h)) ++ line [] := by
    rw [hostSection, if_neg (not_not.2 hup), hempty, if_neg Bool.false_ne_true]
  rw [renderNormal, hhosts, List.flatMap_append, List.flatMap_cons, hsection, beforeTable,
    afterTable]
  simp only [List.append_assoc]

/-- A text of one line per port, in order, each with its port's number and protocol first. -/
def PortLines (ports : List PortResult) (body : Text) : Prop :=
  ∃ rows : List Text, body = rows.flatMap line ∧
    List.Forall₂ (fun p row => '\n' ∉ row ∧ portLabel p <+: row) ports rows

/-- Between the header line of every table and the blank line after it there is one line per shown
port. -/
def PortTables (fmt : Formats) (r : ScanReport) (onlyOpen : Bool) : Prop :=
  ∀ before h after, r.hosts = before ++ h :: after → h.state = .up → shownPorts onlyOpen h ≠ [] →
    ∃ body, renderNormal fmt r onlyOpen =
        beforeTable fmt r onlyOpen before h ++ body ++ afterTable fmt r onlyOpen after ∧
      PortLines (shownPorts onlyOpen h) body

/-! ### Rows and line feeds -/

/-- Lines of texts without line feeds have as many line feeds as there are lines. -/
theorem count_lf_lines {rows : List Text} (h : ∀ row ∈ rows, '\n' ∉ row) :
    (rows.flatMap line).count '\n' = rows.length := by
  induction rows with
  | nil => rfl
  | cons row rows ih =>
      obtain ⟨hrow, hrows⟩ := List.forall_mem_cons.1 h
      rw [List.flatMap_cons, List.count_append, ih hrows, line, List.count_append,
        List.count_eq_zero.2 hrow, List.length_cons]
      simp only [List.count_singleton_self]
      omega

/-- A row with a line feed makes the table too long. -/
theorem lt_count_lf_lines {rows : List Text} {row : Text} (hrow : row ∈ rows) (hlf : '\n' ∈ row) :
    rows.length < (rows.flatMap line).count '\n' := by
  have hle : ∀ rows : List Text, rows.length ≤ (rows.flatMap line).count '\n' := by
    intro rows
    induction rows with
    | nil => exact Nat.zero_le _
    | cons row rows ih =>
        rw [List.flatMap_cons, List.count_append, line, List.count_append, List.length_cons,
          List.count_singleton_self]
        omega
  obtain ⟨front, back, rfl⟩ := List.append_of_mem hrow
  have hfront := hle front
  have hback := hle back
  have hpos : 0 < row.count '\n' := List.count_pos_iff.2 hlf
  rw [List.flatMap_append, List.flatMap_cons, List.count_append, List.count_append, line,
    List.count_append, List.count_singleton_self, List.length_append, List.length_cons]
  omega

/-- The rows of a table are lines. -/
theorem tableRows_eq (ports : List PortResult) :
    tableRows ports = (ports.map portRow).flatMap line := by
  rw [List.flatMap_map]
  rfl

/-- The rows of a table are one line per port exactly when none of them holds a line feed. -/
theorem portLines_tableRows_iff (ports : List PortResult) :
    PortLines ports (tableRows ports) ↔ ∀ p ∈ ports, '\n' ∉ portRow p := by
  constructor
  · rintro ⟨rows, hbody, hrows⟩ p hp hlf
    have hfree : ∀ row ∈ rows, '\n' ∉ row := by
      clear hbody hp
      induction hrows with
      | nil => exact fun _ hrow => nomatch hrow
      | cons hrow _ ih => exact List.forall_mem_cons.2 ⟨hrow.1, ih⟩
    -- the row makes one line feed too many for as many lines as there are ports
    have hcount := lt_count_lf_lines (List.mem_map_of_mem hp) hlf
    rw [← tableRows_eq, hbody, count_lf_lines hfree, List.length_map, hrows.length_eq] at hcount
    exact absurd hcount (Nat.lt_irrefl _)
  · intro hfree
    refine ⟨ports.map portRow, tableRows_eq ports, ?_⟩
    rw [List.forall₂_map_right_iff]
    refine List.forall₂_same.2 fun p hp => ⟨hfree p hp, ?_⟩
    exact (prefix_padRight 10 (portLabel p)).trans
      ((List.prefix_append _ _).trans ((List.prefix_append _ _).trans (List.prefix_append _ _)))

/-- The banners that put a line feed into a row: MySQL greetings without a server line whose
version has a line feed before its first dash. -/
def SplitsRow (banner : Text) : Prop :=
  ¬ HasServerLine (trimmedBanner banner) ∧
    ∃ v, mySqlVersion (trimmedBanner banner) = some v ∧ '\n' ∈ v.takeWhile (· != '-')

/-- What a row prints besides the columns that are fixed. -/
theorem lf_mem_portRow_iff (p : PortResult) :
    '\n' ∈ portRow p ↔ '\n' ∈ serviceColumn p ∨ '\n' ∈ versionColumn p := by
  have hpad : ∀ (width : ℕ) (s : Text), '\n' ∈ padRight width s ↔ '\n' ∈ s := by
    intro width s
    refine ⟨fun h => (mem_padRight h).resolve_right (by decide), ?_⟩
    exact fun h => (prefix_padRight width s).subset h
  have hlabel : '\n' ∉ portLabel p := by
    have hnumber : '\n' ∉ decimal p.port.toNat := by
      intro h
      exact absurd (printable_decimal _ _ h) (by decide)
    have hrest : '\n' ∉ "/".toList ++ p.protocol.display := by
      cases p.protocol <;> decide
    rw [portLabel, List.append_assoc, List.mem_append]
    exact not_or.2 ⟨hnumber, hrest⟩
  have hstate : '\n' ∉ p.state.display := by
    cases p.state <;> decide
  rw [portRow, List.mem_append, List.mem_append, List.mem_append, hpad, hpad, hpad]
  simp only [hlabel, hstate, false_or]

/-- The row of a port whose service comes from a banner. -/
theorem lf_mem_portRow_of_banner {p : PortResult} {banner : Text}
    (hp : p.service = some (serviceInfo p.port banner)) :
    '\n' ∈ portRow p ↔ SplitsRow banner := by
  have hname : '\n' ∉ serviceColumn p := by
    rw [serviceColumn, hp]
    exact (by decide : ∀ s ∈ serviceNames, '\n' ∉ s) _ (name_guess p.port (trimmedBanner banner))
  rw [lf_mem_portRow_iff, or_iff_right hname, SplitsRow]
  constructor
  · -- the column consists of the product, a blank and the version
    intro h
    rw [← lf_mem_guess_iff p.port]
    rw [versionColumn, hp] at h
    dsimp only [serviceInfo] at h
    unfold Guess.texts textsOf
    cases hproduct : (guessFromBanner p.port (trimmedBanner banner)).product with
    | none =>
        rw [hproduct] at h
        cases h
    | some prod =>
        cases hversion : (guessFromBanner p.port (trimmedBanner banner)).version with
        | none =>
            rw [hproduct, hversion] at h
            exact List.mem_append_left _ h
        | some v =>
            rw [hproduct, hversion] at h
            rcases List.mem_append.1 h with h | h
            · rcases List.mem_append.1 h with h | h
              · exact List.mem_append_left _ h
              · exact absurd h (by decide)
            · exact List.mem_append_right _ h
  · rintro ⟨hserver, v, hv, hlf⟩
    rw [versionColumn, hp]
    dsimp only [serviceInfo]
    rw [guess_of_mySqlVersion hv hserver p.port]
    exact List.mem_append_right _ hlf

/-- A row without a service. -/
theorem lf_notMem_portRow {p : PortResult} (hp : p.service = none) : '\n' ∉ portRow p := by
  rw [lf_mem_portRow_iff, serviceColumn, versionColumn, hp]
  decide

/-! ### Reports -/

/-- The table of a host is one line per port exactly when no row of it is split. -/
theorem portTables_iff (fmt : Formats) (r : ScanReport) (onlyOpen : Bool) :
    PortTables fmt r onlyOpen ↔
      ∀ h ∈ r.hosts, h.state = .up → ∀ p ∈ shownPorts onlyOpen h, '\n' ∉ portRow p := by
  constructor
  · intro htables h hh hup p hp
    obtain ⟨before, after, hhosts⟩ := List.append_of_mem hh
    have hshown := List.ne_nil_of_mem hp
    obtain ⟨body, hrender, hlines⟩ := htables before h after hhosts hup hshown
    -- what stands before and after the table determines it
    rw [renderNormal_of_split fmt hhosts hup hshown, List.append_left_inj,
      List.append_right_inj] at hrender
    rw [← hrender, portLines_tableRows_iff] at hlines
    exact hlines p hp
  · intro hrows before h after hhosts hup hshown
    have hh : h ∈ r.hosts := by simp [hhosts]
    exact ⟨tableRows (shownPorts onlyOpen h), renderNormal_of_split fmt hhosts hup hshown,
      (portLines_tableRows_iff _).2 (hrows h hh hup)⟩

theorem mem_ports_of_mem_shownPorts {onlyOpen : Bool} {h : HostResult} {p : PortResult}
    (hp : p ∈ shownPorts onlyOpen h) : p ∈ h.ports := by
  unfold shownPorts at hp
  split_ifs at hp
  · exact (List.mem_filter.1 hp).1
  · exact hp

/-- **Every table has one line per port** exactly when no shown port has a banner that splits its
row. -/
theorem port_tables_iff (fmt : Formats) (r : ScanReport) (onlyOpen : Bool) (hr : FromBanners r) :
    PortTables fmt r onlyOpen ↔
      ∀ h ∈ r.hosts, h.state = .up → ∀ p ∈ shownPorts onlyOpen h, ∀ banner,
        p.service = some (serviceInfo p.port banner) → ¬ SplitsRow banner := by
  rw [portTables_iff]
  refine forall₂_congr fun h hh => forall_congr' fun _ => forall₂_congr fun p hp => ?_
  constructor
  · intro hrow banner hbanner
    rwa [← lf_mem_portRow_of_banner hbanner]
  · intro hbanners
    cases hservice : p.service with
    | none => exact lf_notMem_portRow hservice
    | some svc =>
        obtain ⟨banner, rfl⟩ := hr h hh p (mem_ports_of_mem_shownPorts hp) svc hservice
        rw [lf_mem_portRow_of_banner hservice]
        exact hbanners banner hservice

/-- The report of a server that greets as MySQL, of version 8.0. -/
theorem port_tables_iff_mysql :
    FromBanners (sampleReport 3306 "J\x00\x00\x00\x0b8.0.36\x00".toList) ∧
      PortTables epochFormats (sampleReport 3306 "J\x00\x00\x00\x0b8.0.36\x00".toList) false := by
  refine ⟨fromBanners_sampleReport _ _, (port_tables_iff _ _ _ (fromBanners_sampleReport _ _)).2 ?_⟩
  intro h hh hup p hp banner hbanner
  obtain rfl := List.mem_singleton.1 hh
  obtain rfl := List.mem_singleton.1 hp
  rw [← lf_mem_portRow_of_banner hbanner, lf_mem_portRow_of_banner rfl]
  rintro ⟨-, v, hv, hlf⟩
  cases hv
  exact absurd hlf (by decide +kernel)

/-- A server whose MySQL version goes on in a line of its own forges the line of another port. -/
theorem forged_port_line :
    ¬ ∀ (fmt : Formats) (r : ScanReport) (onlyOpen : Bool), FromBanners r →
      PortTables fmt r onlyOpen := by
  intro h
  have htables := h epochFormats
    (sampleReport 3306 "J\x00\x00\x00\x0b8\n80/tcp    open         http".toList) false
    (fromBanners_sampleReport 3306 _)
  rw [portTables_iff] at htables
  have hrow := htables _ List.mem_cons_self rfl _ List.mem_cons_self
  rw [lf_mem_portRow_of_banner rfl] at hrow
  exact hrow ⟨by decide +kernel, _, rfl, by decide +kernel⟩

end Rnmap
