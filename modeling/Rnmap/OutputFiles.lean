/-
**The files written under a basename.**

With `-oA` a run writes its report in all three formats, each under the basename with the extension
of the format.  The extension is put on with `Path::with_extension`, which replaces the extension
the path has: a basename with a dot in its last component, such as one that ends with an address,
loses what stands behind its last dot.

Main definitions:

* `Rnmap.BasenameRun`, `Rnmap.BasenameRun.writes` — a run with `-oA` and what it writes;
* `Rnmap.BasenameRun.named` — the files named after the whole basename;
* `Rnmap.KeepsBasename` — the basenames that lose nothing.

Main results:

* `Rnmap.BasenameRun.writes_eq_named_iff` — when the files are named after the basename;
* `Rnmap.BasenameRun.share_iff` — when two runs write to the same file;
* `Rnmap.basename_files_iff` — **the files of a basename**, and that distinct basenames that lose
  nothing have no file in common;
* `Rnmap.basename_overwritten` — the scans of two hosts that overwrite one another.
-/

import Rnmap.UnixPath
import Rnmap.JsonOutput
import Rnmap.NormalOutput
import Rnmap.XmlOutput

set_option relaxedAutoImplicit false
set_option autoImplicit false

namespace Rnmap

open UnixPath

/-! ### The writes -/

/-- A run that has come to its report and writes it under a basename. -/
structure BasenameRun where
  fmt : Formats
  serde : Serde
  report : ScanReport
  onlyOpen : Bool
  oA : Text

namespace BasenameRun

/-- The writes of `-oA`: paths and contents. -/
def writes (run : BasenameRun) : List (Text × Text) :=
  [(withExtension run.oA "nmap".toList, renderNormal run.fmt run.report run.onlyOpen),
    (withExtension run.oA "xml".toList, renderXml run.fmt run.report run.onlyOpen),
    (withExtension run.oA "json".toList, renderJson run.serde run.report run.onlyOpen)]

/-- The reports under the whole basename and the extension of their format. -/
def named (run : BasenameRun) : List (Text × Text) :=
  [(run.oA ++ '.' :: "nmap".toList, renderNormal run.fmt run.report run.onlyOpen),
    (run.oA ++ '.' :: "xml".toList, renderXml run.fmt run.report run.onlyOpen),
    (run.oA ++ '.' :: "json".toList, renderJson run.serde run.report run.onlyOpen)]

/-- Two runs write to the same file. -/
def Share (run run' : BasenameRun) : Prop :=
  ∃ f ∈ run.writes, ∃ g ∈ run'.writes, location f.1 = location g.1

/-- The extensions of the formats. -/
def extensions : List Text := ["nmap".toList, "xml".toList, "json".toList]

theorem extensions_plain : ∀ e ∈ extensions, e ≠ [] ∧ '/' ∉ e ∧ '.' ∉ e := by decide

/-- **When the files are named after the basename.** -/
theorem writes_eq_named_iff {run : BasenameRun} {name : Text}
    (hname : fileName run.oA = some name) :
    run.writes = run.named ↔ name <:+ run.oA ∧ '.' ∉ name.tail := by
  have happend : ∀ e ∈ extensions,
      (withExtension run.oA e = run.oA ++ '.' :: e ↔ name <:+ run.oA ∧ '.' ∉ name.tail) :=
    fun e hext => withExtension_eq_append_iff hname (extensions_plain e hext).1
  constructor
  · intro h
    have hfirst := (Prod.mk.inj (List.cons.inj h).1).1
    exact (happend _ (by simp [extensions])).1 hfirst
  · intro h
    rw [writes, (happend _ (by simp [extensions])).2 h, (happend _ (by simp [extensions])).2 h,
      (happend _ (by simp [extensions])).2 h]
    rfl

/-- **When two runs write to the same file**: their basenames are in the same directory and have
the same file stem. -/
theorem share_iff {run run' : BasenameRun} {name name' : Text}
    (hname : fileName run.oA = some name) (hname' : fileName run'.oA = some name') :
    Share run run' ↔ location (parent run.oA) = location (parent run'.oA) ∧
      fileStem name = fileStem name' := by
  have hloc : ∀ e ∈ extensions, ∀ e' ∈ extensions,
      (location (withExtension run.oA e) = location (withExtension run'.oA e') ↔
        location (parent run.oA) = location (parent run'.oA) ∧ fileStem name = fileStem name' ∧
          e = e') := by
    intro e hext e' hext'
    obtain ⟨hne, hslash, hdot⟩ := extensions_plain e hext
    obtain ⟨hne', hslash', hdot'⟩ := extensions_plain e' hext'
    exact location_withExtension_eq_iff hname hname' hne hne' hslash hslash' hdot hdot'
  constructor
  · rintro ⟨f, hf, g, hg, heq⟩
    have hf' : f.1 ∈ extensions.map (withExtension run.oA) := List.mem_map_of_mem hf
    have hg' : g.1 ∈ extensions.map (withExtension run'.oA) := List.mem_map_of_mem hg
    obtain ⟨e, hext, hfst⟩ := List.mem_map.1 hf'
    obtain ⟨e', hext', hfst'⟩ := List.mem_map.1 hg'
    rw [← hfst, ← hfst'] at heq
    obtain ⟨hdir, hstem, -⟩ := (hloc e hext e' hext').1 heq
    exact ⟨hdir, hstem⟩
  · rintro ⟨hdir, hstem⟩
    have hnmap : "nmap".toList ∈ extensions := List.mem_cons_self
    exact ⟨_, List.mem_cons_self, _, List.mem_cons_self,
      (hloc _ hnmap _ hnmap).2 ⟨hdir, hstem, rfl⟩⟩

end BasenameRun

/-! ### Basenames that lose nothing -/

/-- A basename that ends with its file name, which has no dot behind its first character. -/
def KeepsBasename (p : Text) : Prop :=
  ∃ name, fileName p = some name ∧ name <:+ p ∧ '.' ∉ name.tail

/-- Basenames that lose nothing and lead to different places have no file in common. -/
theorem BasenameRun.not_share {run run' : BasenameRun} (h : KeepsBasename run.oA)
    (h' : KeepsBasename run'.oA) (hne : location run.oA ≠ location run'.oA) :
    ¬ run.Share run' := by
  obtain ⟨name, hname, hsuffix, hdot⟩ := h
  obtain ⟨name', hname', hsuffix', hdot'⟩ := h'
  intro hshare
  obtain ⟨hdir, hstem⟩ := (share_iff hname hname').1 hshare
  rw [(fileStem_eq_self_iff name).2 hdot, (fileStem_eq_self_iff name').2 hdot'] at hstem
  subst hstem
  obtain ⟨hfile, hbody⟩ := fileName_eq_some hname
  obtain ⟨hfile', hbody'⟩ := fileName_eq_some hname'
  rw [body_eq_self hfile hsuffix] at hbody
  rw [body_eq_self hfile' hsuffix'] at hbody'
  apply hne
  rw [← hbody, ← hbody', location_append (parent_eq_nil_or _) hfile,
    location_append (parent_eq_nil_or _) hfile', hdir]

/-- **The files of a basename** are named after it exactly when it loses nothing.  Two runs write to
the same file exactly when their basenames agree up to the last inner dots, and so runs with
basenames that lose nothing and lead to different places never do. -/
theorem basename_files_iff (run : BasenameRun) {name : Text} (hname : fileName run.oA = some name) :
    (run.writes = run.named ↔ name <:+ run.oA ∧ '.' ∉ name.tail) ∧
      ∀ (run' : BasenameRun) (name' : Text), fileName run'.oA = some name' →
        (run.Share run' ↔ location (parent run.oA) = location (parent run'.oA) ∧
          fileStem name = fileStem name') ∧
        (KeepsBasename run.oA → KeepsBasename run'.oA → location run.oA ≠ location run'.oA →
          ¬ run.Share run') :=
  ⟨BasenameRun.writes_eq_named_iff hname, fun _ _ hname' =>
    ⟨BasenameRun.share_iff hname hname', BasenameRun.not_share⟩⟩

/-- A run with some report and a basename. -/
def BasenameRun.sample (oA : Text) : BasenameRun :=
  ⟨epochFormats, ⟨fun _ => [], fun _ => .ok []⟩, sampleReport 80 [], false, oA⟩

/-- The files of `scans/home` are named after it, and `scans/office` shares none of them. -/
theorem basename_files_iff_home :
    fileName "scans/home".toList = some "home".toList ∧
      (BasenameRun.sample "scans/home".toList).writes =
        (BasenameRun.sample "scans/home".toList).named ∧
      ¬ (BasenameRun.sample "scans/home".toList).Share
        (BasenameRun.sample "scans/office".toList) := by
  have hname : fileName "scans/home".toList = some "home".toList := by decide
  have hname' : fileName "scans/office".toList = some "office".toList := by decide
  have hsuffix : "home".toList <:+ "scans/home".toList := by decide
  have hsuffix' : "office".toList <:+ "scans/office".toList := by decide
  obtain ⟨hfiles, hruns⟩ :=
    basename_files_iff (BasenameRun.sample "scans/home".toList) hname
  refine ⟨hname, hfiles.2 ⟨hsuffix, by decide⟩, ?_⟩
  exact (hruns (.sample "scans/office".toList) _ hname').2 ⟨_, hname, hsuffix, by decide⟩
    ⟨_, hname', hsuffix', by decide⟩ (by decide)

/-- The scans of `192.168.0.1` and `192.168.0.2`, each under a basename that ends with its address,
are both written to `scan-192.168.0.nmap`, `.xml` and `.json`. -/
theorem basename_overwritten :
    (¬ ∀ (run : BasenameRun) (name : Text), fileName run.oA = some name → name <:+ run.oA →
      run.writes = run.named) ∧
    ¬ ∀ (run run' : BasenameRun) (name name' : Text), fileName run.oA = some name →
      name <:+ run.oA → fileName run'.oA = some name' → name' <:+ run'.oA →
      location run.oA ≠ location run'.oA → ¬ run.Share run' := by
  have hfirst : fileName "scan-192.168.0.1".toList = some "scan-192.168.0.1".toList := by decide
  have hsecond : fileName "scan-192.168.0.2".toList = some "scan-192.168.0.2".toList := by decide
  constructor
  · intro h
    have hnamed := h (.sample "scan-192.168.0.1".toList) _ hfirst List.suffix_rfl
    exact absurd ((BasenameRun.writes_eq_named_iff hfirst).1 hnamed).2 (by decide)
  · intro h
    refine h (.sample "scan-192.168.0.1".toList) (.sample "scan-192.168.0.2".toList) _ _ hfirst
      List.suffix_rfl hsecond List.suffix_rfl ?_ ?_
    · decide
    · exact (BasenameRun.share_iff hfirst hsecond).2 ⟨by decide, by decide⟩

end Rnmap
