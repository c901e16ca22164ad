/-
**The server line of an HTTP response.**

The HTTP stage searches the whole response for a line that starts with `Server:`, and lets white
space after the colon run over the ends of lines.  So the product and the version come from what
follows the first such line, wherever it stands: from its value when that is not blank, and
otherwise from whatever comes next.

Main definitions:

* `Rnmap.serverTail` — what follows the first `Server:` at the start of a line;
* `Rnmap.serverValue` — the value on the first `Server:` line of the header block;
* `Rnmap.serverDetail` — product and version of a value.

Main results:

* `Rnmap.search_lines` — the search of an expression for starts of lines, line by line;
* `Rnmap.guess_of_response` — **what is guessed of a response**;
* `Rnmap.from_server_line_iff` — **when it comes from the server line of the header**.
-/

import Rnmap.Service

set_option relaxedAutoImplicit false
set_option autoImplicit false

namespace Rnmap

open Text ClassRegex

/-! ### Definitions -/

/-- All characters are white space. -/
def AllBlank (s : Text) : Prop := ∀ c ∈ s, isWhitespace c = true

/-- The characters of `Server:`, in any letter case. -/
def serverChars : List (Char → Bool) :=
  [fun c => c == 'S' || c == 's' || c == 'ſ', fun c => c == 'E' || c == 'e',
    fun c => c == 'R' || c == 'r', fun c => c == 'V' || c == 'v', fun c => c == 'E' || c == 'e',
    fun c => c == 'R' || c == 'r', (· == ':')]

/-- What follows `Server:` at the start of a line. -/
def afterServer (l : Text) : Option Text := skipClasses serverChars l

/-- What follows the first `Server:` at the start of some line, up to the end of the text. -/
def serverTail : List Text → Option Text
  | [] => none
  | l :: ls => ((afterServer l).map fun v => ['\n'].intercalate (v :: ls)).or (serverTail ls)

/-- A line of the header block is blank when it is empty, but for a carriage return. -/
def isBlankLine (l : Text) : Bool := l == [] || l == ['\r']

/-- The header block: the lines before the first blank one. -/
def headerLines (banner : Text) : List Text :=
  (banner.splitOn '\n').takeWhile fun l => !isBlankLine l

/-- The value on the first `Server:` line of the header block. -/
def serverValue (banner : Text) : Option Text := (headerLines banner).findSome? afterServer

/-- The product and the version in the text after a `Server:`. -/
def serverText (u : Text) : Option Text × Option Text :=
  splitProductVersion (trim ((u.dropWhile isWhitespace).takeWhile notCrLf))

/-- The product and the version in a value, or nothing when there is none. -/
def serverDetail (value : Option Text) : Option Text × Option Text :=
  (value.map serverText).getD (none, none)

theorem serverDetail_some (u : Text) : serverDetail (some u) = serverText u := by
  rw [serverDetail, Option.map_some, Option.getD_some]

/-! ### Blank texts -/

theorem dropWhile_of_allBlank {s : Text} (h : AllBlank s) : s.dropWhile isWhitespace = [] :=
  List.dropWhile_eq_nil_iff.2 h

theorem trim_of_allBlank {s : Text} (h : AllBlank s) : trim s = [] := by
  rw [trim, dropWhile_of_allBlank h]
  rfl

/-- The first character that is not white space. -/
theorem exists_cons_of_not_allBlank {s : Text} (h : ¬ AllBlank s) :
    ∃ c t, s.dropWhile isWhitespace = c :: t ∧ isWhitespace c = false := by
  cases hdrop : s.dropWhile isWhitespace with
  | nil => exact absurd (List.dropWhile_eq_nil_iff.1 hdrop) h
  | cons c t =>
      refine ⟨c, t, rfl, ?_⟩
      have hne : s.dropWhile isWhitespace ≠ [] := by
        rw [hdrop]
        exact List.cons_ne_nil c t
      simpa [hdrop] using List.head_dropWhile_not isWhitespace hne

theorem notCrLf_of_not_isWhitespace {c : Char} (h : isWhitespace c = false) : notCrLf c = true := by
  have hcr : c ≠ '\r' := by
    rintro rfl
    cases h
  have hlf : c ≠ '\n' := by
    rintro rfl
    cases h
  simp [notCrLf, hcr, hlf]

/-- Trimming keeps a first character that is not white space. -/
theorem exists_trim_cons {c : Char} (h : isWhitespace c = false) (t : Text) :
    ∃ t', trim (c :: t) = c :: t' := by
  have hdrop : (c :: t).dropWhile isWhitespace = c :: t := List.dropWhile_cons_of_neg (by simp [h])
  rw [trim, hdrop]
  obtain ⟨rest, hrest⟩ := List.rdropWhile_prefix isWhitespace (c :: t)
  cases hkept : (c :: t).rdropWhile isWhitespace with
  | nil =>
      have hblank := List.rdropWhile_eq_nil_iff.1 hkept c List.mem_cons_self
      rw [h] at hblank
      cases hblank
  | cons d t' =>
      rw [hkept] at hrest
      obtain ⟨rfl, -⟩ := List.cons.inj hrest
      exact ⟨t', rfl⟩

/-- **The text after a `Server:` has no product** exactly when it is blank. -/
theorem serverText_eq_none_iff {u : Text} : serverText u = (none, none) ↔ AllBlank u := by
  unfold serverText
  rw [splitProductVersion_eq_none_iff]
  constructor
  · intro h
    by_contra hnot
    obtain ⟨c, t, hdrop, hc⟩ := exists_cons_of_not_allBlank hnot
    rw [hdrop, List.takeWhile_cons_of_pos (notCrLf_of_not_isWhitespace hc)] at h
    obtain ⟨t', htrim⟩ := exists_trim_cons hc (t.takeWhile notCrLf)
    obtain ⟨t'', htrim'⟩ := exists_trim_cons hc t'
    rw [htrim, htrim'] at h
    cases h
  · intro h
    rw [dropWhile_of_allBlank h]
    rfl

/-! ### The search, line by line -/

/-- Inside a line there is no match. -/
theorem search_inside {re : Regex Char} (hre : re.anchor = lineStart) {c : Char} (hc : c ≠ '\n')
    {l : Text} (hl : '\n' ∉ l) (rest : Text) :
    re.search (some c) (l ++ '\n' :: rest) = re.search (some '\n') rest ∧
      re.search (some c) l = none := by
  have hnone : ∀ {c : Char} (s : Text), c ≠ '\n' → re.matchAt (some c) s = none := by
    intro c s hc
    have hstart : lineStart (some c) = false := by simp [lineStart, hc]
    rw [Regex.matchAt, hre, hstart]
    rfl
  induction l generalizing c with
  | nil =>
      refine ⟨?_, hnone [] hc⟩
      rw [List.nil_append, Regex.search, hnone _ hc, Option.none_or]
  | cons d l ih =>
      obtain ⟨hd, hl⟩ := List.ne_and_not_mem_of_not_mem_cons hl
      obtain ⟨hline, hlast⟩ := ih (Ne.symm hd) hl
      rw [List.cons_append, Regex.search, Regex.search, hnone _ hc, hnone _ hc, Option.none_or,
        Option.none_or]
      exact ⟨hline, hlast⟩

/-- At a line there is a match at its start or further down. -/
theorem search_line {re : Regex Char} (hre : re.anchor = lineStart) {prev : Option Char}
    (hprev : lineStart prev = true) {l : Text} (hl : '\n' ∉ l) (rest : Text) :
    re.search prev (l ++ '\n' :: rest) =
        (matchPieces re.pieces (l ++ '\n' :: rest)).or (re.search (some '\n') rest) ∧
      re.search prev l = matchPieces re.pieces l := by
  have hmatch : ∀ s, re.matchAt prev s = matchPieces re.pieces s := by
    intro s
    rw [Regex.matchAt, hre, if_pos hprev]
  cases l with
  | nil => exact ⟨by rw [List.nil_append, Regex.search, hmatch], hmatch []⟩
  | cons d l =>
      obtain ⟨hd, hl⟩ := List.ne_and_not_mem_of_not_mem_cons hl
      obtain ⟨hline, hlast⟩ := search_inside hre (Ne.symm hd) hl rest
      rw [List.cons_append, Regex.search, Regex.search, hmatch, hmatch, hline, hlast,
        Option.or_none]
      exact ⟨rfl, rfl⟩

/-- The first match at the start of a line. -/
def lineMatches (re : Regex Char) : List Text → Option (List Text)
  | [] => none
  | l :: ls => (matchPieces re.pieces (['\n'].intercalate (l :: ls))).or (lineMatches re ls)

/-- **The search of an expression for starts of lines**, line by line. -/
theorem search_lines {re : Regex Char} (hre : re.anchor = lineStart) {prev : Option Char}
    (hprev : lineStart prev = true) {l : Text} {ls : List Text} (hls : ∀ x ∈ l :: ls, '\n' ∉ x) :
    re.search prev (['\n'].intercalate (l :: ls)) = lineMatches re (l :: ls) := by
  induction ls generalizing l prev with
  | nil =>
      rw [lineMatches, lineMatches, Option.or_none, List.intercalate_singleton]
      exact (search_line hre hprev (hls l List.mem_cons_self) []).2
  | cons l' ls ih =>
      obtain ⟨hl, hls⟩ := List.forall_mem_cons.1 hls
      have hcat : ['\n'].intercalate (l :: l' :: ls) =
          l ++ '\n' :: ['\n'].intercalate (l' :: ls) := by
        rw [List.intercalate_cons_cons, List.append_assoc]
        rfl
      rw [lineMatches, hcat, (search_line hre hprev hl _).1, ih rfl hls]

/-! ### The server line -/

theorem httpServer_pieces :
    httpServer.pieces = (serverChars.map (fun f => ⟨0, .one, f⟩) ++
      [⟨0, .star, isWhitespace⟩]) ++ [⟨1, .plus, notCrLf⟩] := rfl

/-- The lines after a `Server:` stay as they are. -/
theorem afterServer_intercalate (l : Text) (ls : List Text) :
    afterServer (['\n'].intercalate (l :: ls)) =
      (afterServer l).map fun v => ['\n'].intercalate (v :: ls) := by
  cases ls with
  | nil => simp [List.intercalate_singleton]
  | cons l' ls =>
      have hlf : ∀ f ∈ serverChars, f '\n' = false := by
        simp [serverChars]
      simp only [List.intercalate_cons_cons, List.append_assoc, List.singleton_append]
      exact skipClasses_append hlf l _

/-- No blank line is a server line. -/
theorem afterServer_of_allBlank {l : Text} (h : AllBlank l) : afterServer l = none := by
  cases l with
  | nil => rfl
  | cons c l =>
      have hc := h c List.mem_cons_self
      have hne : (c == 'S' || c == 's' || c == 'ſ') = false := by
        rw [Bool.eq_false_iff]
        intro heq
        simp only [Bool.or_eq_true, beq_iff_eq] at heq
        rcases heq with (rfl | rfl) | rfl <;> cases hc
      rw [afterServer, serverChars, skipClasses, hne, if_neg Bool.false_ne_true]

theorem serverTail_of_allBlank {ls : List Text} (h : ∀ l ∈ ls, AllBlank l) :
    serverTail ls = none := by
  induction ls with
  | nil => rfl
  | cons l ls ih =>
      obtain ⟨hl, hls⟩ := List.forall_mem_cons.1 h
      rw [serverTail, afterServer_of_allBlank hl, ih hls]
      rfl

theorem allBlank_intercalate {ls : List Text} (h : AllBlank (['\n'].intercalate ls)) :
    ∀ l ∈ ls, AllBlank l := by
  induction ls with
  | nil => exact fun l hl => nomatch hl
  | cons l ls ih =>
      cases ls with
      | nil =>
          rw [List.intercalate_singleton] at h
          exact List.forall_mem_singleton.2 h
      | cons l' ls =>
          rw [List.intercalate_cons_cons] at h
          refine List.forall_mem_cons.2 ⟨fun c hc => h c (by simp [hc]), ih fun c hc => ?_⟩
          exact h c (List.mem_append_right _ hc)

/-- What the two last pieces capture in the text after a `Server:`. -/
def captured (u : Text) : Option Text :=
  (matchPieces [⟨0, .star, isWhitespace⟩, ⟨1, .plus, notCrLf⟩] u).map fun m => m.getD 1 []

/-- A match at a line captures what stands after its `Server:`. -/
theorem group_line (l : Text) (ls : List Text) :
    (matchPieces httpServer.pieces (['\n'].intercalate (l :: ls))).map (httpServer.group 1) =
      ((afterServer l).map fun v => ['\n'].intercalate (v :: ls)).bind captured := by
  rw [← afterServer_intercalate]
  refine (Regex.map_group_last (p := ⟨1, .plus, notCrLf⟩) httpServer_pieces ?_ _).trans ?_
  · decide
  · exact getD_matchPieces_ones 0 serverChars [⟨0, .star, isWhitespace⟩, ⟨1, .plus, notCrLf⟩] 1 _

/-- Where something is not blank, the first line of that is captured. -/
theorem captured_of_not_allBlank {u : Text} (h : ¬ AllBlank u) :
    captured u = some ((u.dropWhile isWhitespace).takeWhile notCrLf) := by
  obtain ⟨c, t, hdrop, hc⟩ := exists_cons_of_not_allBlank h
  have hline : (u.dropWhile isWhitespace).takeWhile notCrLf ≠ [] := by
    rw [hdrop, List.takeWhile_cons_of_pos (notCrLf_of_not_isWhitespace hc)]
    exact List.cons_ne_nil c _
  rw [captured, matchPieces_star _ rfl (matchPieces_last ⟨1, .plus, notCrLf⟩ rfl hline)]
  rfl

/-- Of a blank text only white space is captured. -/
theorem allBlank_of_captured {u g : Text} (h : AllBlank u) (hg : captured u = some g) :
    AllBlank g := by
  obtain ⟨m, hm, rfl⟩ := Option.map_eq_some_iff.1 hg
  obtain ⟨hfits, hpre⟩ := fits_of_matchPieces hm
  cases hfits with
  | cons _ hrest =>
      cases hrest with
      | cons _ hnil =>
          cases hnil
          intro c hc
          refine h c (hpre.subset ?_)
          rw [List.flatten_cons, List.flatten_cons]
          exact List.mem_append_right _ (List.mem_append_left _ hc)

/-- The product and the version found in the lines of a response are those in the text after the
first `Server:` at the start of a line. -/
theorem splitDetail_lines (ls : List Text) :
    splitDetail ((lineMatches httpServer ls).map fun m => trim (httpServer.group 1 m)) =
      serverDetail (serverTail ls) := by
  induction ls with
  | nil => rfl
  | cons l ls ih =>
      have hgroup := group_line l ls
      rw [lineMatches, serverTail]
      cases hafter : afterServer l with
      | none =>
          rw [hafter, Option.map_none, Option.bind_none, Option.map_eq_none_iff] at hgroup
          rw [hgroup, Option.none_or, Option.map_none, Option.none_or, ih]
      | some v =>
          rw [hafter, Option.map_some, Option.bind_some] at hgroup
          rw [Option.map_some, Option.some_or, serverDetail, Option.map_some, Option.getD_some]
          by_cases hblank : AllBlank (['\n'].intercalate (v :: ls))
          · rw [serverText_eq_none_iff.2 hblank]
            cases hm : matchPieces httpServer.pieces (['\n'].intercalate (l :: ls)) with
            | none =>
                -- the lines that follow are blank too
                have hls := serverTail_of_allBlank
                  (List.forall_mem_cons.1 (allBlank_intercalate hblank)).2
                rw [Option.none_or, ih, hls]
                rfl
            | some m =>
                rw [hm, Option.map_some] at hgroup
                have hg := trim_of_allBlank (allBlank_of_captured hblank hgroup.symm)
                rw [Option.some_or, Option.map_some, hg]
                rfl
          · rw [captured_of_not_allBlank hblank] at hgroup
            obtain ⟨m, hm, hg⟩ := Option.map_eq_some_iff.1 hgroup
            rw [hm, Option.some_or, Option.map_some, hg]
            rfl

/-! ### What is guessed of a response -/

/-- **What the HTTP stage finds**: the product and the version in the text after the first `Server:`
at the start of a line. -/
theorem found_httpStage (banner : Text) :
    httpStage.found banner = serverDetail (serverTail (banner.splitOn '\n')) := by
  rw [← splitDetail_lines]
  change splitDetail ((httpServer.captures banner).map _) = _
  obtain ⟨l, ls, hlines⟩ := List.exists_cons_of_ne_nil (List.splitOn_ne_nil '\n' banner)
  have hsearch : httpServer.search none (['\n'].intercalate (l :: ls)) =
      lineMatches httpServer (l :: ls) :=
    search_lines rfl rfl fun x hx => notMem_of_mem_splitOn (hlines ▸ hx : x ∈ banner.splitOn '\n')
  rw [← hlines, List.intercalate_splitOn] at hsearch
  rw [Regex.captures, hsearch]

/-- A response: a banner that starts with `HTTP/`. -/
def response (rest : Text) : Text := "HTTP/".toList ++ rest

/-- **What is guessed of a response**: HTTP, with the product and the version in the text after the
first `Server:` at the start of a line. -/
theorem guess_of_response (port : UInt16) (rest : Text) :
    guessFromBanner port (response rest) =
      ⟨"http".toList, (serverDetail (serverTail ((response rest).splitOn '\n'))).1,
        (serverDetail (serverTail ((response rest).splitOn '\n'))).2⟩ := by
  have hssh : ssh.isMatch (response rest) = false :=
    not_isMatch_of_second ssh rfl rfl rfl rfl (by decide : ('T' == 'S') = false)
  have hhttp : isHttp (response rest) = true := by
    have hprefix : "HTTP/".toList.isPrefixOf (response rest) = true :=
      List.isPrefixOf_iff_prefix.2 (List.prefix_append _ _)
    rw [isHttp, hprefix]
    rfl
  rw [guess_of_find (find_httpStage port hssh hhttp), found_httpStage]
  rfl

/-! ### The header block -/

/-- The value of the header is what follows the first `Server:` up to the end of its line. -/
theorem serverTail_of_header {ls : List Text} {v : Text}
    (h : (ls.takeWhile fun l => !isBlankLine l).findSome? afterServer = some v) :
    ∃ rest, serverTail ls = some (['\n'].intercalate (v :: rest)) := by
  induction ls with
  | nil => cases h
  | cons l ls ih =>
      rw [List.takeWhile_cons] at h
      split_ifs at h with hblank
      · rw [List.findSome?_cons] at h
        rw [serverTail]
        cases hafter : afterServer l with
        | none =>
            rw [hafter] at h
            exact ih h
        | some w =>
            rw [hafter] at h
            cases h
            exact ⟨ls, rfl⟩
      · cases h

/-- A value that is not blank decides, whatever follows it. -/
theorem serverText_of_not_allBlank {v : Text} (h : ¬ AllBlank v) (rest : List Text) :
    serverText (['\n'].intercalate (v :: rest)) = serverText v := by
  obtain ⟨c, t, hdrop, hc⟩ := exists_cons_of_not_allBlank h
  cases rest with
  | nil => rw [List.intercalate_singleton]
  | cons l ls =>
      have hvalue : (v ++ '\n' :: ['\n'].intercalate (l :: ls)).dropWhile isWhitespace =
          v.dropWhile isWhitespace ++ '\n' :: ['\n'].intercalate (l :: ls) := by
        rw [List.dropWhile_append]
        simp [hdrop]
      have hline : ∀ s u : Text, (s ++ '\n' :: u).takeWhile notCrLf = s.takeWhile notCrLf := by
        intro s u
        induction s with
        | nil => rfl
        | cons d s ih => rw [List.cons_append, List.takeWhile_cons, List.takeWhile_cons, ih]
      simp only [List.intercalate_cons_cons, List.append_assoc, List.singleton_append]
      rw [serverText, serverText, hvalue, hline]

/-- The product and the version guessed come from the value on the first `Server:` line of the
header block, and are missing when there is none or it is blank. -/
def FromServerLine (port : UInt16) (banner : Text) : Prop :=
  ((guessFromBanner port banner).product, (guessFromBanner port banner).version) =
    serverDetail (serverValue banner)

/-- **When the guess comes from the server line of the header**: when its value is not blank, or
nothing but white space follows the first `Server:` at the start of any line. -/
theorem from_server_line_iff (port : UInt16) (rest : Text) :
    FromServerLine port (response rest) ↔
      (∃ v, serverValue (response rest) = some v ∧ ¬ AllBlank v) ∨
        ∀ u, serverTail ((response rest).splitOn '\n') = some u → AllBlank u := by
  unfold FromServerLine
  rw [guess_of_response]
  change serverDetail (serverTail ((response rest).splitOn '\n')) = _ ↔ _
  have hmissing : serverDetail (serverTail ((response rest).splitOn '\n')) = (none, none) ↔
      ∀ u, serverTail ((response rest).splitOn '\n') = some u → AllBlank u := by
    cases htail : serverTail ((response rest).splitOn '\n') with
    | none => exact iff_of_true rfl fun u hu => nomatch hu
    | some u =>
        rw [serverDetail_some, serverText_eq_none_iff]
        constructor
        · rintro hu _ ⟨⟩
          exact hu
        · exact fun hu => hu u rfl
  cases hvalue : serverValue (response rest) with
  | none =>
      rw [show serverDetail none = (none, none) from rfl, hmissing]
      exact ⟨.inr, fun h => h.resolve_left fun ⟨v, hv, _⟩ => nomatch hv⟩
  | some v =>
      by_cases hv : AllBlank v
      · have hblank : serverDetail (some v) = (none, none) := by
          rw [serverDetail_some, serverText_eq_none_iff]
          exact hv
        rw [hblank, hmissing]
        refine ⟨.inr, fun h => h.resolve_left ?_⟩
        rintro ⟨_, ⟨⟩, hne⟩
        exact hne hv
      · obtain ⟨ls, hls⟩ := serverTail_of_header hvalue
        refine iff_of_true ?_ (.inl ⟨v, rfl, hv⟩)
        rw [hls, serverDetail_some, serverDetail_some]
        exact serverText_of_not_allBlank hv ls

/-- An empty `Server:` line hands over to the line after it. -/
theorem blank_server_line :
    ¬ FromServerLine 80
      (response "1.1 200 OK\r\nServer:\r\nX-Powered-By: PHP/8.1\r\n\r\n".toList) := by
  unfold FromServerLine
  decide +kernel

end Rnmap
