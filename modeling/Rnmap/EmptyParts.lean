/-
**Empty products and versions.**

The software of an SSH banner, the server line of an HTTP response and the text of a greeting `220`
are split into a product and a version at their first underscore, or else their first slash.  A
text that starts with its separator gets an empty product, and one that has its only separator at
the end an empty version.

Main definitions:

* `Rnmap.sshSoftware`, `Rnmap.serverLine`, `Rnmap.greetingText` — the texts that are split, read
  off the banner;
* `Rnmap.detailOf` — the text of a banner that is split, if there is one;
* `Rnmap.shownText` — the part of a banner that is shown, read off its text;
* `Rnmap.SeparatorInside` — the separator of a text, if it has one, is neither its start nor its
  end;
* `Rnmap.Guess.Reportable` — no product or version is empty, and a version comes with a product.

Main results:

* `Rnmap.ssh_captures_eq`, `Rnmap.found_httpStage`, `Rnmap.ftp_captures_eq` — what the signatures
  capture;
* `Rnmap.shownDetail_eq` — the part shown is what they capture;
* `Rnmap.reportable_splitProductVersion_iff` — when splitting a text leaves no empty part;
* `Rnmap.reportable_guess_iff` — **when no empty product or version is reported**.
-/

import Rnmap.ServerHeader
import Rnmap.ProductVersion

set_option relaxedAutoImplicit false
set_option autoImplicit false

namespace Rnmap

open Text ClassRegex

/-! ### The texts that are split -/

/-- What follows a number and the character behind it. -/
def afterNumber (c : Char) (s : Text) : Option Text :=
  (leadingRun isDecimalDigit s).bind fun _ =>
    skipClasses [(· == c)] (s.dropWhile isDecimalDigit)

/-- The software in an SSH banner: what stands behind the version of the protocol, up to the next
white space. -/
def sshSoftware (banner : Text) : Option Text :=
  (skipClasses ("SSH-".toList.map fun c => (· == c)) banner).bind fun s =>
    (afterNumber '.' s).bind fun t =>
      (afterNumber '-' t).bind (leadingRun fun c => !isWhitespace c && notCrLf c)

/-- The line that follows the first `Server:` at the start of a line, white space aside. -/
def serverLine (banner : Text) : Option Text :=
  (serverTail (banner.splitOn '\n')).map fun u => (u.dropWhile isWhitespace).takeWhile notCrLf

/-- A line that has nothing but `Server:` on it leads on to the next. -/
example : serverLine "HTTP/1.1 200 OK\r\nServer:\r\nX-Powered-By: PHP/8\r\n\r\n".toList =
    some "X-Powered-By: PHP/8".toList := by decide +kernel

/-- The text of a greeting `220`, up to the end of the line. -/
def greetingText (banner : Text) : Option Text :=
  (skipClasses [(· == '2'), (· == '2'), (· == '0'), fun c => c == ' ' || c == '-'] banner).bind
    (leadingRun anyButLf)

/-- The text of a banner that is split into a product and a version. -/
def detailOf (banner : Text) : Option Text :=
  match sshSoftware banner with
  | some s => some s
  | none => if isHttp banner then serverLine banner else greetingText banner

/-- The part of a banner that is shown: of the text that is split, and of a MySQL greeting that is
not taken for HTTP the version up to its first dash. -/
def shownText (banner : Text) : Text :=
  match detailOf banner with
  | some s => shownPart s
  | none =>
      if isHttp banner then []
      else ((mySqlVersion banner).map fun v => v.takeWhile (· != '-')).getD []

/-! ### What the signatures capture -/

theorem isDecimalDigit_disjoint {c : Char} (hc : isDecimalDigit c = false) (d : Char)
    (hd : isDecimalDigit d = true) : (d == c) = false := by
  rw [beq_eq_false_iff_ne]
  rintro rfl
  rw [hc] at hd
  cases hd

/-- **The SSH signature** captures the software. -/
theorem ssh_captures_eq (banner : Text) :
    (ssh.captures banner).map (fun m => ssh.group 2 m) = sshSoftware banner := by
  rw [Regex.captures_of_textStart rfl]
  have hpieces : ssh.pieces = ssh.pieces.take 8 ++
      [⟨2, .plus, fun c => !isWhitespace c && notCrLf c⟩] := rfl
  refine (Regex.map_group_last hpieces (by decide) banner).trans ?_
  refine (getD_matchPieces_ones 0 ("SSH-".toList.map fun c => (· == c)) (ssh.pieces.drop 4) 4
    banner).trans (congrArg _ (funext fun s => ?_))
  have hmajor := getD_matchPieces_plus ⟨1, .plus, isDecimalDigit⟩ rfl 1 (· == '.')
    (isDecimalDigit_disjoint (by decide)) (ssh.pieces.drop 6) 2 s
  refine hmajor.trans ?_
  rw [afterNumber, Option.bind_assoc]
  refine congrArg _ (funext fun _ => congrArg _ (funext fun t => ?_))
  have hminor := getD_matchPieces_plus ⟨1, .plus, isDecimalDigit⟩ rfl 0 (· == '-')
    (isDecimalDigit_disjoint (by decide)) (ssh.pieces.drop 8) 0 t
  refine hminor.trans ?_
  rw [afterNumber, Option.bind_assoc]
  refine congrArg _ (funext fun _ => congrArg _ (funext fun u => ?_))
  exact getD_matchPieces_last _ rfl u

/-- **The FTP signature** captures the text of a greeting. -/
theorem ftp_captures_eq (banner : Text) :
    (ftp.captures banner).map (fun m => ftp.group 1 m) = greetingText banner := by
  rw [Regex.captures_of_textStart rfl]
  have hpieces : ftp.pieces = ftp.pieces.take 4 ++ [⟨1, .plus, anyButLf⟩] := rfl
  refine (Regex.map_group_last hpieces (by decide) banner).trans ?_
  refine (getD_matchPieces_ones 0
    [(· == '2'), (· == '2'), (· == '0'), fun c => c == ' ' || c == '-'] (ftp.pieces.drop 4) 0
    banner).trans (congrArg _ (funext fun s => ?_))
  exact getD_matchPieces_last _ rfl s

theorem ssh_isMatch (banner : Text) : ssh.isMatch banner = (sshSoftware banner).isSome := by
  rw [← ssh_captures_eq, Option.isSome_map]
  rfl

theorem ftp_isMatch (banner : Text) : ftp.isMatch banner = (greetingText banner).isSome := by
  rw [← ftp_captures_eq, Option.isSome_map]
  rfl

theorem found_sshStage (banner : Text) :
    sshStage.found banner = splitDetail (sshSoftware banner) := by
  rw [← ssh_captures_eq]
  rfl

theorem found_ftpStage (banner : Text) :
    ftpStage.found banner = splitDetail ((greetingText banner).map trim) := by
  rw [← ftp_captures_eq, Option.map_map]
  rfl

/-- What splitting a text finds is the part of the text that is shown. -/
theorem textsOf_splitDetail_map (detail : Option Text) (f : Text → Text)
    (hf : ∀ s, shownPart (f s) = shownPart s) :
    textsOf (splitDetail (detail.map f)) = (detail.map shownPart).getD [] := by
  cases detail with
  | none => rfl
  | some s => exact (textsOf_splitProductVersion (f s)).trans (hf s)

theorem shownPart_trim (s : Text) : shownPart (trim s) = shownPart s := by
  rw [shownPart, trim_trim, shownPart]

/-- **The part shown, read off the text**: it is what the signatures capture. -/
theorem shownDetail_eq (banner : Text) : shownDetail banner = shownText banner := by
  unfold shownDetail shownText detailOf
  rw [ssh_isMatch]
  cases hsoftware : sshSoftware banner with
  | some s =>
      have hfound := textsOf_splitDetail_map (sshSoftware banner) id fun _ => rfl
      rw [Option.map_id, id, ← found_sshStage, hsoftware] at hfound
      rw [Option.isSome_some, if_pos rfl]
      exact (textsOf_splitDetail ssh 2 id rfl banner).symm.trans hfound
  | none =>
      rw [Option.isSome_none, if_neg Bool.false_ne_true]
      dsimp only
      cases isHttp banner with
      | true =>
          have hfound := textsOf_splitDetail_map (serverLine banner) trim shownPart_trim
          have hserver : splitDetail ((serverLine banner).map trim) = httpStage.found banner := by
            rw [found_httpStage, serverLine]
            cases serverTail (banner.splitOn '\n') with
            | none => rfl
            | some u => rfl
          rw [hserver] at hfound
          rw [if_pos rfl, if_pos rfl, ← textsOf_splitDetail httpServer 1 trim rfl banner]
          refine hfound.trans ?_
          cases serverLine banner with
          | none => rfl
          | some s => rfl
      | false =>
          rw [if_neg Bool.false_ne_true, if_neg Bool.false_ne_true, ftp_isMatch]
          cases hgreeting : greetingText banner with
          | none => rfl
          | some s =>
              have hfound := textsOf_splitDetail_map (greetingText banner) trim shownPart_trim
              rw [← found_ftpStage, hgreeting] at hfound
              rw [Option.isSome_some, if_pos rfl, ← textsOf_splitDetail ftp 1 trim rfl banner]
              exact hfound

/-! ### First words -/

/-- A text that is not blank has a first word. -/
theorem firstWord_ne_nil {s : Text} (h : ¬ AllBlank s) : firstWord s ≠ [] := by
  obtain ⟨c, t, hdrop, hc⟩ := exists_cons_of_not_allBlank h
  have hstart : firstWord s = firstWord (c :: t) := by
    have hfront : (c :: t).dropWhile isWhitespace = c :: t := hdrop ▸ List.dropWhile_idempotent ..
    rw [← firstWord_trim s, trim, hdrop, ← firstWord_trim (c :: t), trim, hfront]
  have hword : (c :: t).takeWhile (fun d => !isWhitespace d) ≠ [] := by
    rw [List.takeWhile_cons_of_pos (by simp [hc])]
    exact List.cons_ne_nil _ _
  have hrest : (c :: t).dropWhile (fun d => !isWhitespace d) = [] ∨
      ∃ d u, (c :: t).dropWhile (fun d => !isWhitespace d) = d :: u ∧ isWhitespace d = true := by
    cases hkept : (c :: t).dropWhile (fun d => !isWhitespace d) with
    | nil => exact .inl rfl
    | cons d u =>
        refine .inr ⟨d, u, rfl, ?_⟩
        have hne : (c :: t).dropWhile (fun d => !isWhitespace d) ≠ [] := by
          rw [hkept]
          exact List.cons_ne_nil _ _
        simpa [hkept] using List.head_dropWhile_not (fun d => !isWhitespace d) hne
  rw [hstart, ← List.takeWhile_append_dropWhile (p := fun d => !isWhitespace d) (l := c :: t),
    firstWord_append hword (fun d hd => by simpa using List.mem_takeWhile_imp hd) hrest]
  exact hword

/-- What stands at the end of a trimmed text has a word in it. -/
theorem firstWord_ne_nil_of_suffix {s v : Text} (h : v <:+ trim s) (hne : v ≠ []) :
    firstWord v ≠ [] := by
  apply firstWord_ne_nil
  intro hblank
  have htrim : trim s ≠ [] := by
    intro hnil
    exact hne (List.suffix_nil.1 (hnil ▸ h))
  have heq : v.getLast hne = (trim s).getLast htrim := by
    obtain ⟨u, hu⟩ := h
    simp only [← hu, List.getLast_append_of_ne_nil _ hne]
  have hlast := last_trim htrim
  rw [← heq, hblank _ (List.getLast_mem hne)] at hlast
  cases hlast

/-! ### Splitting a text -/

/-- No product and no version is empty, and a version comes with a product. -/
structure ReportableParts (found : Option Text × Option Text) : Prop where
  product : ∀ p, found.1 = some p → p ≠ []
  version : ∀ v, found.2 = some v → v ≠ []
  with_product : found.1 = none → found.2 = none

/-- The separator of a text, its first underscore or, if it has none, its first slash, is neither
its start nor its end. -/
def SeparatorInside (t : Text) : Prop :=
  ∀ c p v, c = '_' ∨ c = '/' ∧ '_' ∉ t → t = p ++ c :: v → c ∉ p → p ≠ [] ∧ v ≠ []

theorem reportableParts_none : ReportableParts (none, none) :=
  ⟨nofun, nofun, fun _ => rfl⟩

theorem reportableParts_pair_iff {p v : Text} :
    ReportableParts (some p, some v) ↔ p ≠ [] ∧ v ≠ [] := by
  constructor
  · intro h
    exact ⟨h.product p rfl, h.version v rfl⟩
  · rintro ⟨hp, hv⟩
    refine ⟨?_, ?_, nofun⟩
    · rintro _ ⟨⟩
      exact hp
    · rintro _ ⟨⟩
      exact hv

/-- A text has one separator at most. -/
theorem separatorInside_iff {t p v : Text} {c : Char} (hc : c = '_' ∨ c = '/' ∧ '_' ∉ t)
    (h : splitOnce c t = some (p, v)) : SeparatorInside t ↔ p ≠ [] ∧ v ≠ [] := by
  obtain ⟨htext, hp⟩ := splitOnce_eq_some.1 h
  constructor
  · intro hinside
    exact hinside c p v hc htext hp
  · intro hne d q w hd htext' hq
    have hcd : c = d := by
      have hmem : c ∈ t := htext ▸ List.mem_append_right _ List.mem_cons_self
      have hmem' : d ∈ t := htext' ▸ List.mem_append_right _ List.mem_cons_self
      rcases hc with rfl | ⟨rfl, hno⟩
      · rcases hd with rfl | ⟨rfl, hno'⟩
        · rfl
        · exact absurd hmem hno'
      · rcases hd with rfl | ⟨rfl, -⟩
        · exact absurd hmem' hno
        · rfl
    subst hcd
    have hsame := h.symm.trans (splitOnce_eq_some.2 ⟨htext', hq⟩)
    obtain ⟨rfl, rfl⟩ := Prod.mk.inj (Option.some.inj hsame)
    exact hne

/-- A text without a separator. -/
theorem separatorInside_of_notMem {t : Text} (hunder : '_' ∉ t) (hslash : '/' ∉ t) :
    SeparatorInside t := by
  rintro c p v hc rfl hp
  have hmem : c ∈ p ++ c :: v := List.mem_append_right _ List.mem_cons_self
  rcases hc with rfl | ⟨rfl, -⟩
  · exact absurd hmem hunder
  · exact absurd hmem hslash

/-- The parts of a trimmed text at its separator. -/
theorem reportableParts_split_iff {s p v : Text} {c : Char}
    (hc : c = '_' ∨ c = '/' ∧ '_' ∉ trim s) (h : splitOnce c (trim s) = some (p, v)) :
    ReportableParts (some p, some (firstWord v)) ↔ SeparatorInside (trim s) := by
  have hsuffix : v <:+ trim s := by
    rw [(splitOnce_eq_some.1 h).1]
    exact (List.suffix_cons c v).trans (List.suffix_append _ _)
  have hword : firstWord v ≠ [] ↔ v ≠ [] := by
    constructor
    · rintro hne rfl
      exact hne rfl
    · exact firstWord_ne_nil_of_suffix hsuffix
  rw [reportableParts_pair_iff, separatorInside_iff hc h, hword]

/-- **Splitting a text leaves no empty part** exactly when its separator, if it has one, is neither
its start nor its end. -/
theorem reportable_splitProductVersion_iff (s : Text) :
    ReportableParts (splitProductVersion s) ↔ SeparatorInside (trim s) := by
  unfold splitProductVersion
  dsimp only
  split_ifs with hempty
  · rw [List.isEmpty_iff.1 hempty]
    exact iff_of_true reportableParts_none
      (separatorInside_of_notMem List.not_mem_nil List.not_mem_nil)
  · cases hunder : splitOnce '_' (trim s) with
    | some pv => exact reportableParts_split_iff (.inl rfl) hunder
    | none =>
        have hno := splitOnce_eq_none.1 hunder
        cases hslash : splitOnce '/' (trim s) with
        | some pv => exact reportableParts_split_iff (.inr ⟨rfl, hno⟩) hslash
        | none =>
            refine iff_of_true ?_ (separatorInside_of_notMem hno (splitOnce_eq_none.1 hslash))
            obtain ⟨c, t, htrim⟩ := List.exists_cons_of_ne_nil (by simpa using hempty)
            cases hspace : (trim s).findIdx? isWhitespace with
            | none =>
                refine ⟨?_, nofun, nofun⟩
                rintro _ ⟨⟩
                simpa using hempty
            | some idx =>
                -- the white space comes after the first character and before the last
                obtain ⟨hlt, hws, -⟩ := List.findIdx?_eq_some_iff_getElem.1 hspace
                have hpos : idx ≠ 0 := by
                  rintro rfl
                  have hfirst := head_trim htrim
                  simp [htrim, hfirst] at hws
                refine reportableParts_pair_iff.2 ⟨?_, ?_⟩
                · simp [htrim, hpos]
                · rw [firstWord_trim]
                  apply firstWord_ne_nil_of_suffix (List.drop_suffix _ _)
                  simpa using hlt

/-! ### The cascade -/

/-- No empty product and no empty version is reported, and a version only with a product. -/
def Guess.Reportable (g : Guess) : Prop := ReportableParts (g.product, g.version)

theorem reportable_of_find {port : UInt16} {banner : Text} {st : Stage}
    (h : (stages.find? fun st => st.applies port banner) = some st) :
    (guessFromBanner port banner).Reportable ↔ ReportableParts (st.found banner) := by
  rw [Guess.Reportable, guess_of_find h]

theorem reportableParts_some {p : Text} {version : Option Text} (hp : p ≠ [])
    (hversion : ∀ v, version = some v → v ≠ []) : ReportableParts (some p, version) := by
  refine ⟨?_, hversion, nofun⟩
  rintro _ ⟨⟩
  exact hp

/-- The version in a MySQL greeting starts with a digit. -/
theorem head_mySqlVersion {banner v : Text} (h : mySqlVersion banner = some v) :
    ∃ d t, v = d :: t ∧ d.isDigit = true := by
  unfold mySqlVersion at h
  split at h
  · split_ifs at h with hgreeting
    cases h
    exact ⟨_, _, rfl, hgreeting.2.2.1⟩
  · cases h

/-- The stages that split nothing find no empty part. -/
theorem reportable_found_of_rest {st : Stage}
    (hst : st ∈ [mysqlStage, redisStage, postgresStage, vncStage, imapStage, pop3Stage])
    (banner : Text) : ReportableParts (st.found banner) := by
  simp only [List.mem_cons, List.not_mem_nil, or_false] at hst
  rcases hst with rfl | rfl | rfl | rfl | rfl | rfl
  · refine reportableParts_some (by decide) fun v hv => ?_
    have hgreeting : (mySqlVersion banner).map (fun w => w.takeWhile (· != '-')) = some v := by
      rw [← mysql_captures_eq, Option.map_map]
      exact hv
    obtain ⟨w, hw, rfl⟩ := Option.map_eq_some_iff.1 hgreeting
    obtain ⟨d, t, rfl, hd⟩ := head_mySqlVersion hw
    have hdash : d ≠ '-' := by
      rintro rfl
      cases hd
    rw [List.takeWhile_cons_of_pos (by simpa using hdash)]
    exact List.cons_ne_nil _ _
  · refine reportableParts_some (by decide) fun v hv => ?_
    obtain ⟨m, hm, rfl⟩ := Option.map_eq_some_iff.1 hv
    have hpiece : (⟨1, .plus, fun c => c.isDigit || c == '.'⟩ : Piece Char) ∈ redis.pieces :=
      List.mem_append_right _ List.mem_cons_self
    exact Regex.group_ne_nil hm hpiece (Nat.not_succ_le_zero 0)
  · exact reportableParts_some (by decide) nofun
  · refine reportableParts_some (by decide) fun v hv => ?_
    obtain ⟨m, -, rfl⟩ := Option.map_eq_some_iff.1 hv
    simp
  · exact reportableParts_none
  · exact reportableParts_none

/-- Where nothing is split, every guess is reportable. -/
theorem reportable_of_no_detail {port : UInt16} {banner : Text}
    (hssh : ssh.isMatch banner = false) (hhttp : isHttp banner = false)
    (hftp : ftp.isMatch banner = false) : (guessFromBanner port banner).Reportable := by
  cases hfind : stages.find? fun st => st.applies port banner with
  | none =>
      rw [Guess.Reportable, guessFromBanner, hfind]
      exact reportableParts_none
  | some st =>
      rw [reportable_of_find hfind]
      exact reportable_found_of_rest (mem_of_find hssh hhttp hftp hfind) banner

/-- **When no empty product or version is reported**: exactly when the separator of the text that
is split, if there is one, is neither its start nor its end. -/
theorem reportable_guess_iff (port : UInt16) (banner : Text) :
    (guessFromBanner port banner).Reportable ↔
      ∀ s, detailOf banner = some s → SeparatorInside (trim s) := by
  unfold detailOf
  cases hsoftware : sshSoftware banner with
  | some s =>
      have hssh : ssh.isMatch banner = true := by
        rw [ssh_isMatch, hsoftware]
        rfl
      rw [reportable_of_find (find_sshStage port hssh), found_sshStage, hsoftware, splitDetail,
        reportable_splitProductVersion_iff]
      simp
  | none =>
      have hssh : ssh.isMatch banner = false := by
        rw [ssh_isMatch, hsoftware]
        rfl
      cases hhttp : isHttp banner with
      | true =>
          rw [reportable_of_find (find_httpStage port hssh hhttp), found_httpStage]
          dsimp only [serverLine]
          cases serverTail (banner.splitOn '\n') with
          | none => exact iff_of_true reportableParts_none (by simp)
          | some u =>
              rw [serverDetail_some, serverText, reportable_splitProductVersion_iff, trim_trim]
              simp
      | false =>
          cases hgreeting : greetingText banner with
          | none =>
              have hftp : ftp.isMatch banner = false := by
                rw [ftp_isMatch, hgreeting]
                rfl
              exact iff_of_true (reportable_of_no_detail hssh hhttp hftp) (by simp)
          | some s =>
              have hftp : ftp.isMatch banner = true := by
                rw [ftp_isMatch, hgreeting]
                rfl
              rw [reportable_of_find (find_ftpStage port hssh hhttp hftp), found_ftpStage,
                hgreeting, Option.map_some, splitDetail, reportable_splitProductVersion_iff,
                trim_trim]
              simp

/-- Of the software `OpenSSH_` an empty version is reported, and of `_9.9` an empty product. -/
theorem empty_version_reported :
    (¬ ∀ (port : UInt16) (banner : Text), (guessFromBanner port banner).Reportable) ∧
      (guessFromBanner 22 "SSH-2.0-OpenSSH_".toList).version = some [] ∧
      (guessFromBanner 22 "SSH-2.0-_9.9".toList).product = some [] := by
  have hversion : (guessFromBanner 22 "SSH-2.0-OpenSSH_".toList).version = some [] := by
    decide +kernel
  refine ⟨fun h => ?_, hversion, by decide +kernel⟩
  exact (h 22 "SSH-2.0-OpenSSH_".toList).version [] hversion rfl

end Rnmap
