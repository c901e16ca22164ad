/-
**Service detection.**

The banner of an open port is matched against a table of signatures, one service after the other;
the first that matches, or for which the port number is a hint, names the service, and for most of
them the captured text is split into a product and a version.

Main definitions:

* `Rnmap.isDecimalDigit` — the class `\d`;
* `Rnmap.ssh` … `Rnmap.pop3` — the signatures;
* `Rnmap.splitProductVersion` — product and version of a captured text;
* `Rnmap.Stage`, `Rnmap.stages`, `Rnmap.guessFromBanner` — the cascade;
* `Rnmap.serviceInfo` — the result of a detection;
* `Rnmap.mySqlVersion` — the version in a MySQL greeting, read off the banner;
* `Rnmap.shownDetail` — the part of a banner that products and versions show.

Main results:

* `Rnmap.ftp_isMatch_of_smtp` — the SMTP branch is never reached;
* `Rnmap.mysql_captures_eq` — when a banner is a MySQL greeting, and the version captured;
* `Rnmap.mem_texts_iff` — **which characters a product and a version have**;
* `Rnmap.lf_mem_guess_iff` — **when a product or a version holds a line feed**;
* `Rnmap.version_serviceInfo` — a version is guessed with a product only.
-/

import Rnmap.Result
import Rnmap.ClassRegex

set_option relaxedAutoImplicit false
set_option autoImplicit false

namespace Rnmap

open Text ClassRegex

/-! ### Signatures -/

/-- The decimal digits zero of Unicode. -/
def digitZeros : List ℕ :=
  [0x30, 0x660, 0x6F0, 0x7C0, 0x966, 0x9E6, 0xA66, 0xAE6, 0xB66, 0xBE6, 0xC66, 0xCE6, 0xD66,
    0xDE6, 0xE50, 0xED0, 0xF20, 0x1040, 0x1090, 0x17E0, 0x1810, 0x1946, 0x19D0, 0x1A80, 0x1A90,
    0x1B50, 0x1BB0, 0x1C40, 0x1C50, 0xA620, 0xA8D0, 0xA900, 0xA9D0, 0xA9F0, 0xAA50, 0xABF0,
    0xFF10, 0x104A0, 0x10D30, 0x10D40, 0x11066, 0x110F0, 0x11136, 0x111D0, 0x112F0, 0x11450,
    0x114D0, 0x11650, 0x116C0, 0x116D0, 0x116DA, 0x11730, 0x118E0, 0x11950, 0x11BF0, 0x11C50,
    0x11D50, 0x11DA0, 0x11F50, 0x16130, 0x16A60, 0x16AC0, 0x16B50, 0x16D70, 0x1CCF0, 0x1D7CE,
    0x1D7D8, 0x1D7E2, 0x1D7EC, 0x1D7F6, 0x1E140, 0x1E2F0, 0x1E4F0, 0x1E5F1, 0x1E950, 0x1FBF0]

/-- `\d`: the decimal digits of Unicode. -/
def isDecimalDigit (c : Char) : Bool :=
  digitZeros.any fun z => z ≤ c.toNat && c.toNat < z + 10

/-- `.`: any character but a line feed. -/
def anyButLf (c : Char) : Bool := c != '\n'

/-- `[^\r\n]`. -/
def notCrLf (c : Char) : Bool := c != '\r' && c != '\n'

/-- `(?m)^`: at the start of the text or after a line feed. -/
def lineStart (prev : Option Char) : Bool := prev.isNone || prev == some '\n'

/-- A literal text. -/
def literal (s : Text) : List (Piece Char) := s.map fun c => ⟨0, .one, (· == c)⟩

/-- `SSH`: `^SSH-(\d+\.\d+)-([^\s\r\n]+)`. -/
def ssh : Regex Char where
  anchor := textStart
  pieces := literal "SSH-".toList ++
    [⟨1, .plus, isDecimalDigit⟩, ⟨1, .one, (· == '.')⟩, ⟨1, .plus, isDecimalDigit⟩] ++
    literal "-".toList ++ [⟨2, .plus, fun c => !isWhitespace c && notCrLf c⟩]

/-- `HTTP_SERVER`: `(?im)^Server:\s*([^\r\n]+)`.  Without regard to case, `S` is also the long
`ſ`. -/
def httpServer : Regex Char where
  anchor := lineStart
  pieces := [⟨0, .one, fun c => c == 'S' || c == 's' || c == 'ſ'⟩,
    ⟨0, .one, fun c => c == 'E' || c == 'e'⟩, ⟨0, .one, fun c => c == 'R' || c == 'r'⟩,
    ⟨0, .one, fun c => c == 'V' || c == 'v'⟩, ⟨0, .one, fun c => c == 'E' || c == 'e'⟩,
    ⟨0, .one, fun c => c == 'R' || c == 'r'⟩, ⟨0, .one, (· == ':')⟩, ⟨0, .star, isWhitespace⟩,
    ⟨1, .plus, notCrLf⟩]

/-- `^220[ \-]` and what follows. -/
def greeting220 (cls : Char → Bool) : Regex Char where
  anchor := textStart
  pieces := literal "220".toList ++ [⟨0, .one, fun c => c == ' ' || c == '-'⟩, ⟨1, .plus, cls⟩]

/-- `FTP`: `^220[ \-](.+)`. -/
def ftp : Regex Char := greeting220 anyButLf

/-- `SMTP`: `^220[ \-]([^\r\n]+)`. -/
def smtp : Regex Char := greeting220 notCrLf

/-- `MYSQL`: `^.\x00\x00\x00.([0-9][^\x00]+)`. -/
def mysql : Regex Char where
  anchor := textStart
  pieces := [⟨0, .one, anyButLf⟩] ++ literal ['\x00', '\x00', '\x00'] ++
    [⟨0, .one, anyButLf⟩, ⟨1, .one, Char.isDigit⟩, ⟨1, .plus, (· != '\x00')⟩]

/-- `REDIS`: `redis_version:([0-9.]+)`. -/
def redis : Regex Char where
  anchor := anywhere
  pieces := literal "redis_version:".toList ++ [⟨1, .plus, fun c => c.isDigit || c == '.'⟩]

/-- `POSTGRES`: `^FATAL`. -/
def postgres : Regex Char := ⟨textStart, literal "FATAL".toList⟩

/-- `VNC`: `^RFB (\d{3})\.(\d{3})`. -/
def vnc : Regex Char where
  anchor := textStart
  pieces := literal "RFB ".toList ++ List.replicate 3 ⟨1, .one, isDecimalDigit⟩ ++
    literal ".".toList ++ List.replicate 3 ⟨2, .one, isDecimalDigit⟩

/-- `IMAP`: `^\* OK[^\r\n]*`. -/
def imap : Regex Char := ⟨textStart, literal "* OK".toList ++ [⟨0, .star, notCrLf⟩]⟩

/-- `POP3`: `^\+OK[^\r\n]*`. -/
def pop3 : Regex Char := ⟨textStart, literal "+OK".toList ++ [⟨0, .star, notCrLf⟩]⟩

/-- The test of the HTTP branch. -/
def isHttp (banner : Text) : Bool :=
  "HTTP/".toList.isPrefixOf banner || decide ("\r\nServer:".toList <:+: banner) ||
    decide ("\nServer:".toList <:+: banner)

/-! ### The matcher -/

/-- The first word of a text, or nothing. -/
def firstWord (s : Text) : Text := (splitWhitespace s).headD []

/-- `split_product_version`. -/
def splitProductVersion (s : Text) : Option Text × Option Text :=
  let s := trim s
  if s.isEmpty then (none, none)
  else
    match splitOnce '_' s with
    | some (p, v) => (some p, some (firstWord v))
    | none =>
        match splitOnce '/' s with
        | some (p, v) => (some p, some (firstWord v))
        | none =>
            match s.findIdx? isWhitespace with
            | some idx => (some (s.take idx), some (firstWord (trim (s.drop idx))))
            | none => (some s, none)

/-- `Guess`: name, product and version. -/
structure Guess where
  name : Text
  product : Option Text
  version : Option Text
  deriving DecidableEq, Repr

/-- The product and version of a captured text, if there is one. -/
def splitDetail : Option Text → Option Text × Option Text
  | some s => splitProductVersion s
  | none => (none, none)

/-- A stage of the cascade: the service it names, its test of the banner, its port hints, whether
it takes both or one of the two is enough, and the product and version it finds. -/
structure Stage where
  name : Text
  test : Text → Bool
  hints : List UInt16
  both : Bool
  found : Text → Option Text × Option Text

/-- Whether a stage returns. -/
def Stage.applies (st : Stage) (port : UInt16) (banner : Text) : Bool :=
  if st.both then st.test banner && st.hints.contains port
  else st.test banner || st.hints.contains port

def sshStage : Stage where
  name := "ssh".toList
  test := ssh.isMatch
  hints := []
  both := false
  found := fun banner => splitDetail ((ssh.captures banner).map fun m => ssh.group 2 m)

def httpStage : Stage where
  name := "http".toList
  test := isHttp
  hints := []
  both := false
  found := fun banner =>
    splitDetail ((httpServer.captures banner).map fun m => trim (httpServer.group 1 m))

def ftpStage : Stage where
  name := "ftp".toList
  test := ftp.isMatch
  hints := []
  both := false
  found := fun banner => splitDetail ((ftp.captures banner).map fun m => trim (ftp.group 1 m))

/-- SMTP and FTP banners both start with 220; differentiate by port hint. -/
def smtpStage : Stage where
  name := "smtp".toList
  test := smtp.isMatch
  hints := [25, 587, 465]
  both := true
  found := fun banner => splitDetail ((smtp.captures banner).map fun m => trim (smtp.group 1 m))

def mysqlStage : Stage where
  name := "mysql".toList
  test := mysql.isMatch
  hints := [3306]
  both := false
  found := fun banner => (some "MySQL".toList,
    (mysql.captures banner).map fun m => (mysql.group 1 m).takeWhile (· != '-'))

def redisStage : Stage where
  name := "redis".toList
  test := redis.isMatch
  hints := [6379]
  both := false
  found := fun banner => (some "Redis".toList, (redis.captures banner).map fun m => redis.group 1 m)

def postgresStage : Stage where
  name := "postgresql".toList
  test := postgres.isMatch
  hints := [5432]
  both := false
  found := fun _ => (some "PostgreSQL".toList, none)

def vncStage : Stage where
  name := "vnc".toList
  test := vnc.isMatch
  hints := []
  both := false
  found := fun banner => (some "RFB".toList,
    (vnc.captures banner).map fun m => vnc.group 1 m ++ ['.'] ++ vnc.group 2 m)

def imapStage : Stage where
  name := "imap".toList
  test := imap.isMatch
  hints := [143, 993]
  both := false
  found := fun _ => (none, none)

def pop3Stage : Stage where
  name := "pop3".toList
  test := pop3.isMatch
  hints := [110, 995]
  both := false
  found := fun _ => (none, none)

/-- The cascade. -/
def stages : List Stage :=
  [sshStage, httpStage, ftpStage, smtpStage, mysqlStage, redisStage, postgresStage, vncStage,
    imapStage, pop3Stage]

/-- The name a port has when no stage returns. -/
def nameOfPort (port : UInt16) : Text :=
  if port = 443 then "https".toList
  else if port = 53 then "dns".toList
  else if port = 3389 then "rdp".toList
  else if port = 27017 then "mongodb".toList
  else "unknown".toList

/-- `guess_from_banner`: the first stage that returns decides. -/
def guessFromBanner (port : UInt16) (banner : Text) : Guess :=
  match stages.find? fun st => st.applies port banner with
  | some st => ⟨st.name, (st.found banner).1, (st.found banner).2⟩
  | none => ⟨nameOfPort port, none, none⟩

/-- The banner without the zero characters at its end. -/
def trimmedBanner (banner : Text) : Text := banner.rdropWhile (· == '\x00')

/-- The end of `detect`, on a banner after lossy decoding. -/
def serviceInfo (port : UInt16) (banner : Text) : ServiceInfo :=
  let svc := guessFromBanner port (trimmedBanner banner)
  ⟨svc.name, svc.product, svc.version,
    if (trimmedBanner banner).isEmpty then none else some ((trimmedBanner banner).take 256)⟩

/-! ### Products and versions -/

/-- The characters of a product and a version. -/
def textsOf (found : Option Text × Option Text) : Text := found.1.getD [] ++ found.2.getD []

/-- The part of a captured text that is shown: what stands before its first underscore, or else
before its first slash, or else before its first white space, and the first word after that. -/
def shownPart (s : Text) : Text :=
  let t := trim s
  let (p, v) := ((splitOnce '_' t).or (splitOnce '/' t)).getD
    (t.takeWhile (fun c => !isWhitespace c), t.dropWhile fun c => !isWhitespace c)
  p ++ firstWord v

theorem firstWord_trim (s : Text) : firstWord (trim s) = firstWord s := by
  rw [firstWord, firstWord, splitWhitespace_trim]

theorem mem_of_mem_firstWord {s : Text} {c : Char} (h : c ∈ firstWord s) : c ∈ s := by
  unfold firstWord at h
  cases hwords : splitWhitespace s with
  | nil =>
      rw [hwords] at h
      cases h
  | cons w ws =>
      rw [hwords] at h
      have hw : w ∈ splitWhitespace s := by
        rw [hwords]
        exact List.mem_cons_self
      exact mem_of_mem_splitWhitespace hw h

/-- **The part that is shown** makes up the product and the version. -/
theorem textsOf_splitProductVersion (s : Text) : textsOf (splitProductVersion s) = shownPart s := by
  unfold splitProductVersion shownPart
  generalize trim s = t
  dsimp only
  split_ifs with hempty
  · obtain rfl := List.isEmpty_iff.1 hempty
    rfl
  · -- underscore, slash and white space are tried in this order
    cases hunder : splitOnce '_' t with
    | some pv => rfl
    | none =>
        cases hslash : splitOnce '/' t with
        | some pv => rfl
        | none =>
            cases hspace : t.findIdx? isWhitespace with
            | some idx =>
                obtain ⟨-, rfl⟩ := List.findIdx?_eq_some_iff_findIdx_eq.1 hspace
                rw [List.takeWhile_eq_take_findIdx_not, List.dropWhile_eq_drop_findIdx_not]
                simp only [Bool.not_not]
                change t.take _ ++ firstWord (trim (t.drop _)) = t.take _ ++ firstWord (t.drop _)
                rw [firstWord_trim]
            | none =>
                have hword : ∀ c ∈ t, (!isWhitespace c) = true := by
                  simpa using List.findIdx?_eq_none_iff.1 hspace
                rw [List.takeWhile_eq_self_iff.2 hword, List.dropWhile_eq_nil_iff.2 hword]
                rfl

/-- The part that is shown is part of the text. -/
theorem mem_of_mem_shownPart {s : Text} {c : Char} (h : c ∈ shownPart s) : c ∈ s := by
  refine mem_of_mem_trim ?_
  revert h
  unfold shownPart
  generalize trim s = t
  intro h
  dsimp only at h
  have hsplit : ∀ {d : Char} {p v : Text}, splitOnce d t = some (p, v) →
      c ∈ p ++ firstWord v → c ∈ t := by
    intro d p v hpv hc
    obtain ⟨rfl, -⟩ := splitOnce_eq_some.1 hpv
    rcases List.mem_append.1 hc with hp | hv
    · exact List.mem_append_left _ hp
    · exact List.mem_append_right _ (List.mem_cons_of_mem _ (mem_of_mem_firstWord hv))
  cases hunder : splitOnce '_' t with
  | some pv =>
      rw [hunder] at h
      exact hsplit hunder h
  | none =>
      cases hslash : splitOnce '/' t with
      | some pv =>
          rw [hunder, hslash] at h
          exact hsplit hslash h
      | none =>
          rw [hunder, hslash] at h
          rcases List.mem_append.1 h with hp | hv
          · exact (List.takeWhile_prefix _).subset hp
          · exact (List.dropWhile_suffix _).subset (mem_of_mem_firstWord hv)

/-! ### Signatures against each other -/

/-- The SMTP signature implies the FTP signature, which is tested first. -/
theorem ftp_isMatch_of_smtp {banner : Text} (h : smtp.isMatch banner = true) :
    ftp.isMatch banner = true := by
  rw [Regex.isMatch, Regex.captures_of_textStart rfl] at h ⊢
  have hlast : ∀ c, notCrLf c = true → anyButLf c = true := by
    intro c hc
    exact (Bool.and_eq_true_iff.1 hc).2
  refine matchPieces_isSome_mono ?_ h
  exact .cons ⟨rfl, fun _ h => h⟩ (.cons ⟨rfl, fun _ h => h⟩ (.cons ⟨rfl, fun _ h => h⟩
    (.cons ⟨rfl, fun _ h => h⟩ (.cons ⟨rfl, hlast⟩ .nil))))

/-- The server version in a MySQL greeting: any character but a line feed, three zeros, another
such character, and a digit with what follows up to the next zero, which is something. -/
def mySqlVersion : Text → Option Text
  | len :: '\x00' :: '\x00' :: '\x00' :: proto :: d :: rest =>
      if len ≠ '\n' ∧ proto ≠ '\n' ∧ d.isDigit ∧ rest.takeWhile (· != '\x00') ≠ [] then
        some (d :: rest.takeWhile (· != '\x00'))
      else none
  | _ => none

/-- **The MySQL signature** matches the greetings, and captures the version. -/
theorem mysql_captures_eq (banner : Text) :
    (mysql.captures banner).map (fun m => mysql.group 1 m) = mySqlVersion banner := by
  rw [Regex.captures_of_textStart rfl]
  change (matchPieces [⟨0, .one, anyButLf⟩, ⟨0, .one, (· == '\x00')⟩, ⟨0, .one, (· == '\x00')⟩,
    ⟨0, .one, (· == '\x00')⟩, ⟨0, .one, anyButLf⟩, ⟨1, .one, Char.isDigit⟩,
    ⟨1, .plus, (· != '\x00')⟩] banner).map _ = _
  rcases banner with _ | ⟨len, _ | ⟨z₁, _ | ⟨z₂, _ | ⟨z₃, _ | ⟨proto, _ | ⟨d, rest⟩⟩⟩⟩⟩⟩
  case cons.cons.cons.cons.cons.cons =>
    simp only [matchPieces_one]
    by_cases hz : z₁ = '\x00' ∧ z₂ = '\x00' ∧ z₃ = '\x00'
    · obtain ⟨rfl, rfl, rfl⟩ := hz
      rw [mySqlVersion]
      by_cases hrest : rest.takeWhile (· != '\x00') = []
      · rw [matchPieces_last_nil _ rfl hrest]
        simp [hrest]
      · rw [matchPieces_last _ rfl hrest]
        by_cases hgood : len ≠ '\n' ∧ proto ≠ '\n' ∧ d.isDigit = true
        · obtain ⟨hlen, hproto, hd⟩ := hgood
          simp [anyButLf, hlen, hproto, hd, hrest, mysql, Regex.group, literal]
        · have hbad : ¬ (len ≠ '\n' ∧ proto ≠ '\n' ∧ d.isDigit = true ∧
              rest.takeWhile (· != '\x00') ≠ []) := fun h => hgood ⟨h.1, h.2.1, h.2.2.1⟩
          rw [if_neg hbad]
          simp only [anyButLf, bne_iff_ne, beq_self_eq_true, if_true, Option.map_some]
          split_ifs with hlen hproto hd
          · exact absurd ⟨hlen, hproto, hd⟩ hgood
          · rfl
          · rfl
          · rfl
    · have hnone : mySqlVersion (len :: z₁ :: z₂ :: z₃ :: proto :: d :: rest) = none := by
        unfold mySqlVersion
        split
        · rename_i heq
          simp only [List.cons.injEq] at heq
          exact absurd ⟨heq.2.1, heq.2.2.1, heq.2.2.2.1⟩ hz
        · rfl
      rw [hnone]
      split_ifs with hlen h₁ h₂ h₃ hproto hd
      · exact absurd ⟨beq_iff_eq.1 h₁, beq_iff_eq.1 h₂, beq_iff_eq.1 h₃⟩ hz
      all_goals rfl
  all_goals
    simp [matchPieces_one, matchPieces_one_nil, mySqlVersion]

theorem mem_of_mySqlVersion {banner v : Text} (h : mySqlVersion banner = some v) {c : Char}
    (hc : c ∈ v) : c ∈ banner := by
  unfold mySqlVersion at h
  split at h
  · split_ifs at h
    cases h
    rcases List.mem_cons.1 hc with rfl | hc
    · simp
    · have := (List.takeWhile_prefix _).subset hc
      simp [this]
  · cases h

/-- The characters of a captured text, as a stage makes it of a match. -/
theorem mem_of_mem_captured {re : Regex Char} {banner : Text} {f : List Text → Text} {c : Char}
    (h : c ∈ ((re.captures banner).map f).getD []) :
    ∃ m, re.captures banner = some m ∧ c ∈ f m := by
  cases hm : re.captures banner with
  | none =>
      rw [hm] at h
      cases h
  | some m =>
      rw [hm] at h
      exact ⟨m, rfl, h⟩

/-- The text of a group of the first match, or nothing. -/
def matched (re : Regex Char) (i : ℕ) (banner : Text) : Text :=
  ((re.captures banner).map fun m => re.group i m).getD []

/-- The characters of a group come from the banner; where no class of the group admits a line feed,
none is one. -/
theorem mem_of_mem_matched {re : Regex Char} {i : ℕ} {banner : Text} {c : Char}
    (h : c ∈ matched re i banner) :
    c ∈ banner ∧ ∃ p ∈ re.pieces, p.group = i ∧ p.cls c = true := by
  obtain ⟨m, hm, hc⟩ := mem_of_mem_captured h
  exact Regex.mem_group hm hc

/-- What a stage finds by splitting a group is the part of the group that is shown. -/
theorem textsOf_splitDetail (re : Regex Char) (i : ℕ) (f : Text → Text) (hf : f [] = [])
    (banner : Text) :
    textsOf (splitDetail ((re.captures banner).map fun m => f (re.group i m))) =
      shownPart (f (matched re i banner)) := by
  unfold matched
  cases re.captures banner with
  | none =>
      change [] = shownPart (f [])
      rw [hf]
      rfl
  | some m => exact textsOf_splitProductVersion _

/-! ### MySQL greetings in the cascade -/

/-- The guess of the stage that returns. -/
theorem guess_of_find {port : UInt16} {banner : Text} {st : Stage}
    (h : (stages.find? fun st => st.applies port banner) = some st) :
    guessFromBanner port banner = ⟨st.name, (st.found banner).1, (st.found banner).2⟩ := by
  unfold guessFromBanner
  rw [h]

theorem find_sshStage (port : UInt16) {banner : Text} (hssh : ssh.isMatch banner = true) :
    (stages.find? fun st => st.applies port banner) = some sshStage := by
  simp [stages, Stage.applies, sshStage, hssh]

theorem find_httpStage (port : UInt16) {banner : Text} (hssh : ssh.isMatch banner = false)
    (hhttp : isHttp banner = true) :
    (stages.find? fun st => st.applies port banner) = some httpStage := by
  simp [stages, Stage.applies, sshStage, httpStage, hssh, hhttp]

theorem find_ftpStage (port : UInt16) {banner : Text} (hssh : ssh.isMatch banner = false)
    (hhttp : isHttp banner = false) (hftp : ftp.isMatch banner = true) :
    (stages.find? fun st => st.applies port banner) = some ftpStage := by
  simp [stages, Stage.applies, sshStage, httpStage, ftpStage, hssh, hhttp, hftp]

/-- Where the first three stages do not return, neither does that of SMTP. -/
theorem mem_of_find {port : UInt16} {banner : Text} {st : Stage}
    (hssh : ssh.isMatch banner = false) (hhttp : isHttp banner = false)
    (hftp : ftp.isMatch banner = false)
    (h : (stages.find? fun st => st.applies port banner) = some st) :
    st ∈ [mysqlStage, redisStage, postgresStage, vncStage, imapStage, pop3Stage] := by
  have hsmtp : smtp.isMatch banner = false := by
    rw [← Bool.not_eq_true]
    intro hmatch
    rw [ftp_isMatch_of_smtp hmatch] at hftp
    cases hftp
  have happlies := List.find?_some h
  have hst := List.mem_of_find?_eq_some h
  rw [stages, List.mem_cons, List.mem_cons, List.mem_cons, List.mem_cons] at hst
  rcases hst with rfl | rfl | rfl | rfl | hlater
  · simp [Stage.applies, sshStage, hssh] at happlies
  · simp [Stage.applies, httpStage, hhttp] at happlies
  · simp [Stage.applies, ftpStage, hftp] at happlies
  · simp [Stage.applies, smtpStage, hsmtp] at happlies
  · exact hlater

/-- An expression that starts with a literal of two characters does not match behind another
second character. -/
theorem not_isMatch_of_second (re : Regex Char) {p q : Piece Char} {ps : List (Piece Char)}
    (hre : re.anchor = textStart) (hps : re.pieces = p :: q :: ps) (hp : p.rep = .one)
    (hq : q.rep = .one) {a b : Char} {s : Text} (hb : q.cls b = false) :
    re.isMatch (a :: b :: s) = false := by
  rw [Regex.isMatch, Regex.captures_of_textStart hre, hps, matchPieces_one p _ hp,
    matchPieces_one q _ hq, hb, if_neg Bool.false_ne_true]
  split_ifs
  · rfl
  · rfl

/-- A line `Server:` after a line feed. -/
def HasServerLine (banner : Text) : Prop := "\nServer:".toList <:+: banner

instance (banner : Text) : Decidable (HasServerLine banner) :=
  inferInstanceAs (Decidable ("\nServer:".toList <:+: banner))

/-- The shape of a MySQL greeting. -/
theorem eq_of_mySqlVersion {banner v : Text} (h : mySqlVersion banner = some v) :
    ∃ len rest, banner = len :: '\x00' :: rest := by
  unfold mySqlVersion at h
  split at h
  · exact ⟨_, _, rfl⟩
  · cases h

/-- A MySQL greeting is taken for HTTP exactly when it has a server line. -/
theorem isHttp_of_mySqlVersion {banner v : Text} (h : mySqlVersion banner = some v) :
    isHttp banner = true ↔ HasServerLine banner := by
  obtain ⟨len, rest, rfl⟩ := eq_of_mySqlVersion h
  have hhead : "HTTP/".toList.isPrefixOf (len :: '\x00' :: rest) = false := by
    simp [List.isPrefixOf]
  unfold isHttp HasServerLine
  rw [hhead, Bool.false_or, Bool.or_eq_true, decide_eq_true_eq, decide_eq_true_eq,
    or_iff_right_of_imp]
  exact fun hcr => (List.suffix_cons '\r' "\nServer:".toList).isInfix.trans hcr

/-- **A MySQL greeting without a server line** is guessed to be MySQL on every port, with the
version in it up to its first dash. -/
theorem guess_of_mySqlVersion {banner v : Text} (h : mySqlVersion banner = some v)
    (hserver : ¬ HasServerLine banner) (port : UInt16) :
    guessFromBanner port banner =
      ⟨"mysql".toList, some "MySQL".toList, some (v.takeWhile (· != '-'))⟩ := by
  have hhttp : isHttp banner = false := by
    rw [← Bool.not_eq_true, isHttp_of_mySqlVersion h]
    exact hserver
  have hcaptures := mysql_captures_eq banner
  rw [h] at hcaptures
  obtain ⟨m, hm, hv⟩ := Option.map_eq_some_iff.1 hcaptures
  have hmysql : mysql.isMatch banner = true := by
    rw [Regex.isMatch, hm]
    rfl
  obtain ⟨len, rest, rfl⟩ := eq_of_mySqlVersion h
  have hssh := not_isMatch_of_second ssh rfl rfl rfl rfl (a := len) (s := rest)
    (by decide : ('\x00' == 'S') = false)
  have hftp := not_isMatch_of_second ftp rfl rfl rfl rfl (a := len) (s := rest)
    (by decide : ('\x00' == '2') = false)
  have hsmtp := not_isMatch_of_second smtp rfl rfl rfl rfl (a := len) (s := rest)
    (by decide : ('\x00' == '2') = false)
  have hfind : (stages.find? fun st => st.applies port (len :: '\x00' :: rest)) =
      some mysqlStage := by
    simp [stages, Stage.applies, sshStage, httpStage, ftpStage, smtpStage,
      mysqlStage, hssh, hhttp, hftp, hsmtp, hmysql]
  rw [guess_of_find hfind]
  simp only [mysqlStage, hm, Option.map_some, hv]

/-- The characters of the product and the version guessed. -/
def Guess.texts (g : Guess) : Text := textsOf (g.product, g.version)

/-- A guess is what the stage found that decides it. -/
theorem exists_stage_of_mem_texts {port : UInt16} {banner : Text} {c : Char}
    (h : c ∈ (guessFromBanner port banner).texts) :
    ∃ st, (stages.find? fun st => st.applies port banner) = some st ∧
      c ∈ textsOf (st.found banner) := by
  unfold guessFromBanner at h
  cases hfind : stages.find? fun st => st.applies port banner with
  | none =>
      rw [hfind] at h
      cases h
  | some st =>
      rw [hfind] at h
      exact ⟨st, rfl, h⟩

/-- It shows what the stage finds. -/
theorem texts_of_find {port : UInt16} {banner : Text} {st : Stage}
    (h : (stages.find? fun st => st.applies port banner) = some st) :
    (guessFromBanner port banner).texts = textsOf (st.found banner) := by
  rw [guess_of_find h]
  rfl

/-! ### What is shown of a banner -/

/-- The part of a banner that is shown: of the SSH software, of the server line or of the 220
greeting, and of a MySQL greeting the version up to its first dash. -/
def shownDetail (banner : Text) : Text :=
  if ssh.isMatch banner then shownPart (matched ssh 2 banner)
  else if isHttp banner then shownPart (trim (matched httpServer 1 banner))
  else if ftp.isMatch banner then shownPart (trim (matched ftp 1 banner))
  else ((mySqlVersion banner).map fun v => v.takeWhile (· != '-')).getD []

/-- The letters of the fixed products, and the dot of a version number. -/
def fixedTexts : Text := "MySQLRedisPostgreSQLRFB.".toList

/-- The characters of a product or a version that do not come from the part shown. -/
def IsPlain (c : Char) : Prop := c ∈ fixedTexts ∨ isDecimalDigit c = true

instance (c : Char) : Decidable (IsPlain c) :=
  inferInstanceAs (Decidable (c ∈ fixedTexts ∨ isDecimalDigit c = true))

theorem isDecimalDigit_of_isDigit {c : Char} (h : c.isDigit = true) : isDecimalDigit c = true := by
  have hbounds : 48 ≤ c.toNat ∧ c.toNat ≤ 57 := by
    simpa [Char.isDigit, UInt32.le_iff_toNat_le] using h
  refine List.any_eq_true.2 ⟨0x30, List.mem_cons_self, ?_⟩
  simp only [Bool.and_eq_true, decide_eq_true_eq]
  omega

theorem group_of_mem_literal {s : Text} {p : Piece Char} (h : p ∈ literal s) : p.group = 0 := by
  obtain ⟨c, -, rfl⟩ := List.mem_map.1 h
  rfl

/-- A version number of Redis. -/
theorem isPlain_of_mem_redis {banner : Text} {c : Char} (h : c ∈ matched redis 1 banner) :
    IsPlain c := by
  obtain ⟨-, p, hp, hgroup, hcls⟩ := mem_of_mem_matched h
  rcases List.mem_append.1 hp with hp | hp
  · rw [group_of_mem_literal hp] at hgroup
    cases hgroup
  · obtain rfl := List.mem_singleton.1 hp
    rcases Bool.or_eq_true_iff.1 hcls with hdigit | hdot
    · exact .inr (isDecimalDigit_of_isDigit hdigit)
    · obtain rfl := beq_iff_eq.1 hdot
      exact .inl (by decide)

/-- A part of a version number of VNC. -/
theorem isPlain_of_mem_vnc {banner : Text} {m : List Text} (hm : vnc.captures banner = some m)
    {i : ℕ} (hi : i ≠ 0) {c : Char} (h : c ∈ vnc.group i m) : IsPlain c := by
  obtain ⟨-, p, hp, hgroup, hcls⟩ := Regex.mem_group hm h
  have hliteral : ∀ {s}, p ∉ literal s := fun hmem => hi (hgroup ▸ group_of_mem_literal hmem)
  simp only [vnc, List.mem_append, hliteral, false_or, or_false] at hp
  rcases hp with hp | hp
  · obtain rfl := List.eq_of_mem_replicate hp
    exact .inr hcls
  · obtain rfl := List.eq_of_mem_replicate hp
    exact .inr hcls

/-- The stages after MySQL find fixed texts and version numbers. -/
theorem isPlain_of_mem_found {st : Stage}
    (hst : st ∈ [redisStage, postgresStage, vncStage, imapStage, pop3Stage]) {banner : Text}
    {c : Char} (h : c ∈ textsOf (st.found banner)) : IsPlain c := by
  simp only [List.mem_cons, List.not_mem_nil, or_false] at hst
  rcases hst with rfl | rfl | rfl | rfl | rfl
  · rcases List.mem_append.1 h with hproduct | hversion
    · exact .inl ((by decide : "Redis".toList ⊆ fixedTexts) hproduct)
    · exact isPlain_of_mem_redis hversion
  · exact .inl ((by decide : "PostgreSQL".toList ++ [] ⊆ fixedTexts) h)
  · rcases List.mem_append.1 h with hproduct | hversion
    · exact .inl ((by decide : "RFB".toList ⊆ fixedTexts) hproduct)
    · obtain ⟨m, hm, hc⟩ := mem_of_mem_captured hversion
      rcases List.mem_append.1 hc with hc | hc
      · rcases List.mem_append.1 hc with hc | hc
        · exact isPlain_of_mem_vnc hm (by decide) hc
        · obtain rfl := List.mem_singleton.1 hc
          exact .inl (by decide)
      · exact isPlain_of_mem_vnc hm (by decide) hc
  · cases h
  · cases h

/-- The MySQL stage finds the version in a greeting, up to its first dash. -/
theorem textsOf_mysql (banner : Text) :
    textsOf (mysqlStage.found banner) =
      "MySQL".toList ++ ((mySqlVersion banner).map fun v => v.takeWhile (· != '-')).getD [] := by
  rw [← mysql_captures_eq, Option.map_map]
  rfl

/-- Where the first four stages do not return, the version in a MySQL greeting is shown. -/
theorem mem_texts_iff_of_rest {c : Char} (hc : ¬ IsPlain c) (port : UInt16) {banner : Text}
    (hssh : ssh.isMatch banner = false) (hhttp : isHttp banner = false)
    (hftp : ftp.isMatch banner = false) :
    c ∈ (guessFromBanner port banner).texts ↔
      c ∈ ((mySqlVersion banner).map fun v => v.takeWhile (· != '-')).getD [] := by
  constructor
  · intro h
    obtain ⟨st, hfind, hfound⟩ := exists_stage_of_mem_texts h
    -- a stage before MySQL does not return, and one after it shows nothing of the banner
    rcases List.mem_cons.1 (mem_of_find hssh hhttp hftp hfind) with rfl | hrest
    · rw [textsOf_mysql] at hfound
      refine (List.mem_append.1 hfound).resolve_left fun hproduct => hc (.inl ?_)
      exact List.mem_append_left _ hproduct
    · exact absurd (isPlain_of_mem_found hrest hfound) hc
  · intro h
    cases hv : mySqlVersion banner with
    | none =>
        rw [hv] at h
        cases h
    | some v =>
        rw [hv] at h
        have hserver : ¬ HasServerLine banner := by
          rw [← isHttp_of_mySqlVersion hv, hhttp]
          exact Bool.false_ne_true
        rw [guess_of_mySqlVersion hv hserver port]
        exact List.mem_append_right _ h

/-- **The product and the version guessed** show the part of the banner that is shown, and beside
it nothing but letters of a fixed text and version numbers. -/
theorem mem_texts_iff {c : Char} (hc : ¬ IsPlain c) (port : UInt16) (banner : Text) :
    c ∈ (guessFromBanner port banner).texts ↔ c ∈ shownDetail banner := by
  unfold shownDetail
  cases hssh : ssh.isMatch banner with
  | true =>
      rw [texts_of_find (find_sshStage port hssh), if_pos rfl]
      exact iff_of_eq (congrArg (c ∈ ·) (textsOf_splitDetail ssh 2 id rfl banner))
  | false =>
      rw [if_neg Bool.false_ne_true]
      cases hhttp : isHttp banner with
      | true =>
          rw [texts_of_find (find_httpStage port hssh hhttp), if_pos rfl]
          exact iff_of_eq (congrArg (c ∈ ·) (textsOf_splitDetail httpServer 1 trim rfl banner))
      | false =>
          rw [if_neg Bool.false_ne_true]
          cases hftp : ftp.isMatch banner with
          | true =>
              rw [texts_of_find (find_ftpStage port hssh hhttp hftp), if_pos rfl]
              exact iff_of_eq (congrArg (c ∈ ·) (textsOf_splitDetail ftp 1 trim rfl banner))
          | false =>
              rw [if_neg Bool.false_ne_true]
              exact mem_texts_iff_of_rest hc port hssh hhttp hftp

/-- The part shown is part of the banner, and no line feed unless it is a MySQL version. -/
theorem mem_of_mem_shownDetail {banner : Text} {c : Char} (h : c ∈ shownDetail banner) :
    c ∈ banner ∧ (c = '\n' → isHttp banner = false ∧
      ∃ v, mySqlVersion banner = some v ∧ c ∈ v.takeWhile (· != '-')) := by
  have hgroup : ∀ {re : Regex Char} {i : ℕ},
      (∀ p ∈ re.pieces, p.group = i → p.cls '\n' = false) → c ∈ matched re i banner →
      c ∈ banner ∧ c ≠ '\n' := by
    intro re i hcls hmatched
    obtain ⟨hbanner, p, hp, hpi, hmem⟩ := mem_of_mem_matched hmatched
    refine ⟨hbanner, ?_⟩
    rintro rfl
    rw [hcls p hp hpi] at hmem
    cases hmem
  unfold shownDetail at h
  split_ifs at h with hssh hhttp hftp
  · obtain ⟨hbanner, hne⟩ := hgroup (by decide) (mem_of_mem_shownPart h)
    exact ⟨hbanner, fun hlf => absurd hlf hne⟩
  · obtain ⟨hbanner, hne⟩ := hgroup (by decide) (mem_of_mem_trim (mem_of_mem_shownPart h))
    exact ⟨hbanner, fun hlf => absurd hlf hne⟩
  · obtain ⟨hbanner, hne⟩ := hgroup (by decide) (mem_of_mem_trim (mem_of_mem_shownPart h))
    exact ⟨hbanner, fun hlf => absurd hlf hne⟩
  · cases hv : mySqlVersion banner with
    | none =>
        rw [hv] at h
        cases h
    | some v =>
        rw [hv] at h
        exact ⟨mem_of_mySqlVersion hv ((List.takeWhile_prefix _).subset h),
          fun _ => ⟨by simpa using hhttp, v, rfl, h⟩⟩

/-- **A product or a version holds a line feed** exactly when the banner is a MySQL greeting
without a server line whose version has a line feed before its first dash. -/
theorem lf_mem_guess_iff (port : UInt16) (banner : Text) :
    '\n' ∈ (guessFromBanner port banner).texts ↔
      ¬ HasServerLine banner ∧
        ∃ v, mySqlVersion banner = some v ∧ '\n' ∈ v.takeWhile (· != '-') := by
  constructor
  · intro h
    rw [mem_texts_iff (by decide)] at h
    obtain ⟨hhttp, v, hv, hlf⟩ := (mem_of_mem_shownDetail h).2 rfl
    refine ⟨?_, v, hv, hlf⟩
    rw [← isHttp_of_mySqlVersion hv, hhttp]
    exact Bool.false_ne_true
  · rintro ⟨hserver, v, hv, hlf⟩
    rw [guess_of_mySqlVersion hv hserver port]
    exact List.mem_append_right _ hlf

/-- The names of services. -/
def serviceNames : List Text :=
  stages.map Stage.name ++
    ["https".toList, "dns".toList, "rdp".toList, "mongodb".toList, "unknown".toList]

/-- The name guessed is one of the table. -/
theorem name_guess (port : UInt16) (banner : Text) :
    (guessFromBanner port banner).name ∈ serviceNames := by
  unfold guessFromBanner
  cases hfind : stages.find? fun st => st.applies port banner with
  | some st =>
      exact List.mem_append_left _ (List.mem_map_of_mem (List.mem_of_find?_eq_some hfind))
  | none =>
      refine List.mem_append_right _ ?_
      dsimp only [nameOfPort]
      split_ifs <;> simp

/-! ### A version comes with a product -/

/-- A text that is not blank has a product. -/
theorem product_splitProductVersion {s : Text} (h : trim s ≠ []) :
    (splitProductVersion s).1 ≠ none := by
  have hempty : (trim s).isEmpty = false := by simpa using h
  unfold splitProductVersion
  simp only [hempty, Bool.false_eq_true, if_false]
  -- every way to split the text leaves a product
  cases splitOnce '_' (trim s) with
  | some pv => exact Option.some_ne_none _
  | none =>
      cases splitOnce '/' (trim s) with
      | some pv => exact Option.some_ne_none _
      | none =>
          cases (trim s).findIdx? isWhitespace with
          | some idx => exact Option.some_ne_none _
          | none => exact Option.some_ne_none _

/-- **Product and version are missing** exactly in a blank text. -/
theorem splitProductVersion_eq_none_iff {s : Text} :
    splitProductVersion s = (none, none) ↔ trim s = [] := by
  constructor
  · intro h
    by_contra hne
    exact product_splitProductVersion hne (congrArg Prod.fst h)
  · intro h
    simp only [splitProductVersion, h, List.isEmpty_nil, if_true]

theorem version_splitDetail {captured : Option Text} (h : (splitDetail captured).1 = none) :
    (splitDetail captured).2 = none := by
  cases captured with
  | none => rfl
  | some s =>
      by_cases hblank : trim s = []
      · exact congrArg Prod.snd (splitProductVersion_eq_none_iff.2 hblank)
      · exact absurd h (product_splitProductVersion hblank)

/-- No stage finds a version without a product. -/
theorem version_found {st : Stage} (hst : st ∈ stages) {banner : Text}
    (h : (st.found banner).1 = none) : (st.found banner).2 = none := by
  simp only [stages, List.mem_cons, List.not_mem_nil, or_false] at hst
  rcases hst with rfl | rfl | rfl | rfl | rfl | rfl | rfl | rfl | rfl | rfl
  · exact version_splitDetail h
  · exact version_splitDetail h
  · exact version_splitDetail h
  · exact version_splitDetail h
  · cases h
  · cases h
  · cases h
  · cases h
  · rfl
  · rfl

/-- **A version is guessed with a product only.** -/
theorem version_serviceInfo {port : UInt16} {banner : Text}
    (h : (serviceInfo port banner).product = none) : (serviceInfo port banner).version = none := by
  change (guessFromBanner port (trimmedBanner banner)).product = none at h
  change (guessFromBanner port (trimmedBanner banner)).version = none
  unfold guessFromBanner at h ⊢
  cases hfind : stages.find? fun st => st.applies port (trimmedBanner banner) with
  | none => rfl
  | some st =>
      simp only [hfind] at h ⊢
      exact version_found (List.mem_of_find?_eq_some hfind) h

end Rnmap
