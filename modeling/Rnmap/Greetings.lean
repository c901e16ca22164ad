/-
**Greetings the cascade misreads.**

A MySQL server of protocol 10 greets with the protocol byte `0x0a`, which the dot of the MySQL
signature does not match; so such a greeting is recognised on the port hint at most, and never with
its version.  A greeting `220` matches the FTP signature, which is tried before that of SMTP, so
that it is FTP on every port.

Main definitions:

* `Rnmap.mysqlGreeting` — the greeting of a MySQL server;
* `Rnmap.IsGreeting220` — the greetings of FTP and SMTP servers.

Main results:

* `Rnmap.version_of_name_mysql` — the version guessed of a MySQL server;
* `Rnmap.mysql_greeting_unrecognised` — **no MySQL greeting is recognised**;
* `Rnmap.guess_of_greeting220` — a greeting `220` is guessed to be FTP;
* `Rnmap.greeting220_iff` — **when the port tells the greetings apart**.
-/

import Rnmap.Service

set_option relaxedAutoImplicit false
set_option autoImplicit false

namespace Rnmap

open Text ClassRegex

/-! ### MySQL -/

/-- The greeting of a MySQL server of protocol 10: the packet's length and number, the protocol,
the server version up to a zero, and the rest. -/
def mysqlGreeting (len : Char) (v tail : Text) : Text :=
  len :: '\x00' :: '\x00' :: '\x00' :: '\n' :: v ++ '\x00' :: tail

/-- The signature does not match such a greeting. -/
theorem mySqlVersion_mysqlGreeting (len : Char) (v tail : Text) :
    mySqlVersion (mysqlGreeting len v tail) = none := by
  unfold mysqlGreeting
  cases v with
  | nil => simp [mySqlVersion]
  | cons d v => simp [mySqlVersion]

/-- No other stage names its service like MySQL. -/
theorem eq_mysqlStage_of_name {st : Stage} (hst : st ∈ stages) (hname : st.name = "mysql".toList) :
    st = mysqlStage := by
  simp only [stages, List.mem_cons, List.not_mem_nil, or_false] at hst
  rcases hst with rfl | rfl | rfl | rfl | rfl | rfl | rfl | rfl | rfl | rfl
  case inr.inr.inr.inr.inl => rfl
  all_goals exact absurd hname (by decide)

theorem nameOfPort_ne_mysql (port : UInt16) : nameOfPort port ≠ "mysql".toList := by
  unfold nameOfPort
  split_ifs <;> decide

/-- **The version guessed of a MySQL server** is that in its greeting, up to the first dash. -/
theorem version_of_name_mysql {port : UInt16} {banner : Text}
    (h : (guessFromBanner port banner).name = "mysql".toList) :
    (guessFromBanner port banner).version =
      (mySqlVersion banner).map fun v => v.takeWhile (· != '-') := by
  cases hfind : stages.find? fun st => st.applies port banner with
  | none =>
      unfold guessFromBanner at h
      rw [hfind] at h
      exact absurd h (nameOfPort_ne_mysql port)
  | some st =>
      rw [guess_of_find hfind] at h ⊢
      obtain rfl := eq_mysqlStage_of_name (List.mem_of_find?_eq_some hfind) h
      rw [← mysql_captures_eq, Option.map_map]
      rfl

/-- **No MySQL greeting is recognised** with its version, on any port. -/
theorem mysql_greeting_unrecognised (port : UInt16) (len : Char) (v tail : Text) :
    ¬ ((guessFromBanner port (mysqlGreeting len v tail)).name = "mysql".toList ∧
      (guessFromBanner port (mysqlGreeting len v tail)).version =
        some (v.takeWhile (· != '-'))) := by
  rintro ⟨hname, hversion⟩
  rw [version_of_name_mysql hname, mySqlVersion_mysqlGreeting] at hversion
  cases hversion

/-- The greeting of MySQL 8.0.36 is read as nothing on port 3307, and on port 3306 as MySQL without
a version. -/
theorem mysql_greeting_8036 :
    guessFromBanner 3307 (mysqlGreeting 'J' "8.0.36-0ubuntu0".toList "abc".toList) =
        ⟨"unknown".toList, none, none⟩ ∧
      guessFromBanner 3306 (mysqlGreeting 'J' "8.0.36-0ubuntu0".toList "abc".toList) =
        ⟨"mysql".toList, some "MySQL".toList, none⟩ := by
  decide +kernel

/-! ### FTP and SMTP -/

/-- A greeting `220`: the code, a blank or a dash, and some text on the same line. -/
def IsGreeting220 (banner : Text) : Prop :=
  ∃ sep c rest, banner = '2' :: '2' :: '0' :: sep :: c :: rest ∧ (sep = ' ' ∨ sep = '-') ∧
    c ≠ '\r' ∧ c ≠ '\n'

/-- The FTP signature matches every greeting `220`. -/
theorem ftp_isMatch_of_greeting220 {banner : Text} (h : IsGreeting220 banner) :
    ftp.isMatch banner = true := by
  obtain ⟨sep, c, rest, rfl, hsep, -, hlf⟩ := h
  rw [Regex.isMatch, Regex.captures_of_textStart rfl, matchPieces_isSome_iff]
  refine ⟨[['2'], ['2'], ['0'], [sep], [c]], ?_, ⟨rest, rfl⟩⟩
  have hcls : ((sep == ' ') || (sep == '-')) = true := by
    simpa using hsep
  have hlast : anyButLf c = true := bne_iff_ne.2 hlf
  exact .cons (fits_singleton rfl rfl) (.cons (fits_singleton rfl rfl)
    (.cons (fits_singleton rfl rfl) (.cons (fits_singleton hcls rfl)
      (.cons (fits_singleton hlast (Nat.le_refl 1)) .nil))))

/-- **A greeting `220` is guessed to be FTP** on every port, when it has no server line. -/
theorem guess_of_greeting220 {banner : Text} (h : IsGreeting220 banner)
    (hserver : ¬ HasServerLine banner) (port : UInt16) :
    (guessFromBanner port banner).name = "ftp".toList := by
  have hftp := ftp_isMatch_of_greeting220 h
  obtain ⟨sep, c, rest, rfl, -⟩ := h
  have hssh := not_isMatch_of_second ssh rfl rfl rfl rfl (a := '2')
    (s := '0' :: sep :: c :: rest) (by decide : ('2' == 'S') = false)
  have hhttp : isHttp ('2' :: '2' :: '0' :: sep :: c :: rest) = false := by
    have hcr : ¬ "\r\nServer:".toList <:+: '2' :: '2' :: '0' :: sep :: c :: rest := fun hcr =>
      hserver ((List.suffix_cons '\r' "\nServer:".toList).isInfix.trans hcr)
    have hhead : "HTTP/".toList.isPrefixOf ('2' :: '2' :: '0' :: sep :: c :: rest) = false := by
      simp [List.isPrefixOf]
    simp only [isHttp, hhead, Bool.false_or, Bool.or_eq_false_iff, decide_eq_false_iff_not]
    exact ⟨hcr, hserver⟩
  rw [guess_of_find (find_ftpStage port hssh hhttp hftp)]
  rfl

/-- **When the port tells the greetings apart**: a greeting `220` is guessed to be SMTP on the ports
of SMTP and FTP on the others exactly when the port is not one of SMTP's. -/
theorem greeting220_iff {banner : Text} (h : IsGreeting220 banner)
    (hserver : ¬ HasServerLine banner) (port : UInt16) :
    (guessFromBanner port banner).name =
        (if port = 25 ∨ port = 465 ∨ port = 587 then "smtp".toList else "ftp".toList) ↔
      ¬ (port = 25 ∨ port = 465 ∨ port = 587) := by
  rw [guess_of_greeting220 h hserver port]
  split_ifs with hport
  · exact iff_of_false (by decide) (not_not.2 hport)
  · exact iff_of_true rfl hport

/-- The greeting of an FTP server on port 21. -/
theorem greeting220_iff_vsftpd :
    (guessFromBanner 21 "220 (vsFTPd 3.0.5)\r\n".toList).name =
        (if (21 : UInt16) = 25 ∨ (21 : UInt16) = 465 ∨ (21 : UInt16) = 587 then "smtp".toList
          else "ftp".toList) ↔
      ¬ ((21 : UInt16) = 25 ∨ (21 : UInt16) = 465 ∨ (21 : UInt16) = 587) :=
  greeting220_iff ⟨' ', '(', "vsFTPd 3.0.5)\r\n".toList, rfl, .inl rfl, by decide, by decide⟩
    (by decide +kernel) 21

/-- The greeting of a mail server on port 25 is guessed to be FTP. -/
theorem smtp_greeting_is_ftp :
    (guessFromBanner 25 "220 mail.example.org ESMTP Postfix\r\n".toList).name = "ftp".toList := by
  decide +kernel

end Rnmap
