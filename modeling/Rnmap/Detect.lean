/-
**Service detection over a connection.**

`detect` connects to a port and reads what the service says first.  When that is nothing, it writes
a probe to the ports that have one, and reads again; on the other ports it waits a little before it
reads again.  What was read is decoded, and the guess is made from the text.  An environment gives
how each of the awaited operations ends, with the bytes the socket has.

Main definitions:

* `Rnmap.Timed` — the end of a future under a timeout;
* `Rnmap.DetectEnv` — what happens to one detection;
* `Rnmap.readSome`, `Rnmap.sendAndRead`, `Rnmap.sendProbeFor`, `Rnmap.heard`, `Rnmap.detect` — the
  detection, with the payloads it writes.

Main results:

* `Rnmap.sent_detect` — **when a payload is written**, and which;
* `Rnmap.shown_banner_iff` — **what a shown banner says about the bytes of the service**.
-/

import Rnmap.Bytes
import Rnmap.LossyUtf8
import Rnmap.ConnectScan
import Rnmap.Service

set_option relaxedAutoImplicit false
set_option autoImplicit false

namespace Rnmap

open Text Utf8

/-! ### The detection -/

/-- How a future under a timeout ends. -/
inductive Timed (α : Type)
  | ready (a : α)
  | elapsed

/-- What a future gives that ends in time and well: `.ok()?.ok()`. -/
def Timed.ok? {α : Type} : Timed (Except IoError α) → Option α
  | .ready (.ok a) => some a
  | .ready (.error _) => none
  | .elapsed => none

def Timed.map {α β : Type} (f : α → β) : Timed α → Timed β
  | .ready a => .ready (f a)
  | .elapsed => .elapsed

/-- What happens to one detection: how connecting ends, what the socket has for the first read, how
writing ends, and what the socket has for the second read. -/
structure DetectEnv where
  connect : ConnectOutcome
  greeting : Timed (Except IoError Bytes)
  write : Timed (Except IoError Unit)
  reply : Timed (Except IoError Bytes)

/-- `READ_BUF`. -/
def readBuf : ℕ := 4096

/-- `read_some`: the bytes the socket has, as far as they fit. -/
def readSome (available : Except IoError Bytes) : Except IoError Bytes :=
  available.map (List.take readBuf)

/-- The payload `send_probe_for` writes to a port. -/
def payloadFor (port : UInt16) : Option Text :=
  if port ∈ [80, 8080, 8000, 8888, 81, 591, 8008, 8081] then
    some "GET / HTTP/1.0\r\nHost: rnmap\r\nUser-Agent: rnmap/0.1\r\n\r\n".toList
  else if port ∈ [25, 587] then some "EHLO rnmap.local\r\n".toList
  else if port = 110 then some "QUIT\r\n".toList
  else if port = 143 then some "a001 CAPABILITY\r\n".toList
  else if port = 21 then some "\r\n".toList
  else none

/-- What was read, and the payloads that were written before. -/
structure Heard where
  bytes : Bytes
  sent : List Bytes

/-- `send_and_read`: only a write that takes too long ends it; one that fails does not. -/
def sendAndRead (env : DetectEnv) : Option Bytes :=
  match env.write with
  | .elapsed => none
  | .ready _ => (env.reply.map readSome).ok?

/-- `send_probe_for`, with no bytes for `None`. -/
def sendProbeFor (port : UInt16) (env : DetectEnv) : Heard :=
  match payloadFor port with
  | some payload => ⟨(sendAndRead env).getD [], [encode payload]⟩
  -- after a pause of 150 ms
  | none => ⟨((env.reply.map readSome).ok?).getD [], []⟩

/-- The banner of a connection that was made. -/
def heard (port : UInt16) (env : DetectEnv) : Heard :=
  match (env.greeting.map readSome).ok? with
  | some bytes => if bytes.isEmpty then sendProbeFor port env else ⟨bytes, []⟩
  | none => sendProbeFor port env

/-- The service of a detection, and the payloads it wrote. -/
structure DetectRun where
  service : Option ServiceInfo
  sent : List Bytes

/-- `detect`. -/
def detect (port : UInt16) (env : DetectEnv) : DetectRun :=
  match env.connect with
  | .connected =>
      ⟨some (serviceInfo port (decodeLossy (heard port env).bytes)), (heard port env).sent⟩
  | .failed _ => ⟨none, []⟩
  | .elapsed => ⟨none, []⟩

/-! ### What is written -/

/-- The service says something first. -/
def DetectEnv.Greets (env : DetectEnv) : Prop :=
  ∃ bytes, (env.greeting.map readSome).ok? = some bytes ∧ bytes ≠ []

theorem heard_of_greets {port : UInt16} {env : DetectEnv} (h : env.Greets) :
    (heard port env).sent = [] := by
  obtain ⟨bytes, hbytes, hne⟩ := h
  rw [heard, hbytes]
  change (if bytes.isEmpty = true then _ else _ : Heard).sent = []
  rw [if_neg (by simpa using hne)]

theorem heard_of_silent {port : UInt16} {env : DetectEnv} (h : ¬ env.Greets) :
    heard port env = sendProbeFor port env := by
  rw [heard]
  cases hbytes : (env.greeting.map readSome).ok? with
  | none => rfl
  | some bytes =>
      have hempty : bytes = [] := not_not.1 fun hne => h ⟨bytes, hbytes, hne⟩
      rw [hempty]
      rfl

theorem sent_sendProbeFor (port : UInt16) (env : DetectEnv) :
    (sendProbeFor port env).sent = ((payloadFor port).map encode).toList := by
  rw [sendProbeFor]
  cases payloadFor port with
  | none => rfl
  | some payload => rfl

/-- **When a payload is written**: on a connection that was made, when the service does not say
anything first, and then that of the port, once. -/
theorem sent_detect (port : UInt16) (env : DetectEnv) (payload : Bytes) :
    payload ∈ (detect port env).sent ↔
      env.connect = .connected ∧ ¬ env.Greets ∧ ∃ text, payloadFor port = some text ∧
        payload = encode text := by
  cases hconnect : env.connect with
  | elapsed =>
      rw [detect, hconnect]
      simp
  | failed e =>
      rw [detect, hconnect]
      simp
  | connected =>
      rw [detect, hconnect]
      by_cases hgreets : env.Greets
      · simp [heard_of_greets hgreets, hgreets]
      · simp only [heard_of_silent hgreets, sent_sendProbeFor, hgreets, Option.mem_toList,
          Option.map_eq_some_iff, not_false_eq_true, true_and]
        exact exists_congr fun _ => and_congr_right fun _ => eq_comm

theorem length_sent_detect_le (port : UInt16) (env : DetectEnv) :
    (detect port env).sent.length ≤ 1 := by
  cases hconnect : env.connect with
  | elapsed =>
      rw [detect, hconnect]
      exact Nat.zero_le 1
  | failed e =>
      rw [detect, hconnect]
      exact Nat.zero_le 1
  | connected =>
      rw [detect, hconnect]
      by_cases hgreets : env.Greets
      · rw [heard_of_greets hgreets]
        exact Nat.zero_le 1
      · rw [heard_of_silent hgreets, sent_sendProbeFor]
        cases payloadFor port with
        | none => exact Nat.zero_le 1
        | some text => exact le_rfl

/-! ### What a banner says about the bytes -/

/-- What is left when a character is dropped at the end. -/
theorem rdropWhile_eq_iff {c : Char} {s t : Text} :
    s.rdropWhile (· == c) = t ↔ (∃ k, s = t ++ List.replicate k c) ∧ t.getLast? ≠ some c := by
  constructor
  · rintro rfl
    refine ⟨⟨(s.rtakeWhile (· == c)).length, ?_⟩, ?_⟩
    · have hall : s.rtakeWhile (· == c) = List.replicate (s.rtakeWhile (· == c)).length c :=
        List.eq_replicate_length.2 fun x hx => by simpa using List.mem_rtakeWhile_imp hx
      rw [← hall, List.rdropWhile_append_rtakeWhile]
    · intro hlast
      have hne : s.rdropWhile (· == c) ≠ [] := by
        intro hnil
        rw [hnil] at hlast
        cases hlast
      refine List.rdropWhile_last_not (· == c) s hne ?_
      rw [List.getLast?_eq_some_getLast hne] at hlast
      exact beq_iff_eq.2 (Option.some.inj hlast)
  · rintro ⟨⟨k, rfl⟩, hlast⟩
    induction k with
    | zero =>
        rw [List.replicate_zero, List.append_nil, List.rdropWhile_eq_self_iff]
        intro hne hc
        exact hlast (by rw [List.getLast?_eq_some_getLast hne, beq_iff_eq.1 hc])
    | succ k ih =>
        have hc : (c == c) = true := beq_self_eq_true c
        rw [List.replicate_succ', ← List.append_assoc, List.rdropWhile_concat, if_pos hc, ih]

/-- Zero characters are zero bytes. -/
theorem encode_replicate_zero (k : ℕ) :
    encode (List.replicate k '\x00') = List.replicate k 0 := by
  induction k with
  | zero => rfl
  | succ k ih =>
      rw [List.replicate_succ, encode_cons, ih]
      rfl

/-- The texts that decoding gives, but for characters that replace others. -/
theorem decodeLossy_eq_iff {bs : Bytes} {s : Text} (h : replacement ∉ s) :
    decodeLossy bs = s ↔ bs = encode s := by
  constructor
  · rintro rfl
    exact (encode_decodeLossy h).symm
  · rintro rfl
    exact decodeLossy_encode s

/-- The banner that is shown. -/
theorem banner_serviceInfo_eq_some_iff {port : UInt16} {text b : Text} :
    (serviceInfo port text).banner = some b ↔
      trimmedBanner text ≠ [] ∧ (trimmedBanner text).take 256 = b := by
  change (if (trimmedBanner text).isEmpty then none else some ((trimmedBanner text).take 256)) =
    some b ↔ _
  by_cases hempty : trimmedBanner text = []
  · simp [hempty]
  · rw [if_neg (by simpa using hempty), Option.some.injEq]
    exact (and_iff_right hempty).symm

theorem service_detect_eq_some_iff {port : UInt16} {env : DetectEnv} {svc : ServiceInfo} :
    (detect port env).service = some svc ↔
      env.connect = .connected ∧ serviceInfo port (decodeLossy (heard port env).bytes) = svc := by
  rw [detect]
  cases env.connect with
  | elapsed => simp
  | failed e => simp
  | connected => simp

/-- **What a shown banner says about the bytes of the service**: one shorter than the limit and
without replaced characters is what was read, up to zero bytes at the end; and each text of this
kind that does not end in a zero is shown when it is read. -/
theorem shown_banner_iff (port : UInt16) (env : DetectEnv) (b : Text) (hshort : b.length < 256)
    (hchars : replacement ∉ b) :
    (∃ svc, (detect port env).service = some svc ∧ svc.banner = some b) ↔
      env.connect = .connected ∧ b ≠ [] ∧ b.getLast? ≠ some '\x00' ∧
        ∃ k, (heard port env).bytes = encode b ++ List.replicate k 0 := by
  have hwhole : ∀ t : Text, t.take 256 = b ↔ t = b := by
    intro t
    constructor
    · intro ht
      have hlen : (t.take 256).length < 256 := ht ▸ hshort
      rw [List.length_take] at hlen
      rw [← ht, List.take_of_length_le (by omega)]
    · rintro rfl
      exact List.take_of_length_le hshort.le
  have hbytes : ∀ k, replacement ∉ b ++ List.replicate k '\x00' := by
    intro k hmem
    rcases List.mem_append.1 hmem with hmem | hmem
    · exact hchars hmem
    · exact absurd (List.eq_of_mem_replicate hmem) (by decide)
  have hservice : (∃ svc, (detect port env).service = some svc ∧ svc.banner = some b) ↔
      env.connect = .connected ∧
        (serviceInfo port (decodeLossy (heard port env).bytes)).banner = some b := by
    constructor
    · rintro ⟨svc, hsvc, hbanner⟩
      obtain ⟨hconnect, rfl⟩ := service_detect_eq_some_iff.1 hsvc
      exact ⟨hconnect, hbanner⟩
    · rintro ⟨hconnect, hbanner⟩
      exact ⟨_, service_detect_eq_some_iff.2 ⟨hconnect, rfl⟩, hbanner⟩
  rw [hservice, banner_serviceInfo_eq_some_iff, hwhole]
  refine and_congr_right fun _ => ?_
  have htrimmed : trimmedBanner (decodeLossy (heard port env).bytes) = b ↔
      (∃ k, (heard port env).bytes = encode b ++ List.replicate k 0) ∧
        b.getLast? ≠ some '\x00' := by
    rw [trimmedBanner, rdropWhile_eq_iff]
    refine and_congr_left fun _ => exists_congr fun k => ?_
    rw [decodeLossy_eq_iff (hbytes k), encode_append, encode_replicate_zero]
  constructor
  · rintro ⟨hne, hb⟩
    obtain ⟨hheard, hlast⟩ := htrimmed.1 hb
    exact ⟨hb ▸ hne, hlast, hheard⟩
  · rintro ⟨hne, hlast, hheard⟩
    have hb := htrimmed.2 ⟨hheard, hlast⟩
    exact ⟨hb ▸ hne, hb⟩

/-- A VNC server that sends its greeting with two zero bytes. -/
theorem shown_banner_iff_vnc :
    let b := "RFB 003.008\n".toList
    let env : DetectEnv := ⟨.connected, .ready (.ok (encode b ++ [0, 0])), .elapsed, .elapsed⟩
    b.length < 256 ∧ replacement ∉ b ∧
      ∃ svc, (detect 5900 env).service = some svc ∧ svc.banner = some b := by
  intro b env
  have hshort : b.length < 256 := by decide
  have hchars : replacement ∉ b := by decide
  exact ⟨hshort, hchars, (shown_banner_iff 5900 env b hshort hchars).2
    ⟨rfl, by decide, by decide, 2, by decide +kernel⟩⟩

end Rnmap
