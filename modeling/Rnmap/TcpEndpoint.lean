/-
**A TCP port and its remote end.**

What the connection of a port to one remote end becomes when a segment without data arrives, as the
TCP specification describes it up to the established state: a closed port refuses, a listening one
answers a SYN, and a connection that is half open is established by an acknowledgement and undone
by a reset in its window.

The remote end of a half-open handshake sends one SYN and, instead of the acknowledgement, resets
from behind it.

Main definitions:

* `Tcp.Segment`, `Tcp.Window`, `Tcp.Conn` — segments, receive windows and states of a connection;
* `Tcp.Conn.receive` — what a segment does to it, and what it is answered with;
* `Tcp.opening`, `Tcp.undoing` — the segments of a half-open handshake;
* `Tcp.Conn.HalfOpen`, `Tcp.Segment.Answers` — what these lead to.

Main results:

* `Tcp.Conn.halfOpen_receive` — **a half-open handshake does not establish a connection**;
* `Tcp.Conn.answers_receive` — the answers tell a listening port from a closed one;
* `Tcp.Conn.receive_undoing` — **the reset undoes the connection**.
-/

import Mathlib.Tactic

set_option relaxedAutoImplicit false
set_option autoImplicit false

namespace Tcp

/-- A segment without data. -/
structure Segment where
  seq : UInt32
  ack : UInt32
  syn : Bool
  hasAck : Bool
  rst : Bool
  deriving DecidableEq, Repr

/-- A receive window. -/
structure Window where
  size : ℕ
  pos : 0 < size
  lt : size < 2 ^ 31

/-- The sequence number is in the window that begins at `nxt`. -/
def Window.accepts (w : Window) (nxt seq : UInt32) : Bool := (seq - nxt).toNat < w.size

/-- The connection of a port to one remote end: the port is closed, or listens; a SYN was received
and answered, with these initial sequence numbers of the own and of the remote end; or the
connection is established. -/
inductive Conn
  | closed
  | listen
  | synReceived (iss irs : UInt32)
  | established
  deriving DecidableEq, Repr

/-- A reset in answer to an acknowledgement. -/
def resetAt (seq : UInt32) : Segment := ⟨seq, 0, false, false, true⟩

/-- A reset in answer to a segment without an acknowledgement. -/
def resetFor (s : Segment) : Segment :=
  ⟨0, s.seq + if s.syn then 1 else 0, false, true, true⟩

/-- The answer to a SYN. -/
def synAck (iss irs : UInt32) : Segment := ⟨iss, irs + 1, true, true, false⟩

/-- The acknowledgement a half-open connection answers a segment outside its window with. -/
def reminder (iss irs : UInt32) : Segment := ⟨iss + 1, irs + 1, false, true, false⟩

/-- What a segment does to a connection, and what it is answered with; `iss` is the initial sequence
number a new connection gets. -/
def Conn.receive (w : Window) (iss : UInt32) (c : Conn) (s : Segment) : Conn × Option Segment :=
  match c with
  | .closed =>
      if s.rst then (.closed, none)
      else if s.hasAck then (.closed, some (resetAt s.ack))
      else (.closed, some (resetFor s))
  | .listen =>
      if s.rst then (.listen, none)
      else if s.hasAck then (.listen, some (resetAt s.ack))
      else if s.syn then (.synReceived iss s.seq, some (synAck iss s.seq))
      else (.listen, none)
  | .synReceived iss' irs =>
      if !w.accepts (irs + 1) s.seq then
        if s.rst then (c, none) else (c, some (reminder iss' irs))
      else if s.rst then (.listen, none)
      else if s.syn then (.listen, some (if s.hasAck then resetAt s.ack else resetFor s))
      else if s.hasAck then
        if s.ack = iss' + 1 then (.established, none) else (c, some (resetAt s.ack))
      else (c, none)
  | .established => (.established, none)

/-! ### Windows -/

theorem Window.accepts_self (w : Window) (nxt : UInt32) : w.accepts nxt nxt = true := by
  simp [Window.accepts, w.pos]

/-- The SYN itself is not in the window behind it. -/
theorem Window.not_accepts_pred (w : Window) (irs : UInt32) : w.accepts (irs + 1) irs = false := by
  have hlt := w.lt
  have hdist : (irs - (irs + 1)).toNat = 2 ^ 32 - 1 := by
    have hone : (1 : UInt32).toNat = 1 := rfl
    have hirs := irs.toNat_lt
    rw [UInt32.toNat_sub, UInt32.toNat_add, hone]
    omega
  simp only [Window.accepts, hdist, decide_eq_false_iff_not]
  omega

/-! ### Half-open handshakes -/

/-- The SYN of a half-open handshake. -/
def opening (seq : UInt32) : Segment := ⟨seq, 0, true, false, false⟩

/-- The reset that ends it. -/
def undoing (seq : UInt32) : Segment := ⟨seq + 1, 0, false, false, true⟩

/-- The states a half-open handshake leads to. -/
def Conn.HalfOpen (seq : UInt32) : Conn → Prop
  | .closed => True
  | .listen => True
  | .synReceived _ irs => irs = seq
  | .established => False

/-- The answers of a listening port acknowledge the SYN, and those of a closed one refuse it. -/
def Segment.Answers (seq : UInt32) (listening : Bool) (s : Segment) : Prop :=
  s.ack = seq + 1 ∧ s.hasAck = true ∧ s.rst = !listening ∧ (s.syn = true → listening = true)

/-- The port listens, as far as one remote end can tell. -/
def Conn.listening : Conn → Bool
  | .closed => false
  | _ => true

variable {w : Window} {iss seq : UInt32} {c : Conn} {s : Segment}

/-- **A segment without an acknowledgement establishes no connection**, and neither opens nor closes
a port. -/
theorem Conn.receive_of_no_ack (h : s.hasAck = false) (hc : c ≠ .established) :
    (c.receive w iss s).1 ≠ .established ∧ (c.receive w iss s).1.listening = c.listening := by
  cases c with
  | established => exact absurd rfl hc
  | closed =>
      simp only [Conn.receive, h, Bool.false_eq_true, if_false]
      split_ifs <;> exact ⟨nofun, rfl⟩
  | listen =>
      simp only [Conn.receive, h, Bool.false_eq_true, if_false]
      split_ifs <;> exact ⟨nofun, rfl⟩
  | synReceived iss' irs =>
      simp only [Conn.receive, h, Bool.false_eq_true, if_false]
      split_ifs <;> exact ⟨nofun, rfl⟩

/-- **The reset undoes the connection**, whichever sequence number the port has chosen. -/
theorem Conn.receive_undoing (w : Window) (iss iss' seq : UInt32) :
    (Conn.synReceived iss' seq).receive w iss (undoing seq) = (.listen, none) := by
  have hin : w.accepts (seq + 1) (undoing seq).seq = true := w.accepts_self (seq + 1)
  rw [Conn.receive, hin]
  rfl

/-- **A half-open handshake does not establish a connection.** -/
theorem Conn.halfOpen_receive (hc : c.HalfOpen seq) (hs : s = opening seq ∨ s = undoing seq) :
    (c.receive w iss s).1.HalfOpen seq := by
  cases c with
  | established => exact hc.elim
  | closed => rcases hs with rfl | rfl <;> exact trivial
  | listen =>
      rcases hs with rfl | rfl
      · exact rfl
      · exact trivial
  | synReceived iss' irs =>
      obtain rfl : irs = seq := hc
      rcases hs with rfl | rfl
      · -- a SYN that arrives again is outside the window
        have hout : w.accepts (irs + 1) (opening irs).seq = false := w.not_accepts_pred irs
        rw [Conn.receive, hout]
        exact rfl
      · rw [Conn.receive_undoing]
        exact trivial

/-- **The answers tell a listening port from a closed one.** -/
theorem Conn.answers_receive (hc : c.HalfOpen seq) (hs : s = opening seq ∨ s = undoing seq)
    {r : Segment} (hr : (c.receive w iss s).2 = some r) : r.Answers seq c.listening := by
  cases c with
  | established => exact hc.elim
  | closed =>
      rcases hs with rfl | rfl
      · obtain rfl := Option.some.inj hr
        exact ⟨rfl, rfl, rfl, nofun⟩
      · cases hr
  | listen =>
      rcases hs with rfl | rfl
      · obtain rfl := Option.some.inj hr
        exact ⟨rfl, rfl, rfl, fun _ => rfl⟩
      · cases hr
  | synReceived iss' irs =>
      obtain rfl : irs = seq := hc
      rcases hs with rfl | rfl
      · have hout : w.accepts (irs + 1) (opening irs).seq = false := w.not_accepts_pred irs
        rw [Conn.receive, hout] at hr
        obtain rfl := Option.some.inj hr
        exact ⟨rfl, rfl, rfl, fun _ => rfl⟩
      · rw [Conn.receive_undoing] at hr
        cases hr

end Tcp
