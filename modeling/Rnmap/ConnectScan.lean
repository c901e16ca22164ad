/-
**The connect scan of one port.**

`connect_scan` tries a TCP connection up to `max_retries + 1` times, each attempt under a timeout,
with a growing pause between attempts.  A script gives the outcome and the duration of each
attempt, and by how much each pause lasted longer than asked for.

Main definitions:

* `Rnmap.ConnectOutcome`, `Rnmap.Attempt` — how one attempt ends;
* `Rnmap.connectLoop`, `Rnmap.connectScan` — the retry loop and the scan;
* `Rnmap.Attempt.decides` — the state an attempt decides, if it does.

Main results:

* `Rnmap.connectScan_isProbeOf` — every result is about the port that was asked for;
* `Rnmap.connectScan_state` — **the first deciding attempt decides the state**.
-/

import Rnmap.Result

set_option relaxedAutoImplicit false
set_option autoImplicit false

namespace Rnmap

/-- How `timeout(connect_timeout, TcpStream::connect(addr))` ends. -/
inductive ConnectOutcome
  | connected
  | failed (e : IoError)
  | elapsed
  deriving DecidableEq, Repr

/-- One attempt: how it ends, how long it takes, and by how much the pause after it lasts longer
than the pause asked for. -/
structure Attempt where
  outcome : ConnectOutcome
  duration : Duration
  oversleep : Duration

/-- The pause after an attempt, in milliseconds. -/
def backoff (attempt : ℕ) : ℕ := 50 * (attempt + 1)

/-- What the retry loop carries: the clock, the text of the last error and the number of attempts
made. -/
structure ConnectState where
  now : Duration
  lastErr : Option Text
  made : ℕ

/-- The result of a scan and the number of attempts it made. -/
structure ConnectRun where
  result : PortResult
  attempts : ℕ

/-- The retry loop over the attempt numbers that are left. -/
def connectLoop (port : UInt16) (maxRetries : ℕ) (script : ℕ → Attempt) (started : Duration) :
    List ℕ → ConnectState → ConnectRun
  | [], s =>
      ⟨⟨port, .tcp, .filtered, s.lastErr.getD "no-response".toList, none, none⟩, s.made⟩
  | attempt :: rest, s =>
      let a := script attempt
      let now := s.now + a.duration
      let resumed :=
        if attempt < maxRetries then now + fromMillis (backoff attempt) + a.oversleep else now
      match a.outcome with
      | .connected =>
          ⟨⟨port, .tcp, .open, "syn-ack".toList, none, some (asMillis (now - started))⟩, s.made + 1⟩
      | .failed e =>
          if e.kind = .connectionRefused ∨ e.kind = .connectionReset then
            ⟨⟨port, .tcp, .closed, "conn-refused".toList, none, some (asMillis (now - started))⟩,
              s.made + 1⟩
          else connectLoop port maxRetries script started rest
            ⟨resumed, some e.display, s.made + 1⟩
      | .elapsed =>
          connectLoop port maxRetries script started rest
            ⟨resumed, some "timeout".toList, s.made + 1⟩

/-- `connect_scan`, with the script of the attempts to the scanned address. -/
def connectScan (port : UInt16) (timing : Timing) (script : ℕ → Attempt) (started : Duration) :
    ConnectRun :=
  connectLoop port timing.maxRetries.toNat script started
    (List.range (timing.maxRetries.toNat + 1)) ⟨started, none, 0⟩

/-- The state an attempt decides: a connection is open, a refusal or a reset is closed. -/
def Attempt.decides (a : Attempt) : Option PortState :=
  match a.outcome with
  | .connected => some .open
  | .failed e =>
      if e.kind = .connectionRefused ∨ e.kind = .connectionReset then some .closed else none
  | .elapsed => none

/-- The loop reports the state of the first attempt that decides one, of the port it was given. -/
theorem connectLoop_spec (port : UInt16) (maxRetries : ℕ) (script : ℕ → Attempt)
    (started : Duration) (ns : List ℕ) (s : ConnectState) :
    (connectLoop port maxRetries script started ns s).result.IsProbeOf port ∧
      (connectLoop port maxRetries script started ns s).result.state =
        (ns.findSome? fun n => (script n).decides).getD .filtered := by
  induction ns generalizing s with
  | nil => exact ⟨⟨rfl, rfl, rfl⟩, rfl⟩
  | cons attempt rest ih =>
      rw [connectLoop, List.findSome?_cons, Attempt.decides]
      cases (script attempt).outcome with
      | connected => exact ⟨⟨rfl, rfl, rfl⟩, rfl⟩
      | elapsed => exact ih _
      | failed e =>
          by_cases hkind : e.kind = .connectionRefused ∨ e.kind = .connectionReset
          · simp only [if_pos hkind]
            exact ⟨⟨rfl, rfl, rfl⟩, rfl⟩
          · -- any other error is retried
            simp only [if_neg hkind]
            exact ih _

/-- **Every result is about the port that was asked for.** -/
theorem connectScan_isProbeOf (port : UInt16) (timing : Timing) (script : ℕ → Attempt)
    (started : Duration) : (connectScan port timing script started).result.IsProbeOf port :=
  (connectLoop_spec _ _ _ _ _ _).1

/-- **The first deciding attempt decides the state**; when none of the attempts does, the port is
filtered. -/
theorem connectScan_state (port : UInt16) (timing : Timing) (script : ℕ → Attempt)
    (started : Duration) :
    (connectScan port timing script started).result.state =
      ((List.range (timing.maxRetries.toNat + 1)).findSome? fun n => (script n).decides).getD
        .filtered :=
  (connectLoop_spec _ _ _ _ _ _).2

end Rnmap
