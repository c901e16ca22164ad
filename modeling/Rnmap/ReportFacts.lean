/-
**What a report says.**

A report in any format says of each host in which state it is and why, its address and its name,
and of each of its ports the protocol, the number, the state, the reason and the service.  The
formats write the enumerations as words, which their readers turn back.

Main definitions:

* `Rnmap.ServiceFacts`, `Rnmap.PortFacts`, `Rnmap.HostFacts` — what is said;
* `Rnmap.HostResult.facts` — what a result says, when only some ports are kept;
* `Rnmap.readProtocol`, `Rnmap.readPortState`, `Rnmap.readHostState` — the words;
* `Rnmap.readCount` — the counts.
-/

import Rnmap.Result

set_option relaxedAutoImplicit false
set_option autoImplicit false

namespace Rnmap

open Text

/-- What a report says of a service. -/
structure ServiceFacts where
  name : Text
  product : Option Text
  version : Option Text
  deriving DecidableEq

/-- What a report says of a port. -/
structure PortFacts where
  protocol : Protocol
  port : UInt16
  state : PortState
  reason : Text
  service : Option ServiceFacts
  deriving DecidableEq

/-- What a report says of a host. -/
structure HostFacts where
  state : HostState
  reason : Text
  address : IpAddr
  hostname : Option Text
  ports : List PortFacts

def ServiceInfo.facts (svc : ServiceInfo) : ServiceFacts := ⟨svc.name, svc.product, svc.version⟩

def PortResult.facts (p : PortResult) : PortFacts :=
  ⟨p.protocol, p.port, p.state, p.reason, p.service.map ServiceInfo.facts⟩

/-- What is said of a host of whose ports these are kept. -/
def HostResult.facts (h : HostResult) (kept : List PortResult) : HostFacts :=
  ⟨h.state, h.reason, h.address, h.hostname, kept.map PortResult.facts⟩

/-! ### Words -/

/-- The value some text stands for. -/
def ofText {α : Type} (text : α → Text) (values : List α) (s : Text) : Option α :=
  values.find? fun a => text a = s

def readProtocol : Text → Option Protocol := ofText Protocol.display [.tcp, .udp]

def readPortState : Text → Option PortState :=
  ofText PortState.display [.open, .closed, .filtered, .unfiltered]

def readHostState : Text → Option HostState := ofText HostState.word [.up, .down, .unknown]

theorem readProtocol_display (p : Protocol) : readProtocol p.display = some p := by
  cases p <;> decide

theorem readPortState_display (st : PortState) : readPortState st.display = some st := by
  cases st <;> decide

theorem readHostState_word (st : HostState) : readHostState st.word = some st := by
  cases st <;> decide

/-- A count, by its digits. -/
def readCount (s : Text) : Option ℕ :=
  if s.all Char.isDigit && !s.isEmpty then some (Nat.ofDigitChars 10 s 0) else none

theorem readCount_decimal (n : ℕ) : readCount (decimal n) = some n := by
  have hdigits : (decimal n).all Char.isDigit = true :=
    List.all_eq_true.2 fun c hc => isDigit_of_mem_decimal hc
  have hne : (decimal n).isEmpty = false := by
    rw [List.isEmpty_eq_false_iff]
    exact Nat.toDigits_ne_nil
  have hvalue : Nat.ofDigitChars 10 (decimal n) 0 = n :=
    Nat.ofDigitChars_toDigits (by decide) (by decide)
  rw [readCount, hdigits, hne, hvalue]
  rfl

/-- Reading what each value was written as gives back the values. -/
theorem mapM_map {α β γ : Type} {f : α → β} {g : β → Option γ} {k : α → γ} {xs : List α}
    (h : ∀ x ∈ xs, g (f x) = some (k x)) : (xs.map f).mapM g = some (xs.map k) := by
  induction xs with
  | nil => rfl
  | cons x xs ih =>
      obtain ⟨hx, hxs⟩ := List.forall_mem_cons.1 h
      rw [List.map_cons, List.mapM_cons, hx, ih hxs]
      rfl

end Rnmap
