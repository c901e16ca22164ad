/-
**Half-open handshakes at the same time.**

The probes of the ports of a host run at the same time, and each raw socket is delivered what the
ports answer to the other probes as well.  Such a datagram comes from another port, so that the
filter of a probe lets it pass by: what each of the probes and its port do is what they could have
done alone, and with it everything that holds of a single handshake.

Main definitions:

* `Rnmap.Exchange.Apart` — probes of different ports or targets;
* `Rnmap.Exchange.AtOnce` — the steps of handshakes that are made at the same time.

Main results:

* `Rnmap.Exchange.AtOnce.component` — **a step of all is a step of one of them on its own**;
* `Rnmap.Exchange.reaches_component` — and so are the runs;
* `Rnmap.Exchange.half_open_at_once` — **all handshakes stay half open and all verdicts are right**.
-/

import Rnmap.Handshake

set_option relaxedAutoImplicit false
set_option autoImplicit false

namespace Rnmap

open Bytes Runs

namespace Exchange

variable {ι : Type}

/-- Probes of different ports or targets. -/
def Apart (x : ι → Exchange) : Prop :=
  ∀ i j, i ≠ j → (x i).p.target ≠ (x j).p.target ∨ (x i).p.port ≠ (x j).p.port

section Steps

variable [DecidableEq ι] (x : ι → Exchange)

/-- **The steps of handshakes at the same time**: one of them makes a step, or its probe reads what
the port of another has sent to the probe of that, which decides it or does not. -/
inductive AtOnce : (ι → State) → (ι → State) → Prop
  | own {s : ι → State} {i : ι} {t : State} :
      (x i).Step (s i) t → AtOnce s (Function.update s i t)
  | cross {s : ι → State} {i j : ι} {b : Bytes} {r : Tcp.Segment} :
      i ≠ j → (s i).client = .waiting → (x j).Carries b r → (x i).judged b = some none →
      AtOnce s (Function.update s i { s i with seen := (s i).seen ++ [b.take 1500] })
  | crossDecide {s : ι → State} {i j : ι} {b : Bytes} {r : Tcp.Segment} {v : Verdict} :
      i ≠ j → (s i).client = .waiting → (x j).Carries b r → (x i).judged b = some (some v) →
      AtOnce s (Function.update s i { s i with
        client := .ended (some v)
        sent := (s i).sent ++ (x i).replies v
        seen := (s i).seen ++ [b.take 1500]
        toTarget := (s i).toTarget ++ (x i).replies v })

end Steps

/-! ### Each on its own -/

variable {x : ι → Exchange}

/-- What a port sends to its own probe is not taken for the answer to another. -/
theorem Apart.not_isSegment (h : Apart x) {i j : ι} (hij : i ≠ j) {b : Bytes} {r : Tcp.Segment}
    (hb : (x j).Carries b r) : ¬ (x i).p.IsSegment b := by
  intro hi
  obtain ⟨⟨hj, hport, -⟩, -⟩ := hb
  rcases h i j hij with htarget | hne
  · exact htarget (hi.1.2.2.2.1.symm.trans hj.2.2.2.1)
  · exact hne (hi.2.1.symm.trans hport)

variable [DecidableEq ι]

/-- **A step of all is a step of one of them on its own**, and leaves the others alone. -/
theorem AtOnce.component (h : Apart x) {s t : ι → State} (hs : AtOnce x s t) (k : ι) :
    t k = s k ∨ (x k).Step (s k) (t k) := by
  cases hs with
  | @own i t hstep =>
      by_cases hk : k = i
      · subst hk
        rw [Function.update_self]
        exact .inr hstep
      · exact .inl (Function.update_of_ne hk _ _)
  | @cross i j b r hij hwaiting hcarries hjudged =>
      by_cases hk : k = i
      · subst hk
        rw [Function.update_self]
        exact .inr (.overhear hwaiting (h.not_isSegment hij hcarries) hjudged)
      · exact .inl (Function.update_of_ne hk _ _)
  | @crossDecide i j b r v hij hwaiting hcarries hjudged =>
      -- the filter lets it pass by
      exact absurd (isSegment_of_judged hjudged) (h.not_isSegment hij hcarries)

/-- Each of the handshakes goes on as it could alone. -/
theorem reaches_component (h : Apart x) {port : ι → Tcp.Conn} {s : ι → State}
    (hs : Reachable (AtOnce x) (fun i => .start (port i)) s) (i : ι) :
    (x i).Reaches (port i) (s i) := by
  induction hs with
  | refl => exact Reachable.init
  | tail _ hstep ih =>
      rcases hstep.component h i with heq | hown
      · exact heq ▸ ih
      · exact ih.step hown

/-- **All handshakes stay half open and all verdicts are right**, whatever the raw sockets of the
probes are delivered of each other's answers: what each of the probes and its port do is a run that
they could make alone. -/
theorem half_open_at_once (h : Apart x) {port : ι → Tcp.Conn}
    (hport : ∀ i, port i = .closed ∨ port i = .listen) {s : ι → State}
    (hs : Reachable (AtOnce x) (fun i => .start (port i)) s) (i : ι) :
    (s i).port ≠ .established ∧ (s i).sent <+: [(x i).syn, (x i).rst] ∧
      (∀ v, (s i).client = .ended (some v) →
        (v = .open ((x i).seq + 1) ∧ port i = .listen) ∨ (v = .closed ∧ port i = .closed)) ∧
      (x i).Reaches (port i) (s i) := by
  have hreaches := reaches_component h hs i
  have hinv := inv_of_reaches (hport i) hreaches
  exact ⟨hinv.not_established, hinv.sent.1, fun v hv => hinv.verdict_tells (hport i) hv, hreaches⟩

/-- What one of the handshakes can do alone it can do beside the others. -/
theorem reachable_update {i : ι} {s : ι → State} {t : State}
    (h : Reachable (x i).Step (s i) t) : Reachable (AtOnce x) s (Function.update s i t) := by
  induction h with
  | refl =>
      rw [Function.update_eq_self]
      exact Reachable.init
  | @tail t u _ hstep ih =>
      have hown : (x i).Step (Function.update s i t i) u := by
        rw [Function.update_self]
        exact hstep
      have hboth := AtOnce.own hown
      rw [Function.update_idem] at hboth
      exact ih.step hboth

/-! ### Two probes -/

/-- A probe of port 81 beside that of port 80. -/
def samplePair : Bool → Exchange
  | false => sample
  | true => { sample with p := { sample.p with port := 81, srcPort := 40001 } }

theorem apart_samplePair : Apart samplePair := by
  intro i j hij
  refine .inr ?_
  cases i with
  | false =>
      cases j with
      | false => exact absurd rfl hij
      | true => decide
  | true =>
      cases j with
      | false => decide
      | true => exact absurd rfl hij

/-- The probe of port 81 reads the SYN-ACK of port 80 before it gives up. -/
theorem half_open_at_once_sample :
    ∃ s, Reachable (AtOnce samplePair) (fun _ => .start .listen) s ∧
      (s false).client = .ended (some (.open 8)) ∧ (s true).seen = [sampleAnswer] ∧
      (s true).sent <+: [(samplePair true).syn, (samplePair true).rst] ∧
      (samplePair true).Reaches .listen (s true) := by
  let start : Bool → State := fun _ => .start .listen
  let waiting : State :=
    ⟨.waiting, [(samplePair true).syn], [], .listen, [(samplePair true).syn], []⟩
  have hport80 : Reachable (AtOnce samplePair) start
      (Function.update start false sampleAnswered) := reachable_update reaches_sampleAnswered
  have hsend : (samplePair true).Step (Function.update start false sampleAnswered true) waiting :=
    .send rfl
  have hjudged : (samplePair true).judged sampleAnswer = some none := by
    rw [judged_eq, take_sampleAnswer, verdict, sampleAnswer, builtPacket, verdictOf_packet]
    rfl
  have hcarries : (samplePair false).Carries sampleAnswer _ := carries_builtPacket 9 7 8 0x12 64240
  have hcross := AtOnce.cross (s := Function.update (Function.update start false sampleAnswered)
    true waiting) Bool.noConfusion rfl hcarries hjudged
  rw [take_sampleAnswer] at hcross
  have hs := (hport80.step (.own hsend)).step hcross
  have hports : ∀ i : Bool, Tcp.Conn.listen = .closed ∨ Tcp.Conn.listen = .listen :=
    fun _ => .inr rfl
  obtain ⟨-, hsent, -, hreaches⟩ := half_open_at_once apart_samplePair hports hs true
  exact ⟨_, hs, rfl, rfl, hsent, hreaches⟩

end Exchange

end Rnmap
