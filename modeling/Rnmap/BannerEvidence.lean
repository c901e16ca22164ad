/-
**Banner evidence against port hints.**

The cascade tests content and port stage by stage, so the port hint of an early stage hides the
signature of a later one.  For a banner with a signature other than the ambiguous 220 greeting, the
guess is the same on two ports exactly when the same hint, or none, hides the banner's signatures
on both.

Main definitions:

* `Rnmap.HasSignature` — a banner with a signature other than the 220 greeting;
* `Rnmap.shadowedBy` — the service whose port hint hides the signatures of a banner.

Main results:

* `Rnmap.find_applies_eq` — the stage that returns, as signature or hint decides;
* `Rnmap.guess_eq_guess_iff` — **when two ports get the same guess**.
-/

import Rnmap.Service

set_option relaxedAutoImplicit false
set_option autoImplicit false

namespace Rnmap

open Text ClassRegex

/-- The stages with a signature other than the 220 greeting. -/
def contentStages : List Stage :=
  [sshStage, httpStage, mysqlStage, redisStage, postgresStage, vncStage, imapStage, pop3Stage]

/-- A banner with a signature other than the 220 greeting. -/
def HasSignature (banner : Text) : Prop := ∃ st ∈ contentStages, st.test banner = true

/-- A stage that returns on its signature alone, and the banner has it. -/
def Stage.signs (st : Stage) (banner : Text) : Bool := !st.both && st.test banner

/-- A stage that returns on its port hint alone, unlike that of SMTP, and the port is one. -/
def Stage.hinted (st : Stage) (port : UInt16) : Bool := !st.both && st.hints.contains port

/-- The first stage whose signature the banner has. -/
def contentStage (banner : Text) : Option Stage := stages.find? fun st => st.signs banner

/-- The stage of which the port is a hint, among those before the first signature. -/
def shadowStage (port : UInt16) (banner : Text) : Option Stage :=
  (stages.takeWhile fun st => !st.signs banner).find? fun st => st.hinted port

/-- The service whose port hint hides the signatures of a banner. -/
def shadowedBy (port : UInt16) (banner : Text) : Option Text :=
  (shadowStage port banner).map Stage.name

/-! ### The stages -/

/-- No two stages name the same service. -/
theorem stage_eq_of_name_eq {st st' : Stage} (h : st ∈ stages) (h' : st' ∈ stages)
    (hname : st.name = st'.name) : st = st' := by
  have hnodup : (stages.map Stage.name).Nodup := by decide
  exact List.inj_on_of_nodup_map hnodup h h' hname

/-- Of all stages only that of SMTP needs both signature and hint. -/
theorem applies_eq {st : Stage} (h : st ∈ stages) {port : UInt16} {banner : Text}
    (hsmtp : smtp.isMatch banner = false) :
    st.applies port banner = (st.signs banner || st.hinted port) := by
  unfold Stage.applies Stage.signs Stage.hinted
  cases hboth : st.both with
  | false => rfl
  | true =>
      have htest : st.test banner = false := by
        simp only [stages, List.mem_cons, List.not_mem_nil, or_false] at h
        rcases h with rfl | rfl | rfl | rfl | rfl | rfl | rfl | rfl | rfl | rfl
        case inr.inr.inr.inl => exact hsmtp
        all_goals cases hboth
      rw [htest]
      rfl

/-- Searching for one of two properties: the second decides before the first holds. -/
theorem find_or {α : Type} (c h : α → Bool) (xs : List α) :
    (xs.find? fun x => c x || h x) = ((xs.takeWhile fun x => !c x).find? h).or (xs.find? c) := by
  induction xs with
  | nil => rfl
  | cons x xs ih =>
      rw [List.takeWhile_cons, List.find?_cons, List.find?_cons]
      cases hc : c x with
      | true => simp
      | false =>
          rw [Bool.not_false, if_pos rfl, List.find?_cons, Bool.false_or]
          cases h x with
          | true => rfl
          | false => exact ih

/-- **The stage that returns** is the one that shadows the banner's signatures, or else the first
whose signature the banner has: the SMTP stage is never reached. -/
theorem find_applies_eq (port : UInt16) (banner : Text) :
    (stages.find? fun st => st.applies port banner) =
      (shadowStage port banner).or (contentStage banner) := by
  unfold shadowStage contentStage
  rw [← find_or]
  cases hsmtp : smtp.isMatch banner with
  | false =>
      refine List.find?_congr fun st hst => ?_
      exact applies_eq hst hsmtp
  | true =>
      -- one of the first three stages returns, on the same test for the one search as for the other
      have hftp := ftp_isMatch_of_smtp hsmtp
      cases hssh : ssh.isMatch banner with
      | true => simp [stages, Stage.applies, Stage.signs, sshStage, hssh]
      | false =>
          cases hhttp : isHttp banner with
          | true =>
              simp [stages, Stage.applies, Stage.signs, Stage.hinted, sshStage, httpStage, hssh,
                hhttp]
          | false =>
              simp [stages, Stage.applies, Stage.signs, Stage.hinted, sshStage, httpStage, ftpStage,
                hssh, hhttp, hftp]

theorem mem_stages_of_content {st : Stage} (h : st ∈ contentStages) :
    st ∈ stages ∧ st.both = false := by
  simp only [contentStages, List.mem_cons, List.not_mem_nil, or_false] at h
  rcases h with rfl | rfl | rfl | rfl | rfl | rfl | rfl | rfl
  all_goals exact ⟨by simp only [stages, List.mem_cons, true_or, or_true], rfl⟩

/-- A banner with a signature has a first one. -/
theorem contentStage_isSome {banner : Text} (h : HasSignature banner) :
    ∃ st, contentStage banner = some st := by
  obtain ⟨st, hst, htest⟩ := h
  obtain ⟨hmem, hboth⟩ := mem_stages_of_content hst
  refine Option.isSome_iff_exists.1 (List.find?_isSome.2 ⟨st, hmem, ?_⟩)
  rw [Stage.signs, hboth, htest]
  rfl

/-- A stage that shadows comes before the first signature, so it is not the one that has it. -/
theorem shadowStage_spec {port : UInt16} {banner : Text} {st : Stage}
    (h : shadowStage port banner = some st) : st ∈ stages ∧ contentStage banner ≠ some st := by
  have hmem := List.mem_of_find?_eq_some h
  refine ⟨(List.takeWhile_prefix _).subset hmem, fun hcontent => ?_⟩
  have hsigns := List.find?_some (p := fun st : Stage => st.signs banner) hcontent
  have hnot := List.all_eq_true.1 List.all_takeWhile st hmem
  simp [hsigns] at hnot

/-! ### Two ports -/

/-- **Two ports get the same guess** for a banner with a signature exactly when the same port hint
hides its signatures on both, or none does on either.  The ports of SMTP are no hint on their own:
its stage needs its signature as well. -/
theorem guess_eq_guess_iff {banner : Text} (h : HasSignature banner) (p q : UInt16) :
    guessFromBanner p banner = guessFromBanner q banner ↔
      shadowedBy p banner = shadowedBy q banner := by
  obtain ⟨content, hcontent⟩ := contentStage_isSome h
  have hmem := List.mem_of_find?_eq_some hcontent
  have hguess : ∀ port, guessFromBanner port banner =
      ⟨((shadowStage port banner).getD content).name,
        (((shadowStage port banner).getD content).found banner).1,
        (((shadowStage port banner).getD content).found banner).2⟩ := by
    intro port
    refine guess_of_find ?_
    rw [find_applies_eq, hcontent]
    cases shadowStage port banner <;> rfl
  rw [hguess, hguess]
  unfold shadowedBy
  constructor
  · -- the stage can be told from the name it guesses
    intro heq
    have hname := congrArg Guess.name heq
    cases hp : shadowStage p banner with
    | none =>
        cases hq : shadowStage q banner with
        | none => rfl
        | some st =>
            obtain ⟨hst, hne⟩ := shadowStage_spec hq
            rw [hp, hq] at hname
            exact absurd (stage_eq_of_name_eq hmem hst hname ▸ hcontent) hne
    | some st =>
        obtain ⟨hst, hne⟩ := shadowStage_spec hp
        cases hq : shadowStage q banner with
        | none =>
            rw [hp, hq] at hname
            exact absurd (stage_eq_of_name_eq hmem hst hname.symm ▸ hcontent) hne
        | some st' =>
            rw [hp, hq] at hname
            exact congrArg some hname
  · intro hshadow
    have hstage : shadowStage p banner = shadowStage q banner := by
      cases hp : shadowStage p banner with
      | none =>
          rw [hp] at hshadow
          exact (Option.map_eq_none_iff.1 hshadow.symm).symm
      | some st =>
          rw [hp] at hshadow
          obtain ⟨st', hq, hname⟩ := Option.map_eq_some_iff.1 hshadow.symm
          rw [hq, stage_eq_of_name_eq (shadowStage_spec hq).1 (shadowStage_spec hp).1 hname]
    rw [hstage]

/-- A POP3 greeting on the port of POP3 and on port 80. -/
theorem guess_eq_guess_iff_pop3 :
    guessFromBanner 110 "+OK ready".toList = guessFromBanner 80 "+OK ready".toList ↔
      shadowedBy 110 "+OK ready".toList = shadowedBy 80 "+OK ready".toList :=
  guess_eq_guess_iff ⟨pop3Stage, by simp [contentStages], by decide +kernel⟩ 110 80

/-- On port 3306 a POP3 greeting is taken for MySQL. -/
theorem port_hint_hides_signature :
    ¬ ∀ banner, HasSignature banner →
      ∀ p q : UInt16, guessFromBanner p banner = guessFromBanner q banner := by
  intro h
  have hpop3 : HasSignature "+OK ready".toList :=
    ⟨pop3Stage, by simp [contentStages], by decide +kernel⟩
  exact absurd (h _ hpop3 110 3306) (by decide +kernel)

end Rnmap
