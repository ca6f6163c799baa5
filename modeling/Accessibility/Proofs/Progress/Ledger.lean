import Accessibility.Proofs.Progress.Session
import Mathlib.Algebra.Ring.Int.Defs
import Mathlib.Data.List.Nodup

/-! # The ledger of a session

A session keeps its experience and its badges apart from the entries that report them. No step changes the one without
the other, so both can be added up from the entries. -/

namespace Accessibility.Session

/-! ## Entries -/

/-- What an entry gains; only that of an exercise gains anything. -/
def Outcome.gained : Outcome → Int
  | completed _ reward => reward.gained
  | _ => 0

/-- The identifiers of the badges that entries award. -/
def awarded (entries : List (Outcome × Session)) : List String :=
  entries.flatMap fun e => e.1.badges.map Badge.id

/-- Two sessions with the same experience, the same badges and the same exercises done. -/
structure SameProgress (s t : Session) : Prop where
  experience_eq : t.experience = s.experience
  earned_eq : t.earned = s.earned
  done_eq : t.done = s.done

/-! ## One step -/

variable {s t : Session} {x : Step} {o : Outcome}

theorem Effect.experience_eq (h : s.Effect x o t) : t.experience = s.experience + o.gained := by
  cases h with
  | passed hverify hpassed hreward =>
      obtain ⟨hgained, htotal, -, -⟩ := Reward.of_passed hreward
      rw [markDone_experience]
      simp [earn, Outcome.gained, htotal, hgained, completion]
  | notPassed hverify hpassed hreward => simp [Outcome.gained, (Reward.of_notPassed hreward).1]
  | refused hfault => simp [Outcome.gained]
  | counted hdate hstreak => simp [earn, Outcome.gained]
  | uncounted hdate hfault => simp [Outcome.gained]

theorem Effect.gained_nonneg (h : s.Effect x o t) : 0 ≤ o.gained := by
  cases h with
  | passed hverify hpassed hreward =>
      rw [Outcome.gained, (Reward.of_passed hreward).1]
      exact Int.le_of_lt (Reward.gain_pos _)
  | notPassed hverify hpassed hreward => exact Int.le_of_eq (Reward.of_notPassed hreward).1.symm
  | refused hfault => exact Int.le_refl 0
  | counted hdate hstreak => exact Int.le_refl 0
  | uncounted hdate hfault => exact Int.le_refl 0

theorem Effect.earned_eq (h : s.Effect x o t) : t.earned = s.earned ++ o.badges.map Badge.id := by
  cases h with
  | passed hverify hpassed hreward => simp [earn, Outcome.badges]
  | notPassed hverify hpassed hreward => simp [Outcome.badges, (Reward.of_notPassed hreward).2.2.2]
  | refused hfault => simp [Outcome.badges]
  | counted hdate hstreak => simp [earn, Outcome.badges]
  | uncounted hdate hfault => simp [Outcome.badges]

/-- A badge of a day is awarded alone, and only where the session lacks it. -/
theorem dayBadges_new {activity : Activity.Request} {day seconds hints : Int} :
    ((Reward.dayBadges (s.completion activity day seconds hints)).map Badge.id).Nodup ∧
      ∀ b ∈ Reward.dayBadges (s.completion activity day seconds hints), b.id ∉ s.earned := by
  unfold Reward.dayBadges
  split
  · rename_i hnew
    cases hday : Badge.ofDay? day with
    | none => simp [completion, hday]
    | some b =>
        obtain ⟨-, hbadge⟩ := Bool.and_eq_true_iff.mp hnew
        simpa [completion, hasBadgeOf, hday] using hbadge
  · simp

/-- What a step awards has not been earned before. -/
theorem Effect.badges_new (h : s.Effect x o t) :
    (o.badges.map Badge.id).Nodup ∧ ∀ b ∈ o.badges, b.id ∉ s.earned := by
  cases h with
  | passed hverify hpassed hreward =>
      rw [Outcome.badges, (Reward.of_passed hreward).2.2.2]
      exact dayBadges_new
  | notPassed hverify hpassed hreward => simp [Outcome.badges, (Reward.of_notPassed hreward).2.2.2]
  | refused hfault => simp [Outcome.badges]
  | counted hdate hstreak =>
      exact ⟨Badge.nodup_ofStreak _ _, fun b hb => Badge.not_mem_of_mem_ofStreak hb⟩
  | uncounted hdate hfault => simp [Outcome.badges]

theorem Effect.nodup_earned (h : s.Effect x o t) (hs : s.earned.Nodup) : t.earned.Nodup := by
  obtain ⟨hnodup, hnew⟩ := h.badges_new
  rw [h.earned_eq, List.nodup_append']
  refine ⟨hs, hnodup, ?_⟩
  intro id hearned hid
  obtain ⟨b, hb, rfl⟩ := List.mem_map.mp hid
  exact hnew b hb hearned

/-- A step that fails, or whose exercise is not passed, makes no progress. -/
theorem Effect.sameProgress (h : s.Effect x o t)
    (hx : (∃ f, o = .failed f) ∨ ∃ v, x.verdict? = some v ∧ v.passed = false) : SameProgress s t := by
  cases h with
  | passed hverify hpassed hreward => simp [Step.verdict?, hverify, hpassed, Except.toOption] at hx
  | notPassed hverify hpassed hreward => exact ⟨rfl, rfl, rfl⟩
  | refused hfault => exact ⟨rfl, rfl, rfl⟩
  | counted hdate hstreak =>
      cases x with
      | complete => cases hdate
      | active date => simp [Step.verdict?] at hx
      | idle date => simp [Step.verdict?] at hx
  | uncounted hdate hfault => exact ⟨dated_experience s x, dated_earned s x, dated_done s x⟩

/-! ## A run -/

theorem experience_after (s : Session) (steps : List Step) :
    (s.after steps).experience = s.experience + ((s.run steps).map fun e => e.1.gained).sum := by
  induction steps generalizing s with
  | nil => simp
  | cons x rest ih =>
      rw [after_cons, ih, (s.effect_step x).experience_eq, run_cons, List.map_cons, List.sum_cons, Int.add_assoc]

theorem earned_after (s : Session) (steps : List Step) :
    (s.after steps).earned = s.earned ++ awarded (s.run steps) := by
  induction steps generalizing s with
  | nil => simp [awarded]
  | cons x rest ih =>
      rw [after_cons, ih, (s.effect_step x).earned_eq, run_cons, awarded, awarded, List.flatMap_cons, List.append_assoc]

theorem nodup_earned_after (steps : List Step) : (({} : Session).after steps).earned.Nodup :=
  after_of_step (fun s x hs => (s.effect_step x).nodup_earned hs) List.nodup_nil steps

/-- The ledger of a session adds up. The experience at the end is what the entries have gained, and no badge is awarded
twice; at every step, the experience does not fall, the badges earned are those awarded so far, and a step that fails
or whose exercise is not passed makes no progress. -/
theorem run_balances (steps : List Step) :
    (({} : Session).after steps).experience = ((({} : Session).run steps).map fun e => e.1.gained).sum ∧
      (awarded (({} : Session).run steps)).Nodup ∧
      ∀ front x back, steps = front ++ x :: back →
        ∃ o t, (({} : Session).after front).step x = (o, t) ∧
          ({} : Session).run steps = ({} : Session).run front ++ (o, t) :: t.run back ∧
          (({} : Session).after front).experience ≤ t.experience ∧
          t.earned = awarded (({} : Session).run front ++ [(o, t)]) ∧
          ((∃ f, o = .failed f) ∨ (∃ v, x.verdict? = some v ∧ v.passed = false) →
            SameProgress (({} : Session).after front) t) := by
  have hearned : ∀ steps, (({} : Session).after steps).earned = awarded (({} : Session).run steps) := by
    intro steps
    rw [earned_after, List.nil_append]
  refine ⟨?_, ?_, ?_⟩
  · rw [experience_after]
    exact Int.zero_add _
  · rw [← hearned]
    exact nodup_earned_after steps
  · rintro front x back rfl
    cases hstep : (({} : Session).after front).step x with
    | mk o t =>
        have heffect := effect_of_step hstep
        refine ⟨o, t, rfl, ?_, ?_, ?_, heffect.sameProgress⟩
        · rw [run_append, run_cons, hstep]
        · have hgained := heffect.gained_nonneg
          rw [heffect.experience_eq]
          omega
        · have hlast := hearned (front ++ [x])
          rwa [after_append, run_append, run_cons, after_cons, hstep] at hlast

end Accessibility.Session
