import Accessibility.Proofs.Progress.Ledger
import Mathlib.Data.List.Nodup

/-! # Days of a session

A day is completed when exactly two of its other exercises are done. The exercise that brings a day to three is one way
to complete it; to repeat one of the three while there is no fourth is another, which can be taken again and again. -/

namespace Accessibility.Session

/-! ## The exercises done on a day -/

/-- How many exercises of a day are done. -/
def doneOn (s : Session) (day : Int) : Nat :=
  s.done.countP fun (d, _) => d = day

/-- The exercise that is tried is left out of the count of its day, whether it is done or not. -/
theorem doneOn_eq_doneBefore {s : Session} (hs : s.done.Nodup) (day : Int) (activity : Activity.Request) :
    s.doneOn day = s.doneBefore day activity + if (day, activity) ∈ s.done then 1 else 0 := by
  rw [← hs.count]
  unfold doneOn doneBefore
  induction s.done with
  | nil => rfl
  | cons pair rest ih =>
      obtain ⟨d, a⟩ := pair
      rw [List.countP_cons, List.countP_cons, List.count_cons, ih]
      by_cases hday : d = day <;> by_cases hactivity : a = activity <;> simp [hday, hactivity] <;> omega

theorem doneOn_markDone (s : Session) (day : Int) (activity : Activity.Request) (other : Int) :
    (s.markDone day activity).doneOn other =
      s.doneOn other + if day = other ∧ (day, activity) ∉ s.done then 1 else 0 := by
  unfold markDone
  split
  · rename_i hmem
    simp [hmem]
  · rename_i hnew
    simp [hnew, doneOn, List.countP_append, List.countP_cons]

theorem nodup_done_markDone {s : Session} (hs : s.done.Nodup) (day : Int) (activity : Activity.Request) :
    (s.markDone day activity).done.Nodup := by
  unfold markDone
  split
  · exact hs
  · rename_i hnew
    exact List.nodup_append'.mpr ⟨hs, List.nodup_singleton _, by simpa using hnew⟩

variable {s t : Session} {x : Step} {o : Outcome}

theorem Effect.nodup_done (h : s.Effect x o t) (hs : s.done.Nodup) : t.done.Nodup := by
  cases h with
  | passed hverify hpassed hreward =>
      apply nodup_done_markDone
      exact hs
  | notPassed hverify hpassed hreward => exact hs
  | refused hfault => exact hs
  | counted hdate hstreak => simpa [earn] using hs
  | uncounted hdate hfault => simpa using hs

/-! ## Completions -/

/-- Whether a step tries an exercise of a day. -/
def Step.isOn (day : Int) : Step → Bool
  | complete _ _ d _ _ => d = day
  | _ => false

/-- Whether an outcome is rewarded for a whole day. -/
def Outcome.completesDay : Outcome → Bool
  | completed _ reward => reward.dayCompleted
  | _ => false

/-- How many of the entries of a session complete a day. -/
def completions (day : Int) (s : Session) (steps : List Step) : Nat :=
  (steps.zip (s.run steps)).countP fun (x, o, _) => x.isOn day && o.completesDay

/-- One if at least three exercises of a day are done, and zero otherwise. -/
def full (day : Int) (s : Session) : Nat :=
  if 3 ≤ s.doneOn day then 1 else 0

/-- Whether a step gains something from an exercise that is done already, on a day of which exactly three are. -/
def repeatsThird (day : Int) (s : Session) (x : Step) (o : Outcome) : Bool :=
  match x with
  | .complete _ activity d _ _ => d = day && s.done.contains (day, activity) && s.doneOn day = 3 && 0 < o.gained
  | _ => false

/-- How many of the steps of a session are such repetitions. -/
def repetitions (day : Int) (s : Session) : List Step → Nat
  | [] => 0
  | x :: rest => (if repeatsThird day s x (s.step x).1 then 1 else 0) + repetitions day (s.step x).2 rest

/-- A rewarded exercise completes its day exactly when two others are done. -/
theorem completesDay_iff {activity : Activity.Request} {day seconds hints : Int} :
    Reward.completesDay (s.completion activity day seconds hints) = true ↔ s.doneBefore day activity = 2 := by
  rw [Reward.completesDay, decide_eq_true_iff]
  change ((s.doneBefore day activity : Nat) : Int) + 1 = 3 ↔ _
  omega

theorem full_congr (h : t.done = s.done) (day : Int) : full day t = full day s := by
  rw [full, full, doneOn, doneOn, h]

/-- An outcome without a gain changes nothing of a day. -/
theorem Effect.of_gained_eq_zero (h : s.Effect x o t) (ho : o.gained = 0) :
    o.completesDay = false ∧ t.done = s.done := by
  cases h with
  | @passed page activity day seconds hints v r hverify hpassed hreward =>
      have hpos := Reward.gain_pos (s.completion activity day seconds hints)
      rw [Outcome.gained, (Reward.of_passed hreward).1] at ho
      omega
  | notPassed hverify hpassed hreward => exact ⟨(Reward.of_notPassed hreward).2.2.1, rfl⟩
  | refused hfault => exact ⟨rfl, rfl⟩
  | counted hdate hstreak => exact ⟨rfl, dated_done s x⟩
  | uncounted hdate hfault => exact ⟨rfl, dated_done s x⟩

/-- Only a passed exercise gains anything; its day is completed when two others are done, and then it is done itself. -/
theorem Effect.of_gained_ne_zero (h : s.Effect x o t) (ho : o.gained ≠ 0) :
    ∃ page activity day seconds hints, x = .complete page activity day seconds hints ∧
      (o.completesDay = true ↔ s.doneBefore day activity = 2) ∧ ∀ other, t.doneOn other =
        s.doneOn other + if day = other ∧ (day, activity) ∉ s.done then 1 else 0 := by
  cases h with
  | notPassed hverify hpassed hreward => exact absurd (Reward.of_notPassed hreward).1 ho
  | refused hfault => exact absurd rfl ho
  | counted hdate hstreak => exact absurd rfl ho
  | uncounted hdate hfault => exact absurd rfl ho
  | @passed page activity day seconds hints v r hverify hpassed hreward =>
      refine ⟨page, activity, day, seconds, hints, rfl, ?_, ?_⟩
      · rw [Outcome.completesDay, (Reward.of_passed hreward).2.2.1]
        exact completesDay_iff
      · exact doneOn_markDone ({ s with experience := r.total }.earn r.badges) day activity

/-- What a step can do to a day: it completes the day by making it full or by repeating the third. -/
theorem Effect.completions_add_full (h : s.Effect x o t) (hs : s.done.Nodup) (day : Int) :
    (if x.isOn day && o.completesDay then 1 else 0) + full day s =
      full day t + if repeatsThird day s x o then 1 else 0 := by
  by_cases ho : o.gained = 0
  · obtain ⟨hcompletes, hdone⟩ := h.of_gained_eq_zero ho
    have hrepeats : repeatsThird day s x o = false := by
      cases x <;> simp [repeatsThird, ho]
    rw [hcompletes, hrepeats, full_congr hdone]
    simp
  · have hpos : 0 < o.gained := by
      have := h.gained_nonneg
      omega
    obtain ⟨page, activity, d, seconds, hints, rfl, hcompletes, hgrown⟩ := h.of_gained_ne_zero ho
    have hcount := doneOn_eq_doneBefore hs d activity
    by_cases hday : d = day
    · subst hday
      by_cases hmem : (d, activity) ∈ s.done
      · -- The day stays as it is, and the other two are done only if there are three.
        have hthree : s.doneBefore d activity = 2 ↔ s.doneOn d = 3 := by simp [hcount, hmem]
        simp [Step.isOn, repeatsThird, full, hcompletes, hmem, hpos, hthree, hgrown, Nat.add_comm]
      · -- The day grows, and the third exercise is the one that fills it.
        simp only [hmem, if_false, Nat.add_zero] at hcount
        have hnext : t.doneOn d = s.doneOn d + 1 := by simp [hgrown, hmem]
        simp only [Step.isOn, repeatsThird, full, hcompletes, List.contains_eq_mem, hmem, hnext, decide_true,
          decide_false, Bool.true_and, Bool.false_and, Bool.and_false, Bool.false_eq_true, if_false]
        split <;> split <;> split <;> omega
    · simp [Step.isOn, repeatsThird, full, hday, hgrown]

/-! ## The completions of a day -/

theorem completions_cons (day : Int) (s : Session) (x : Step) (rest : List Step) :
    completions day s (x :: rest) =
      (if x.isOn day && (s.step x).1.completesDay then 1 else 0) + completions day (s.step x).2 rest := by
  simp only [completions, run_cons, List.zip_cons_cons, List.countP_cons]
  exact Nat.add_comm _ _

/-- What a run can do to a day, from any session. -/
theorem completions_add_full {s : Session} (hs : s.done.Nodup) (steps : List Step) (day : Int) :
    completions day s steps + full day s = full day (s.after steps) + repetitions day s steps := by
  induction steps generalizing s with
  | nil => simp [completions, repetitions]
  | cons x rest ih =>
      have heffect := s.effect_step x
      have hstep := heffect.completions_add_full hs day
      have hrest := ih (heffect.nodup_done hs)
      rw [completions_cons, repetitions, after_cons]
      omega

theorem full_le_one (day : Int) (s : Session) : full day s ≤ 1 := by
  unfold full
  split <;> decide

theorem full_eq_one_of_repeatsThird {day : Int} (h : repeatsThird day s x o = true) : full day s = 1 := by
  cases x with
  | complete page activity d seconds hints =>
      simp only [repeatsThird, Bool.and_eq_true, decide_eq_true_eq] at h
      simp [full, h.1.2]
  | _ => simp [repeatsThird] at h

/-- A day that is full stays full. -/
theorem Effect.full_le (h : s.Effect x o t) (day : Int) : full day s ≤ full day t := by
  by_cases ho : o.gained = 0
  · exact Nat.le_of_eq (full_congr (h.of_gained_eq_zero ho).2 day).symm
  · obtain ⟨page, activity, d, seconds, hints, -, -, hgrown⟩ := h.of_gained_ne_zero ho
    have hday := hgrown day
    unfold full
    split <;> split <;> omega

theorem full_le_full_after (day : Int) (s : Session) (steps : List Step) : full day s ≤ full day (s.after steps) :=
  after_of_step (p := fun t => full day s ≤ full day t)
    (fun t x h => Nat.le_trans h ((t.effect_step x).full_le day)) (Nat.le_refl _) steps

theorem full_after_of_repetitions {day : Int} {s : Session} {steps : List Step} (h : 0 < repetitions day s steps) :
    full day (s.after steps) = 1 := by
  induction steps generalizing s with
  | nil => simp [repetitions] at h
  | cons x rest ih =>
      by_cases hrepeats : repeatsThird day s x (s.step x).1 = true
      · have hfull := full_eq_one_of_repeatsThird hrepeats
        have hmono := full_le_full_after day s (x :: rest)
        have hbound := full_le_one day (s.after (x :: rest))
        omega
      · rw [repetitions, if_neg hrepeats, Nat.zero_add] at h
        exact ih h

/-- How often a day is completed. Once a third exercise is done, it has been completed once, and each time one of just
three exercises is repeated it is completed again; so it is completed at most once exactly when that never happens. -/
theorem completions_le_one_iff (steps : List Step) (day : Int) :
    completions day {} steps = full day (({} : Session).after steps) + repetitions day {} steps ∧
      (completions day {} steps ≤ 1 ↔ repetitions day {} steps = 0) := by
  have hcount := completions_add_full (s := {}) List.nodup_nil steps day
  have hempty : full day {} = 0 := rfl
  have hfull : 0 < repetitions day {} steps → full day (({} : Session).after steps) = 1 := full_after_of_repetitions
  have hbound := full_le_one day (({} : Session).after steps)
  constructor <;> omega

/-- The first of three exercises, done again, is paid as a whole day once more. -/
theorem completions_repeated :
    ∃ steps, steps = [
        .complete "<h1>Tides</h1>".toList (.known .heading) 1 60 0,
        .complete "<p aria-live=\"polite\">".toList (.known .liveRegion) 1 60 0,
        .complete "prefers-reduced-motion".toList (.known .motion) 1 60 0,
        .complete "<h1>Tides</h1>".toList (.known .heading) 1 60 0] ∧
      completions 1 {} steps = 2 ∧ (({} : Session).run steps).map (fun e => e.1.gained) = [175, 175, 675, 675] :=
  ⟨_, rfl, by decide +kernel, by decide +kernel⟩

end Accessibility.Session
