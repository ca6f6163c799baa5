import Accessibility.Progress.Session

/-! # Runs of a session

What a step can do is said once, by `Effect`. Everything that holds over a whole run follows from what one effect
keeps. -/

namespace Accessibility

theorem exists_of_map_eq_ok {α β : Type} {f : α → β} {x : Except Fault α} {y : β} (h : x.map f = .ok y) :
    ∃ a, x = .ok a ∧ f a = y := by
  cases x with
  | error e => cases h
  | ok a =>
      cases h
      exact ⟨a, rfl, rfl⟩

/-! ## Rewards -/

/-- What a passed exercise earns. -/
theorem Reward.of_passed {c : Completion} {r : Reward} (h : Reward.ofCompletion true c = .ok r) :
    r.gained = gain c ∧ r.total = c.experience + gain c ∧ r.dayCompleted = completesDay c ∧
      r.badges = dayBadges c := by
  rw [ofCompletion, if_pos rfl] at h
  obtain ⟨level, -, rfl⟩ := exists_of_map_eq_ok h
  exact ⟨rfl, rfl, rfl, rfl⟩

/-- An exercise that is not passed earns nothing. -/
theorem Reward.of_notPassed {c : Completion} {r : Reward} (h : Reward.ofCompletion false c = .ok r) :
    r.gained = 0 ∧ r.total = c.experience ∧ r.dayCompleted = false ∧ r.badges = [] := by
  rw [ofCompletion, if_neg Bool.false_ne_true] at h
  obtain ⟨level, -, rfl⟩ := exists_of_map_eq_ok h
  exact ⟨rfl, rfl, rfl, rfl⟩

theorem Reward.gain_pos (c : Completion) : 0 < gain c := by
  unfold gain ofExercise dayBonus
  split <;> split <;> split <;> decide

/-! ## Badges -/

theorem Badge.nodup_milestones : ((milestones.map streak).map Badge.id).Nodup := by
  decide +kernel

theorem Badge.nodup_ofStreak (current : Int) (earned : List String) :
    ((ofStreak current earned).map Badge.id).Nodup := by
  have hsublist : (ofStreak current earned).Sublist (milestones.map streak) :=
    List.filter_sublist.map streak
  exact nodup_milestones.sublist (hsublist.map Badge.id)

theorem Badge.not_mem_of_mem_ofStreak {current : Int} {earned : List String} {b : Badge}
    (h : b ∈ ofStreak current earned) : b.id ∉ earned := by
  obtain ⟨days, hdays, rfl⟩ := List.mem_map.mp h
  have hkept := (List.mem_filter.mp hdays).2
  simp only [Bool.and_eq_true, Bool.not_eq_true', List.contains_eq_mem, decide_eq_false_iff_not] at hkept
  exact hkept.2

namespace Session

/-! ## What the parts of a step leave alone -/

@[simp] theorem markDone_experience (s : Session) (day : Int) (activity : Activity.Request) :
    (s.markDone day activity).experience = s.experience := by
  unfold markDone
  split <;> rfl

@[simp] theorem markDone_earned (s : Session) (day : Int) (activity : Activity.Request) :
    (s.markDone day activity).earned = s.earned := by
  unfold markDone
  split <;> rfl

@[simp] theorem markDone_streak (s : Session) (day : Int) (activity : Activity.Request) :
    (s.markDone day activity).streak = s.streak := by
  unfold markDone
  split <;> rfl

@[simp] theorem addDate_experience (s : Session) (date : Date) : (s.addDate date).experience = s.experience := by
  unfold addDate
  split <;> rfl

@[simp] theorem addDate_earned (s : Session) (date : Date) : (s.addDate date).earned = s.earned := by
  unfold addDate
  split <;> rfl

@[simp] theorem addDate_done (s : Session) (date : Date) : (s.addDate date).done = s.done := by
  unfold addDate
  split <;> rfl

@[simp] theorem addDate_streak (s : Session) (date : Date) : (s.addDate date).streak = s.streak := by
  unfold addDate
  split <;> rfl

theorem mem_addDate_iff {s : Session} {date d : Date} : d ∈ (s.addDate date).dates ↔ d = date ∨ d ∈ s.dates := by
  unfold addDate
  split
  · rename_i hmem
    constructor
    · exact .inr
    · rintro (rfl | h)
      · exact hmem
      · exact h
  · simp [or_comm]

/-! ## Steps -/

namespace Step

/-- The verdict on the page of a step. -/
def verdict? : Step → Option Verdict
  | complete page activity _ _ _ => (Exercise.verify page activity).toOption
  | _ => none

/-- The day on which a step looks at the streak. -/
def date? : Step → Option Date
  | complete .. => none
  | active date | idle date => some date

end Step

/-- The session with the date of an active step. -/
def dated (s : Session) : Step → Session
  | .active date => s.addDate date
  | _ => s

@[simp] theorem dated_experience (s : Session) (x : Step) : (s.dated x).experience = s.experience := by
  cases x <;> simp [dated]

@[simp] theorem dated_earned (s : Session) (x : Step) : (s.dated x).earned = s.earned := by
  cases x <;> simp [dated]

@[simp] theorem dated_done (s : Session) (x : Step) : (s.dated x).done = s.done := by
  cases x <;> simp [dated]

@[simp] theorem dated_streak (s : Session) (x : Step) : (s.dated x).streak = s.streak := by
  cases x <;> simp [dated]

/-- What a step can do to a session. -/
inductive Effect (s : Session) : Step → Outcome → Session → Prop
  | passed {page activity day seconds hints v r} (hverify : Exercise.verify page activity = .ok v)
      (hpassed : v.passed = true)
      (hreward : Reward.ofCompletion true (s.completion activity day seconds hints) = .ok r) :
      Effect s (.complete page activity day seconds hints) (.completed v.message r)
        (({ s with experience := r.total }.earn r.badges).markDone day activity)
  | notPassed {page activity day seconds hints v r} (hverify : Exercise.verify page activity = .ok v)
      (hpassed : v.passed = false)
      (hreward : Reward.ofCompletion false (s.completion activity day seconds hints) = .ok r) :
      Effect s (.complete page activity day seconds hints) (.completed v.message r) s
  | refused {page activity day seconds hints f} (hfault : s.complete page activity day seconds hints = .error f) :
      Effect s (.complete page activity day seconds hints) (.failed f) s
  | counted {x date streak} (hdate : x.date? = some date)
      (hstreak : s.streak.advance (s.dated x).dates date = .ok streak) :
      Effect s x (.streak streak (Badge.ofStreak streak.current s.earned))
        ({ s.dated x with streak }.earn (Badge.ofStreak streak.current s.earned))
  | uncounted {x date f} (hdate : x.date? = some date) (hfault : s.streak.advance (s.dated x).dates date = .error f) :
      Effect s x (.failed f) (s.dated x)

theorem step_of_date {s : Session} {x : Step} {date : Date} (h : x.date? = some date) :
    s.step x =
      match (s.dated x).passDay date with
      | .ok next => next
      | .error f => (.failed f, s.dated x) := by
  cases x with
  | complete page activity day seconds hints => cases h
  | active d =>
      cases h
      rfl
  | idle d =>
      cases h
      rfl

theorem passDay_of_ok {s : Session} {date : Date} {streak : Streak} (h : s.streak.advance s.dates date = .ok streak) :
    s.passDay date =
      .ok (.streak streak (Badge.ofStreak streak.current s.earned),
        { s with streak }.earn (Badge.ofStreak streak.current s.earned)) := by
  simp [passDay, h, bind, Except.bind, pure, Except.pure]

theorem passDay_of_error {s : Session} {date : Date} {f : Fault} (h : s.streak.advance s.dates date = .error f) :
    s.passDay date = .error f := by
  simp [passDay, h, bind, Except.bind]

theorem step_of_advance {s : Session} {x : Step} {date : Date} {streak : Streak} (hdate : x.date? = some date)
    (h : s.streak.advance (s.dated x).dates date = .ok streak) :
    s.step x =
      (.streak streak (Badge.ofStreak streak.current s.earned),
        { s.dated x with streak }.earn (Badge.ofStreak streak.current s.earned)) := by
  have hbadges : Badge.ofStreak streak.current (s.dated x).earned = Badge.ofStreak streak.current s.earned := by
    rw [dated_earned]
  rw [← dated_streak s x] at h
  rw [step_of_date hdate, passDay_of_ok h, hbadges]

theorem step_of_advance_error {s : Session} {x : Step} {date : Date} {f : Fault} (hdate : x.date? = some date)
    (h : s.streak.advance (s.dated x).dates date = .error f) : s.step x = (.failed f, s.dated x) := by
  rw [← dated_streak s x] at h
  rw [step_of_date hdate, passDay_of_error h]

theorem effect_of_date {s : Session} {x : Step} {date : Date} (h : x.date? = some date) :
    s.Effect x (s.step x).1 (s.step x).2 := by
  cases hadvance : s.streak.advance (s.dated x).dates date with
  | error f =>
      rw [step_of_advance_error h hadvance]
      exact .uncounted h hadvance
  | ok streak =>
      rw [step_of_advance h hadvance]
      exact .counted h hadvance

theorem effect_of_complete {s : Session} {page : Text} {activity : Activity.Request} {day seconds hints : Int}
    {next : Outcome × Session} (h : s.complete page activity day seconds hints = .ok next) :
    s.Effect (.complete page activity day seconds hints) next.1 next.2 := by
  unfold complete at h
  cases hverify : Exercise.verify page activity with
  | error f => simp [hverify, bind, Except.bind] at h
  | ok v =>
      cases hreward : Reward.ofCompletion v.passed (s.completion activity day seconds hints) with
      | error f => simp [hverify, hreward, bind, Except.bind] at h
      | ok r =>
          simp only [hverify, hreward, bind, Except.bind, pure, Except.pure, Except.ok.injEq] at h
          subst h
          cases hpassed : v.passed with
          | true =>
              rw [hpassed] at hreward
              exact .passed hverify hpassed hreward
          | false =>
              rw [hpassed] at hreward
              obtain ⟨-, htotal, -, hbadges⟩ := Reward.of_notPassed hreward
              have hsame : { s with experience := r.total }.earn r.badges = s := by
                simp [htotal, hbadges, earn, completion]
              simp only [Bool.false_eq_true, if_false, hsame]
              exact .notPassed hverify hpassed hreward

/-- Every step has one of the effects. -/
theorem effect_step (s : Session) (x : Step) : s.Effect x (s.step x).1 (s.step x).2 := by
  cases x with
  | active date => exact effect_of_date rfl
  | idle date => exact effect_of_date rfl
  | complete page activity day seconds hints =>
      rw [step]
      cases hcomplete : s.complete page activity day seconds hints with
      | error f => exact .refused hcomplete
      | ok next => exact effect_of_complete hcomplete

theorem effect_of_step {s t : Session} {x : Step} {o : Outcome} (h : s.step x = (o, t)) : s.Effect x o t := by
  have heffect := s.effect_step x
  rwa [h] at heffect

/-! ## Runs -/

/-- The session after a list of steps. -/
def after (s : Session) (steps : List Step) : Session :=
  steps.foldl (fun t x => (t.step x).2) s

@[simp] theorem after_nil (s : Session) : s.after [] = s := rfl

@[simp] theorem after_cons (s : Session) (x : Step) (rest : List Step) :
    s.after (x :: rest) = (s.step x).2.after rest := rfl

theorem after_append (s : Session) (front back : List Step) :
    s.after (front ++ back) = (s.after front).after back := by
  simp [after]

@[simp] theorem run_nil (s : Session) : s.run [] = [] := rfl

@[simp] theorem run_cons (s : Session) (x : Step) (rest : List Step) :
    s.run (x :: rest) = s.step x :: (s.step x).2.run rest := rfl

theorem run_append (s : Session) (front back : List Step) :
    s.run (front ++ back) = s.run front ++ (s.after front).run back := by
  induction front generalizing s with
  | nil => rfl
  | cons x front ih =>
      rw [List.cons_append, run_cons, run_cons, ih, after_cons, List.cons_append]

/-- What every step keeps, a run keeps. -/
theorem after_of_step {p : Session → Prop} (hstep : ∀ s x, p s → p (s.step x).2) {s : Session} (hs : p s)
    (steps : List Step) : p (s.after steps) := by
  induction steps generalizing s with
  | nil => exact hs
  | cons x rest ih => exact ih (hstep s x hs)

end Session

end Accessibility
