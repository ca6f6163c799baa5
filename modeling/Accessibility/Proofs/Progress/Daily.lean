import Accessibility.Proofs.Progress.Streak
import Mathlib.Data.List.Infix

/-! # The streak over consecutive days

With one step a day, what the streak shows depends on the history of active and missed days alone. A day missed takes it
back only together with a second one; a run of active days that is interrupted for a single day is therefore carried
over into the next. -/

namespace Accessibility.Session

/-! ## Histories

The latest day of a history stands first. -/

/-- The number of active days with which a history ends. -/
def recentRun (history : List Bool) : Nat :=
  (history.takeWhile id).length

/-- What the streak shows after a history. -/
def counter : List Bool → Nat
  | [] => 0
  | true :: earlier =>
    if earlier.head? = some true ∨ counter earlier = 0 then counter earlier + 1 else counter earlier
  | false :: earlier => if earlier.head? = some true then counter earlier else 0

theorem counter_pos (earlier : List Bool) : 0 < counter (true :: earlier) := by
  rw [counter]
  split <;> omega

theorem counter_active_active (earlier : List Bool) :
    counter (true :: true :: earlier) = counter (true :: earlier) + 1 := by
  rw [counter, if_pos (.inl rfl)]

theorem counter_missed_active (earlier : List Bool) :
    counter (false :: true :: earlier) = counter (true :: earlier) :=
  if_pos rfl

/-- The counter never falls short of the active days at the end. -/
theorem recentRun_le_counter (earlier : List Bool) : recentRun (true :: earlier) ≤ counter (true :: earlier) := by
  induction earlier with
  | nil => decide
  | cons active earlier ih =>
      cases active with
      | true =>
          rw [counter_active_active]
          exact Nat.succ_le_succ ih
      | false => exact counter_pos _

/-- Two active days are still counted after a single missed one. -/
theorem recentRun_lt_counter (earlier : List Bool) :
    recentRun (true :: false :: true :: true :: earlier) < counter (true :: false :: true :: true :: earlier) := by
  have hpos := counter_pos earlier
  have hmissed : counter (false :: true :: true :: earlier) = counter (true :: earlier) + 1 := by
    rw [counter_missed_active, counter_active_active]
  have hactive : counter (true :: false :: true :: true :: earlier) = counter (true :: earlier) + 1 := by
    rw [counter, hmissed, if_neg (by simp)]
  rw [hactive]
  exact Nat.succ_lt_succ hpos

/-- Where no two active days are followed by a missed and an active one, the counter is right. -/
theorem counter_eq_recentRun : ∀ earlier : List Bool, ¬ [true, false, true, true] <:+: true :: earlier →
    counter (true :: earlier) = recentRun (true :: earlier)
  | [], _ => rfl
  | true :: earlier, h => by
      have ih := counter_eq_recentRun earlier fun hfound => h (List.infix_cons hfound)
      rw [counter_active_active, ih]
      rfl
  | [false], _ => rfl
  | false :: false :: earlier, _ => rfl
  | false :: true :: earlier, h => by
      have ih := counter_eq_recentRun earlier fun hfound => h (List.infix_cons (List.infix_cons hfound))
      have hsingle : recentRun (true :: earlier) = 1 := by
        cases earlier with
        | nil => rfl
        | cons active earlier =>
            cases active with
            | true => exact absurd (List.prefix_append [true, false, true, true] earlier).isInfix h
            | false => rfl
      have hmissed : counter (false :: true :: earlier) = 1 := by
        rw [counter_missed_active, ih, hsingle]
      rw [counter, hmissed, if_neg (by simp)]
      rfl

/-- The counter is right on all active days of a history exactly when none of them comes after two active days and a
missed one. -/
theorem counter_eq_recentRun_iff (history : List Bool) :
    (∀ earlier, true :: earlier <:+ history → counter (true :: earlier) = recentRun (true :: earlier)) ↔
      ¬ [true, false, true, true] <:+: history := by
  constructor
  · rintro h ⟨later, earlier, rfl⟩
    have hsuffix : true :: false :: true :: true :: earlier <:+ later ++ [true, false, true, true] ++ earlier :=
      ⟨later, by simp⟩
    exact Nat.ne_of_gt (recentRun_lt_counter earlier) (h _ hsuffix)
  · intro h earlier hsuffix
    exact counter_eq_recentRun earlier fun hfound => h (hfound.trans hsuffix.isInfix)

/-! ## Days -/

/-- Steps on consecutive days, one on each, of which the first has an ordinal. -/
inductive Daily : Nat → List Step → Prop
  | nil {n : Nat} : Daily n []
  | cons {n : Nat} {x : Step} {date : Date} {rest : List Step} (hdate : x.date? = some date)
      (hordinal : date.ordinal = n) (hrest : Daily (n + 1) rest) : Daily n (x :: rest)

def Step.isActive : Step → Bool
  | active _ => true
  | _ => false

/-- Which of the days of some steps were active, the latest first. -/
def history (steps : List Step) : List Bool :=
  (steps.map Step.isActive).reverse

@[simp] theorem history_nil : history [] = [] := rfl

@[simp] theorem history_cons (x : Step) (rest : List Step) : history (x :: rest) = history rest ++ [x.isActive] := by
  simp [history]

@[simp] theorem history_append (front back : List Step) : history (front ++ back) = history back ++ history front := by
  simp [history]

/-- A session on the morning of a day, after a history. -/
structure Follows (s : Session) (n : Nat) (past : List Bool) : Prop where
  dates_lt : ∀ d ∈ s.dates, d.ordinal < n
  yesterday_iff : (∃ d ∈ s.dates, d.ordinal + 1 = n) ↔ past.head? = some true
  current_eq : s.streak.current = counter past
  counter_of_nil : s.dates = [] → counter past = 0

theorem follows_empty (n : Nat) : Follows {} n [] where
  dates_lt := by simp
  yesterday_iff := by simp
  current_eq := rfl
  counter_of_nil _ := rfl

variable {s : Session} {date : Date} {past : List Bool}

theorem Follows.step_active (h : Follows s date.ordinal past) (hlater : 1 < date.ordinal) :
    ∃ streak badges t, s.step (.active date) = (.streak streak badges, t) ∧ streak.current = counter (true :: past) ∧
      Follows t (date.ordinal + 1) (true :: past) := by
  obtain ⟨streak, badges, t, hstep⟩ := exists_step_active s hlater
  have hcurrent : streak.current = counter (true :: past) := by
    have hyesterday : Streak.ActiveBefore s.dates date ↔ past.head? = some true := h.yesterday_iff
    rw [(effect_of_step hstep).activated.current_eq, h.current_eq, counter]
    simp only [hyesterday, Int.natCast_eq_zero]
    split <;> simp
  obtain ⟨_, hdate, -, hstreak, hdates⟩ := (effect_of_step hstep).of_streak
  cases hdate
  have hmem : ∀ d, d ∈ t.dates ↔ d = date ∨ d ∈ s.dates := by
    intro d
    rw [hdates]
    exact mem_addDate_iff
  refine ⟨streak, badges, t, hstep, hcurrent, ?_, ?_, ?_, ?_⟩
  · intro d hd
    rcases (hmem d).mp hd with rfl | hd
    · omega
    · have := h.dates_lt d hd
      omega
  · exact iff_of_true ⟨date, (hmem date).mpr (.inl rfl), rfl⟩ rfl
  · rw [hstreak, hcurrent]
  · intro hnil
    have := (hmem date).mpr (.inl rfl)
    simp [hnil] at this

/-- All dates are before today, so the streak ends unless there is one just before, or none at all. -/
theorem Follows.current_missed (h : Follows s date.ordinal past) :
    (if Streak.isBroken s.dates date then 0 else s.streak.current) = counter (false :: past) := by
  by_cases hyesterday : past.head? = some true
  · obtain ⟨d, hd, hordinal⟩ := h.yesterday_iff.mpr hyesterday
    have hkept : ¬ Streak.isBroken s.dates date = true := by
      intro hbroken
      have := (Streak.isBroken_iff.mp hbroken).2 d hd
      omega
    rw [if_neg hkept, h.current_eq, counter, if_pos hyesterday]
  · rw [counter, if_neg hyesterday]
    by_cases hnil : s.dates = []
    · have hcurrent := h.current_eq
      rw [h.counter_of_nil hnil] at hcurrent
      simp [hcurrent]
    · have hbroken : Streak.isBroken s.dates date = true := by
        refine Streak.isBroken_iff.mpr ⟨hnil, ?_⟩
        intro d hd
        have hlt := h.dates_lt d hd
        have hne : d.ordinal + 1 ≠ date.ordinal := fun heq => hyesterday (h.yesterday_iff.mp ⟨d, hd, heq⟩)
        omega
      rw [if_pos hbroken]
      rfl

theorem Follows.step_idle (h : Follows s date.ordinal past) :
    ∃ streak badges t, s.step (.idle date) = (.streak streak badges, t) ∧
      Follows t (date.ordinal + 1) (false :: past) := by
  have hmem : date ∉ s.dates := fun hmem => Nat.lt_irrefl _ (h.dates_lt date hmem)
  have hadvance : s.streak.advance s.dates date =
      .ok ⟨counter (false :: past), max s.streak.longest (counter (false :: past))⟩ := by
    refine Streak.advance_eq_ok_iff.mpr ⟨?_, rfl⟩
    rw [Streak.nextCurrent_of_not_mem hmem, h.current_missed]
  refine ⟨_, _, _, step_of_advance rfl hadvance, ?_, ?_, rfl, ?_⟩
  · intro d hd
    have := h.dates_lt d hd
    omega
  · simp only [List.head?_cons, Option.some.injEq, Bool.false_eq_true, iff_false]
    rintro ⟨d, hd, hordinal⟩
    have := h.dates_lt d hd
    omega
  · intro hnil
    have hcounter := h.counter_of_nil hnil
    rw [counter, hcounter, ite_self]

theorem Follows.step {x : Step} (h : Follows s date.ordinal past) (hdate : x.date? = some date)
    (hlater : 1 < date.ordinal) : Follows (s.step x).2 (date.ordinal + 1) (x.isActive :: past) := by
  cases x with
  | complete page activity day seconds hints => cases hdate
  | active d =>
      cases hdate
      obtain ⟨streak, badges, t, hstep, -, hnext⟩ := h.step_active hlater
      rw [hstep]
      exact hnext
  | idle d =>
      cases hdate
      obtain ⟨streak, badges, t, hstep, hnext⟩ := h.step_idle
      rw [hstep]
      exact hnext

theorem Follows.after {n : Nat} {steps : List Step} (hdaily : Daily n steps) (hlater : 1 < n) (h : Follows s n past) :
    Follows (s.after steps) (n + steps.length) (history steps ++ past) := by
  induction hdaily generalizing s past with
  | nil => exact h
  | cons hdate hordinal hrest ih =>
      subst hordinal
      have hnext := ih (Nat.lt_succ_of_lt hlater) (h.step hdate hlater)
      simpa [Nat.add_assoc, Nat.add_comm 1] using hnext

theorem Daily.split {n : Nat} {front back : List Step} (h : Daily n (front ++ back)) :
    Daily n front ∧ Daily (n + front.length) back := by
  induction front generalizing n with
  | nil => exact ⟨.nil, h⟩
  | cons x front ih =>
      cases h with
      | cons hdate hordinal hrest =>
          obtain ⟨hfront, hback⟩ := ih hrest
          refine ⟨.cons hdate hordinal hfront, ?_⟩
          simpa [Nat.add_assoc, Nat.add_comm 1] using hback

/-! ## What the streak shows -/

/-- On an active day the streak shows the counter of the history up to that day. -/
theorem exists_step_of_daily {n : Nat} {front back : List Step} (hdaily : Daily n (front ++ .active date :: back))
    (hlater : 1 < n) :
    ∃ streak badges t, (({} : Session).after front).step (.active date) = (.streak streak badges, t) ∧
      streak.current = counter (history (front ++ [.active date])) := by
  obtain ⟨hfront, hback⟩ := hdaily.split
  cases hback with
  | cons hdate hordinal hrest =>
      cases hdate
      have hfollows := Follows.after hfront hlater (follows_empty n)
      rw [← hordinal] at hfollows
      obtain ⟨streak, badges, t, hstep, hcurrent, -⟩ := hfollows.step_active (by omega)
      exact ⟨streak, badges, t, hstep, by simpa [Step.isActive] using hcurrent⟩

/-- The active days of some steps are the suffixes of their history that start with an active day. -/
theorem forall_active_iff {p : List Bool → Prop} (steps : List Step) :
    (∀ front date back, steps = front ++ .active date :: back → p (history (front ++ [.active date]))) ↔
      ∀ earlier, true :: earlier <:+ history steps → p (true :: earlier) := by
  constructor
  · rintro h earlier ⟨later, hhistory⟩
    have hsteps : steps.map Step.isActive = earlier.reverse ++ true :: later.reverse := by
      rw [← List.reverse_reverse (steps.map Step.isActive), ← history, ← hhistory]
      simp
    obtain ⟨front, tail, rfl, hfront, htail⟩ := List.map_eq_append_iff.mp hsteps
    obtain ⟨x, back, rfl, hx, -⟩ := List.map_eq_cons_iff.mp htail
    cases x with
    | active date => simpa [history, Step.isActive, hfront] using h front date back rfl
    | _ => simp [Step.isActive] at hx
  · rintro h front date back rfl
    have hsuffix : true :: history front <:+ history (front ++ .active date :: back) :=
      ⟨history back, by simp [Step.isActive]⟩
    simpa [Step.isActive] using h _ hsuffix

/-- The streak over consecutive days from the second day there is on. Every active day is counted, and the streak never
shows fewer than the active days with which the history ends; on every active day it shows just these exactly when
nowhere in the history an active day follows two active days and a missed one. -/
theorem current_eq_recentRun_iff {n : Nat} {steps : List Step} (hdaily : Daily n steps) (hlater : 1 < n) :
    (∀ front date back, steps = front ++ .active date :: back →
      ∃ streak badges t, (({} : Session).after front).step (.active date) = (.streak streak badges, t) ∧
        (recentRun (history (front ++ [.active date])) : Int) ≤ streak.current) ∧
    ((∀ front date back, steps = front ++ .active date :: back →
      ∃ streak badges t, (({} : Session).after front).step (.active date) = (.streak streak badges, t) ∧
        streak.current = recentRun (history (front ++ [.active date]))) ↔
      ¬ [true, false, true, true] <:+: history steps) := by
  constructor
  · rintro front date back rfl
    obtain ⟨streak, badges, t, hstep, hcurrent⟩ := exists_step_of_daily hdaily hlater
    refine ⟨streak, badges, t, hstep, ?_⟩
    have hle := recentRun_le_counter (history front)
    rw [hcurrent, history_append]
    exact Int.ofNat_le.mpr hle
  · rw [← counter_eq_recentRun_iff, ← forall_active_iff (p := fun past => counter past = recentRun past)]
    constructor
    · rintro h front date back rfl
      obtain ⟨streak, badges, t, hstep, hcurrent⟩ := exists_step_of_daily hdaily hlater
      obtain ⟨_, _, _, hsame, hright⟩ := h front date back rfl
      rw [hstep] at hsame
      cases hsame
      exact Int.ofNat_inj.mp (hcurrent.symm.trans hright)
    · rintro h front date back rfl
      obtain ⟨streak, badges, t, hstep, hcurrent⟩ := exists_step_of_daily hdaily hlater
      exact ⟨streak, badges, t, hstep, by rw [hcurrent, h front date back rfl]⟩

/-- Two missed days end the streak, and the day after them is counted as the first of a new one. -/
theorem current_after_two_missed_days :
    ∃ front date, front = [
        .active ⟨739685, by decide, by decide⟩,
        .active ⟨739686, by decide, by decide⟩,
        .idle ⟨739687, by decide, by decide⟩,
        .idle ⟨739688, by decide, by decide⟩] ∧
      Daily 739685 (front ++ [.active date]) ∧ 1 < 739685 ∧
      ∃ streak badges t, (({} : Session).after front).step (.active date) = (.streak streak badges, t) ∧
        streak.current = 1 := by
  have hdaily : Daily 739685 [
      .active ⟨739685, by decide, by decide⟩,
      .active ⟨739686, by decide, by decide⟩,
      .idle ⟨739687, by decide, by decide⟩,
      .idle ⟨739688, by decide, by decide⟩,
      .active ⟨739689, by decide, by decide⟩] :=
    .cons rfl rfl (.cons rfl rfl (.cons rfl rfl (.cons rfl rfl (.cons rfl rfl .nil))))
  refine ⟨_, _, rfl, hdaily, by decide, ?_⟩
  exact (current_eq_recentRun_iff hdaily (by decide)).2.mpr (by decide) [_, _, _, _] _ [] rfl

/-- One missed day does not: two active days on either side of it are counted as three in a row, and rewarded. -/
theorem current_after_missed_day :
    ∃ steps, steps = [
        .active ⟨739685, by decide, by decide⟩,
        .active ⟨739686, by decide, by decide⟩,
        .idle ⟨739687, by decide, by decide⟩,
        .active ⟨739688, by decide, by decide⟩,
        .active ⟨739689, by decide, by decide⟩] ∧
      Daily 739685 steps ∧ recentRun (history steps) = 2 ∧
      (({} : Session).after steps).streak.current = 3 ∧ (({} : Session).after steps).earned = ["streak-3"] := by
  refine ⟨_, rfl, ?_, by decide, by decide +kernel, by decide +kernel⟩
  exact .cons rfl rfl (.cons rfl rfl (.cons rfl rfl (.cons rfl rfl (.cons rfl rfl .nil))))

end Accessibility.Session
