import Accessibility.Proofs.Progress.Session

/-! # The streak of a session

One look at the streak depends on today, on the day before and on the latest date. It does not know whether today was
counted before. -/

namespace Accessibility

/-! ## The day before -/

attribute [ext] Date Streak

theorem Date.previous_of_lt {d : Date} (h : 1 < d.ordinal) : ∃ e, d.previous = .ok e ∧ e.ordinal + 1 = d.ordinal :=
  ⟨_, dif_pos h, Nat.sub_add_cancel d.first_le⟩

namespace Streak

/-- There is a date of activity just before today. -/
def ActiveBefore (dates : List Date) (today : Date) : Prop :=
  ∃ d ∈ dates, d.ordinal + 1 = today.ordinal

instance (dates : List Date) (today : Date) : Decidable (ActiveBefore dates today) :=
  inferInstanceAs (Decidable (∃ d ∈ dates, d.ordinal + 1 = today.ordinal))

theorem mem_iff_activeBefore {dates : List Date} {yesterday today : Date} (h : yesterday.ordinal + 1 = today.ordinal) :
    yesterday ∈ dates ↔ ActiveBefore dates today := by
  constructor
  · intro hmem
    exact ⟨yesterday, hmem, h⟩
  · rintro ⟨d, hd, hbefore⟩
    have hsame : d = yesterday := Date.ext (by omega)
    exact hsame ▸ hd

/-! ## One look at the streak -/

variable {s t : Streak} {current next : Int} {dates : List Date} {today : Date}

/-- With activity today, the streak grows if it goes on from yesterday or if there is none. -/
theorem nextCurrent_of_mem (hmem : today ∈ dates) (hlater : 1 < today.ordinal) :
    nextCurrent current dates today =
      .ok (if ActiveBefore dates today ∨ current = 0 then current + 1 else current) := by
  obtain ⟨yesterday, hprevious, hordinal⟩ := Date.previous_of_lt hlater
  rw [nextCurrent, if_pos hmem, hprevious]
  simp only [Except.map, mem_iff_activeBefore hordinal]

theorem nextCurrent_of_first (hmem : today ∈ dates) (hfirst : ¬ 1 < today.ordinal) :
    nextCurrent current dates today = .error .dateOutOfRange := by
  rw [nextCurrent, if_pos hmem, Date.previous, dif_neg hfirst]
  rfl

theorem nextCurrent_of_not_mem (hmem : today ∉ dates) :
    nextCurrent current dates today = .ok (if isBroken dates today then 0 else current) :=
  if_neg hmem

theorem isBroken_iff : isBroken dates today = true ↔ dates ≠ [] ∧ ∀ d ∈ dates, d.ordinal + 1 < today.ordinal := by
  unfold isBroken
  cases hlatest : latest? dates with
  | none =>
      obtain rfl : dates = [] := by simpa [latest?] using hlatest
      simp
  | some latest =>
      obtain ⟨hmem, hle⟩ := List.max?_eq_some_iff.mp hlatest
      obtain ⟨d, hd, rfl⟩ := List.mem_map.mp hmem
      simp only [decide_eq_true_eq]
      constructor
      · intro h
        refine ⟨List.ne_nil_of_mem hd, ?_⟩
        intro e he
        have := hle e.ordinal (List.mem_map_of_mem he)
        omega
      · rintro ⟨-, h⟩
        exact h d hd

theorem advance_eq_ok_iff :
    s.advance dates today = .ok t ↔
      nextCurrent s.current dates today = .ok t.current ∧ t.longest = max s.longest t.current := by
  constructor
  · intro h
    obtain ⟨next, hnext, rfl⟩ := exists_of_map_eq_ok h
    exact ⟨hnext, rfl⟩
  · rintro ⟨hnext, hlongest⟩
    rw [advance, hnext, Except.map, ← hlongest]

theorem nextCurrent_nonneg (h : nextCurrent current dates today = .ok next) (hcurrent : 0 ≤ current) : 0 ≤ next := by
  by_cases hmem : today ∈ dates
  · by_cases hlater : 1 < today.ordinal
    · rw [nextCurrent_of_mem hmem hlater, Except.ok.injEq] at h
      split at h <;> omega
    · rw [nextCurrent_of_first hmem hlater] at h
      cases h
  · rw [nextCurrent_of_not_mem hmem, Except.ok.injEq] at h
    split at h <;> omega

end Streak

namespace Session

/-! ## The streak over a run -/

variable {s t : Session} {x : Step} {o : Outcome}

theorem Effect.current_nonneg (h : s.Effect x o t) (hs : 0 ≤ s.streak.current) : 0 ≤ t.streak.current := by
  cases h with
  | passed hverify hpassed hreward =>
      rw [markDone_streak]
      exact hs
  | notPassed hverify hpassed hreward => exact hs
  | refused hfault => exact hs
  | counted hdate hstreak => exact Streak.nextCurrent_nonneg (Streak.advance_eq_ok_iff.mp hstreak).1 hs
  | uncounted hdate hfault => simpa using hs

theorem current_nonneg_after (steps : List Step) : 0 ≤ (({} : Session).after steps).streak.current :=
  after_of_step (p := fun t => 0 ≤ t.streak.current) (fun s x hs => (s.effect_step x).current_nonneg hs)
    (Int.le_refl 0) steps

/-- What a step does that looks at the streak. -/
theorem Effect.of_streak {streak : Streak} {badges : List Badge} (h : s.Effect x (.streak streak badges) t) :
    ∃ date, x.date? = some date ∧ s.streak.advance (s.dated x).dates date = .ok streak ∧ t.streak = streak ∧
      t.dates = (s.dated x).dates := by
  cases h with
  | counted hdate hstreak => exact ⟨_, hdate, hstreak, rfl, rfl⟩

theorem activeBefore_addDate_iff {date : Date} :
    Streak.ActiveBefore (s.addDate date).dates date ↔ Streak.ActiveBefore s.dates date := by
  constructor
  · rintro ⟨d, hd, hbefore⟩
    rcases mem_addDate_iff.mp hd with rfl | hd
    · omega
    · exact ⟨d, hd, hbefore⟩
  · rintro ⟨d, hd, hbefore⟩
    exact ⟨d, mem_addDate_iff.mpr (.inr hd), hbefore⟩

/-! ## An active day -/

variable {date : Date} {streak : Streak} {badges : List Badge}

/-- What an active step makes of the streak. -/
structure Activated (s : Session) (date : Date) (streak : Streak) : Prop where
  later : 1 < date.ordinal
  current_eq : streak.current =
    if Streak.ActiveBefore s.dates date ∨ s.streak.current = 0 then s.streak.current + 1 else s.streak.current
  longest_eq : streak.longest = max s.streak.longest streak.current

theorem advance_addDate_eq_ok_iff :
    s.streak.advance (s.addDate date).dates date = .ok streak ↔ Activated s date streak := by
  have hmem : date ∈ (s.addDate date).dates := mem_addDate_iff.mpr (.inl rfl)
  rw [Streak.advance_eq_ok_iff]
  by_cases hlater : 1 < date.ordinal
  · simp only [Streak.nextCurrent_of_mem hmem hlater, Except.ok.injEq, activeBefore_addDate_iff]
    constructor
    · rintro ⟨hcurrent, hlongest⟩
      exact ⟨hlater, hcurrent.symm, hlongest⟩
    · rintro ⟨-, hcurrent, hlongest⟩
      exact ⟨hcurrent.symm, hlongest⟩
  · rw [Streak.nextCurrent_of_first hmem hlater]
    constructor
    · rintro ⟨h, -⟩
      cases h
    · intro h
      exact absurd h.later hlater

theorem Effect.activated (h : s.Effect (.active date) (.streak streak badges) t) : Activated s date streak := by
  obtain ⟨_, hdate, hadvance, -⟩ := h.of_streak
  cases hdate
  exact advance_addDate_eq_ok_iff.mp hadvance

/-- The first day there is has no day before it; on every other day an active step succeeds. -/
theorem exists_step_active (s : Session) (hlater : 1 < date.ordinal) :
    ∃ streak badges t, s.step (.active date) = (.streak streak badges, t) := by
  let current :=
    if Streak.ActiveBefore s.dates date ∨ s.streak.current = 0 then s.streak.current + 1 else s.streak.current
  have hactivated : Activated s date ⟨current, max s.streak.longest current⟩ := ⟨hlater, rfl, rfl⟩
  exact ⟨_, _, _, step_of_advance rfl (advance_addDate_eq_ok_iff.mpr hactivated)⟩

theorem Activated.current_pos (h : Activated s date streak) (hs : 0 ≤ s.streak.current) : 0 < streak.current := by
  have hcurrent := h.current_eq
  split at hcurrent <;> omega

/-- To be active a second time on a day counts the day again exactly when there was activity on the day before. -/
theorem active_again {steps : List Step}
    (h : (({} : Session).after steps).step (.active date) = (.streak streak badges, t)) :
    t.streak = streak ∧
      ∃ again badges' t', t.step (.active date) = (.streak again badges', t') ∧ t'.streak = again ∧
        again.current = streak.current +
          (if Streak.ActiveBefore (({} : Session).after steps).dates date then 1 else 0) ∧
        again.longest = max streak.longest again.current ∧
        (again = streak ↔ ¬ Streak.ActiveBefore (({} : Session).after steps).dates date) := by
  have hnonneg := current_nonneg_after steps
  have hfirst := (effect_of_step h).activated
  have hpos := hfirst.current_pos hnonneg
  obtain ⟨_, hdate, -, hstreak, hdates⟩ := (effect_of_step h).of_streak
  cases hdate
  have hbefore : Streak.ActiveBefore t.dates date ↔ Streak.ActiveBefore (({} : Session).after steps).dates date := by
    rw [hdates]
    exact activeBefore_addDate_iff
  obtain ⟨again, badges', t', hstep⟩ := exists_step_active t hfirst.later
  have hsecond := (effect_of_step hstep).activated
  obtain ⟨_, -, -, hagain, -⟩ := (effect_of_step hstep).of_streak
  have hcurrent : again.current = streak.current +
      (if Streak.ActiveBefore (({} : Session).after steps).dates date then 1 else 0) := by
    rw [hsecond.current_eq, hstreak]
    by_cases hactive : Streak.ActiveBefore (({} : Session).after steps).dates date
    · simp [hbefore, hactive]
    · simp [hbefore, hactive, Int.ne_of_gt hpos]
  have hlongest : again.longest = max streak.longest again.current := by
    rw [hsecond.longest_eq, hstreak]
  refine ⟨hstreak, again, badges', t', hstep, hagain, hcurrent, hlongest, ?_⟩
  constructor
  · rintro rfl hactive
    rw [if_pos hactive] at hcurrent
    omega
  · intro hidle
    rw [if_neg hidle, Int.add_zero] at hcurrent
    have hkept : again.longest = streak.longest := by
      rw [hlongest, hcurrent, hfirst.longest_eq]
      omega
    exact Streak.ext hcurrent hkept

/-- On the second of two active days. -/
theorem active_again_second_day :
    ∃ t, (({} : Session).after [.active ⟨739685, by decide, by decide⟩]).step (.active ⟨739686, by decide, by decide⟩) =
        (.streak ⟨2, 2⟩ [], t) ∧
      ∃ again badges' t', t.step (.active ⟨739686, by decide, by decide⟩) = (.streak again badges', t') ∧
        again.current = 3 := by
  have hfirst : (({} : Session).after [.active ⟨739685, by decide, by decide⟩]).step
      (.active ⟨739686, by decide, by decide⟩) = (.streak ⟨2, 2⟩ [], _) := rfl
  obtain ⟨-, again, badges', t', hstep, -, hcurrent, -⟩ := active_again hfirst
  exact ⟨_, hfirst, again, badges', t', hstep, hcurrent⟩

/-- Two days that are counted as three. -/
theorem active_again_counts :
    (({} : Session).run [
      .active ⟨739685, by decide, by decide⟩,
      .active ⟨739686, by decide, by decide⟩,
      .active ⟨739686, by decide, by decide⟩]).map (fun e => e.2.streak) = [⟨1, 1⟩, ⟨2, 2⟩, ⟨3, 3⟩] := by
  decide +kernel

end Session

end Accessibility
