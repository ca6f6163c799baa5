import Accessibility.Proofs.Progress.Ledger
import Accessibility.Proofs.Progress.Streak
import Mathlib.Data.List.Induction

/-! # Milestones of the streak

The longest streak is the highest that the current one has been, and the badges of the streak are those of the
milestones up to it. A milestone is looked for at the very step that can raise the longest streak, so none is missed,
and none is awarded before. -/

namespace Accessibility

/-! ## Badges of the streak -/

namespace Badge

/-- The badges of the days are called otherwise. -/
theorem id_ne_of_ofDay? {day : Int} {b : Badge} (h : ofDay? day = some b) :
    ∀ days ∈ milestones, b.id ≠ (streak days).id := by
  have hdaily : ∀ b ∈ [visualHero, keyboardMaster, screenReaderAlly, universalChampion],
      ∀ days ∈ milestones, b.id ≠ (streak days).id := by
    decide +kernel
  apply hdaily
  grind [ofDay?]

/-- Two milestones have two badges. -/
theorem streak_id_inj {days other : Nat} (hdays : days ∈ milestones) (hother : other ∈ milestones)
    (h : (streak days).id = (streak other).id) : days = other := by
  have hpairs : ∀ days ∈ milestones, ∀ other ∈ milestones, (streak days).id = (streak other).id → days = other := by
    decide +kernel
  exact hpairs days hdays other hother h

/-- After a look at the streak, a milestone is earned if it was before or if the streak has reached it. -/
theorem mem_append_ofStreak_iff {days : Nat} (hdays : days ∈ milestones) (current : Int) (earned : List String) :
    (streak days).id ∈ earned ++ (ofStreak current earned).map id ↔
      (streak days).id ∈ earned ∨ (days : Int) ≤ current := by
  rw [List.mem_append]
  constructor
  · rintro (hbefore | hnew)
    · exact .inl hbefore
    · obtain ⟨b, hb, hid⟩ := List.mem_map.mp hnew
      obtain ⟨other, hkept, rfl⟩ := List.mem_map.mp hb
      obtain ⟨hother, hreached⟩ := List.mem_filter.mp hkept
      obtain rfl := streak_id_inj hother hdays hid
      exact .inr (of_decide_eq_true (Bool.and_eq_true_iff.mp hreached).1)
  · rintro (hbefore | hreached)
    · exact .inl hbefore
    · by_cases hbefore : (streak days).id ∈ earned
      · exact .inl hbefore
      · refine .inr (List.mem_map_of_mem (List.mem_map_of_mem (List.mem_filter.mpr ⟨hdays, ?_⟩)))
        simp [hreached, hbefore]

end Badge

/-! ## One look at the streak -/

/-- The streak stays, grows by one day or ends. -/
theorem Streak.nextCurrent_moves {current next : Int} {dates : List Date} {today : Date}
    (h : nextCurrent current dates today = .ok next) : next = current ∨ next = current + 1 ∨ next = 0 := by
  by_cases hmem : today ∈ dates
  · by_cases hlater : 1 < today.ordinal
    · rw [nextCurrent_of_mem hmem hlater, Except.ok.injEq] at h
      split at h
      · exact .inr (.inl h.symm)
      · exact .inl h.symm
    · rw [nextCurrent_of_first hmem hlater] at h
      cases h
  · rw [nextCurrent_of_not_mem hmem, Except.ok.injEq] at h
    split at h
    · exact .inr (.inr h.symm)
    · exact .inl h.symm

namespace Session

variable {s t : Session} {x : Step} {o : Outcome}

/-! ## One step -/

/-- A step either leaves the streak and its badges alone, or it looks at the streak and awards what that has reached. -/
theorem Effect.streak_cases (h : s.Effect x o t) :
    (t.streak = s.streak ∧ ∀ days ∈ Badge.milestones, (Badge.streak days).id ∈ t.earned ↔
      (Badge.streak days).id ∈ s.earned) ∨
    ∃ date, s.streak.advance (s.dated x).dates date = .ok t.streak ∧
      t.earned = s.earned ++ (Badge.ofStreak t.streak.current s.earned).map Badge.id := by
  cases h with
  | @passed page activity day seconds hints v r hverify hpassed hreward =>
      refine .inl ⟨markDone_streak _ _ _, ?_⟩
      intro days hdays
      have hdaily : (Badge.streak days).id ∉ r.badges.map Badge.id := by
        intro hmem
        obtain ⟨b, hb, hid⟩ := List.mem_map.mp hmem
        rw [(Reward.of_passed hreward).2.2.2, Reward.dayBadges] at hb
        split at hb
        · exact Badge.id_ne_of_ofDay? (Option.mem_toList.mp hb) days hdays hid
        · exact List.not_mem_nil hb
      simp [earn, hdaily]
  | notPassed hverify hpassed hreward => exact .inl ⟨rfl, fun _ _ => Iff.rfl⟩
  | refused hfault => exact .inl ⟨rfl, fun _ _ => Iff.rfl⟩
  | counted hdate hstreak =>
      refine .inr ⟨_, hstreak, ?_⟩
      simp [earn]
  | uncounted hdate hfault => simp

/-- A step moves the current streak by at most a day, or ends it. -/
theorem Effect.current_moves (h : s.Effect x o t) :
    t.streak.current = s.streak.current ∨ t.streak.current = s.streak.current + 1 ∨ t.streak.current = 0 := by
  rcases h.streak_cases with ⟨hstreak, -⟩ | ⟨date, hadvance, -⟩
  · exact .inl (congrArg Streak.current hstreak)
  · exact Streak.nextCurrent_moves (Streak.advance_eq_ok_iff.mp hadvance).1

/-- An active step that does not fail leaves a streak of at least one day. -/
theorem Effect.current_pos {date : Date} (h : s.Effect (.active date) o t) (ho : ∀ f, o ≠ .failed f)
    (hs : 0 ≤ s.streak.current) : 1 ≤ t.streak.current := by
  cases h with
  | counted hdate hstreak =>
      cases hdate
      exact (advance_addDate_eq_ok_iff.mp hstreak).current_pos hs
  | uncounted hdate hfault => exact absurd rfl (ho _)

/-- What a session keeps between its streak and the badges for it. -/
structure Milestoned (s : Session) : Prop where
  current_nonneg : 0 ≤ s.streak.current
  current_le_longest : s.streak.current ≤ s.streak.longest
  earned_iff : ∀ days ∈ Badge.milestones, (Badge.streak days).id ∈ s.earned ↔ (days : Int) ≤ s.streak.longest

theorem milestoned_empty : Milestoned {} where
  current_nonneg := Int.le_refl 0
  current_le_longest := Int.le_refl 0
  earned_iff := by decide +kernel

theorem Effect.longest_eq (h : s.Effect x o t) (hs : s.streak.current ≤ s.streak.longest) :
    t.streak.longest = max s.streak.longest t.streak.current := by
  rcases h.streak_cases with ⟨hstreak, -⟩ | ⟨date, hadvance, -⟩
  · rw [hstreak]
    exact (Int.max_eq_left hs).symm
  · exact (Streak.advance_eq_ok_iff.mp hadvance).2

theorem Effect.milestoned (h : s.Effect x o t) (hs : Milestoned s) : Milestoned t where
  current_nonneg := h.current_nonneg hs.current_nonneg
  current_le_longest := by
    rw [h.longest_eq hs.current_le_longest]
    exact Int.le_max_right _ _
  earned_iff := by
    intro days hdays
    have hbefore := hs.earned_iff days hdays
    rcases h.streak_cases with ⟨hstreak, hearned⟩ | ⟨date, hadvance, hearned⟩
    · rw [hearned days hdays, hstreak, hbefore]
    · rw [hearned, Badge.mem_append_ofStreak_iff hdays, hbefore, h.longest_eq hs.current_le_longest]
      omega

/-! ## A run -/

theorem milestoned_after (steps : List Step) : Milestoned (({} : Session).after steps) :=
  after_of_step (fun s x hs => (s.effect_step x).milestoned hs) milestoned_empty steps

/-- The longest streak after one more step. -/
theorem longest_after_concat (steps : List Step) (x : Step) :
    (({} : Session).after (steps ++ [x])).streak.longest =
      max (({} : Session).after steps).streak.longest (({} : Session).after (steps ++ [x])).streak.current := by
  rw [after_append]
  exact (effect_step _ x).longest_eq (milestoned_after steps).current_le_longest

/-- The longest streak is the highest of those that the current one has been. -/
theorem longest_after (steps : List Step) :
    (∀ front, front <+: steps →
        (({} : Session).after front).streak.current ≤ (({} : Session).after steps).streak.longest) ∧
      ∃ front, front <+: steps ∧
        (({} : Session).after front).streak.current = (({} : Session).after steps).streak.longest := by
  induction steps using List.reverseRecOn with
  | nil =>
      refine ⟨?_, [], List.prefix_refl [], rfl⟩
      intro front hfront
      rw [List.prefix_nil.mp hfront]
      exact Int.le_refl 0
  | append_singleton steps x ih =>
      obtain ⟨hupper, highest, hhighest, hreached⟩ := ih
      have hnext := longest_after_concat steps x
      constructor
      · intro front hfront
        rcases List.prefix_concat_iff.mp hfront with rfl | hfront
        · omega
        · have := hupper front hfront
          omega
      · by_cases hgrown : (({} : Session).after steps).streak.longest ≤
            (({} : Session).after (steps ++ [x])).streak.current
        · refine ⟨steps ++ [x], List.prefix_refl _, ?_⟩
          omega
        · refine ⟨highest, hhighest.trans (List.prefix_append steps [x]), ?_⟩
          omega

/-- The streak and its milestones over a whole session. At every point the current streak lies between nothing and the
longest one, which is the highest that it has been, and a milestone is earned exactly when the longest streak has
reached it; and every step keeps the current streak, adds a day or ends it, an active one that does not fail to no
less than a day. -/
theorem milestones_follow_longest (steps : List Step) :
    (0 ≤ (({} : Session).after steps).streak.current ∧
      (({} : Session).after steps).streak.current ≤ (({} : Session).after steps).streak.longest) ∧
    ((∀ front, front <+: steps →
        (({} : Session).after front).streak.current ≤ (({} : Session).after steps).streak.longest) ∧
      ∃ front, front <+: steps ∧
        (({} : Session).after front).streak.current = (({} : Session).after steps).streak.longest) ∧
    (∀ days ∈ [3, 7, 14, 30], (Badge.streak days).id ∈ (({} : Session).after steps).earned ↔
      (days : Int) ≤ (({} : Session).after steps).streak.longest) ∧
    ∀ x o t, (({} : Session).after steps).step x = (o, t) →
      (t.streak.current = (({} : Session).after steps).streak.current ∨
        t.streak.current = (({} : Session).after steps).streak.current + 1 ∨ t.streak.current = 0) ∧
      ∀ date, x = .active date → (∀ f, o ≠ .failed f) → 1 ≤ t.streak.current := by
  have hkept := milestoned_after steps
  refine ⟨⟨hkept.current_nonneg, hkept.current_le_longest⟩, longest_after steps, hkept.earned_iff, ?_⟩
  intro x o t hstep
  have heffect := effect_of_step hstep
  refine ⟨heffect.current_moves, ?_⟩
  rintro date rfl ho
  exact heffect.current_pos ho hkept.current_nonneg

end Session

end Accessibility
