import Accessibility.Proofs.Progress.Day
import Accessibility.Proofs.Progress.Level
import Mathlib.Algebra.BigOperators.Group.List.Basic
import Mathlib.Data.Finset.Card
import Mathlib.Data.List.Induction
import Mathlib.Data.List.Perm.Basic

/-! # The order of the exercises

Which exercise is paid for a whole day depends on the order in which the exercises are passed, but what they gain
together does not, and neither do the badges. An exercise is refused a reward only if the experience has no level any
more. -/

namespace Accessibility

/-- Only the four days of the course have a badge. -/
theorem Badge.bounds_of_ofDay? {day : Int} {b : Badge} (h : ofDay? day = some b) : 1 ≤ day ∧ day ≤ 4 := by
  grind [ofDay?]

namespace Session

/-! ## Attempts -/

/-- The data of a step that tries an exercise. -/
structure Attempt where
  page : Text
  activity : Activity.Request
  day : Int
  seconds : Int
  hints : Int

namespace Attempt

def step (a : Attempt) : Step :=
  .complete a.page a.activity a.day a.seconds a.hints

/-- Whether the page passes the exercise. -/
def passes (a : Attempt) : Bool :=
  a.step.verdict?.any (·.passed)

def exercise (a : Attempt) : Int × Activity.Request :=
  (a.day, a.activity)

/-- What the exercise gains by itself. -/
def worth (a : Attempt) : Int :=
  Reward.ofExercise a.seconds a.hints

theorem worth_bounds (a : Attempt) : 0 ≤ a.worth ∧ a.worth ≤ 175 := by
  unfold worth Reward.ofExercise
  split <;> split <;> decide

end Attempt

/-- The attempts that pass. -/
def passed (attempts : List Attempt) : List Attempt :=
  attempts.filter Attempt.passes

theorem passed_cons (a : Attempt) (rest : List Attempt) : passed (a :: rest) = passed [a] ++ passed rest :=
  List.filter_append [a] rest

theorem passed_cons_of_passes {a : Attempt} (h : a.passes = true) (rest : List Attempt) :
    passed (a :: rest) = a :: passed rest :=
  List.filter_cons_of_pos h

/-- The session after a list of attempts. -/
def tried (attempts : List Attempt) : Session :=
  ({} : Session).after (attempts.map Attempt.step)

/-! ## What exercises gain together -/

/-- How many of the attempts are on a day. -/
def countOn (day : Int) (attempts : List Attempt) : Nat :=
  attempts.countP fun a => a.day = day

/-- The days with three exercises or more. -/
def fullDays (attempts : List Attempt) : Finset Int :=
  (attempts.map Attempt.day).toFinset.filter fun day => 3 ≤ countOn day attempts

/-- What every exercise gains by itself, and what every full day gains. -/
def total (attempts : List Attempt) : Int :=
  (attempts.map Attempt.worth).sum + 500 * (fullDays attempts).card

variable {l : List Attempt} {a : Attempt}

theorem countOn_concat (day : Int) (l : List Attempt) (a : Attempt) :
    countOn day (l ++ [a]) = countOn day l + if a.day = day then 1 else 0 := by
  simp [countOn, List.countP_append, List.countP_cons]

theorem countOn_perm {l l' : List Attempt} (h : l.Perm l') (day : Int) : countOn day l = countOn day l' :=
  h.countP_eq _

theorem mem_fullDays {day : Int} : day ∈ fullDays l ↔ 3 ≤ countOn day l := by
  unfold fullDays
  rw [Finset.mem_filter, and_iff_right_iff_imp]
  intro hthree
  obtain ⟨a, ha, hday⟩ := List.countP_pos_iff.mp (Nat.lt_of_lt_of_le three_pos hthree)
  exact List.mem_toFinset.mpr (List.mem_map.mpr ⟨a, ha, of_decide_eq_true hday⟩)

/-- The third exercise of a day makes it full. -/
theorem card_fullDays_concat (l : List Attempt) (a : Attempt) :
    (fullDays (l ++ [a])).card = (fullDays l).card + if countOn a.day l = 2 then 1 else 0 := by
  split
  · rename_i htwo
    have hinsert : fullDays (l ++ [a]) = insert a.day (fullDays l) := by
      ext day
      rw [Finset.mem_insert, mem_fullDays, mem_fullDays, countOn_concat]
      by_cases hday : day = a.day
      · simp [hday, htwo]
      · simp [hday, Ne.symm hday]
    rw [hinsert, Finset.card_insert_of_notMem (by simp [mem_fullDays, htwo])]
  · rename_i htwo
    have hsame : fullDays (l ++ [a]) = fullDays l := by
      ext day
      rw [mem_fullDays, mem_fullDays, countOn_concat]
      split
      · rename_i hday
        subst hday
        omega
      · rfl
    rw [hsame, Nat.add_zero]

theorem total_concat (l : List Attempt) (a : Attempt) :
    total (l ++ [a]) = total l + (a.worth + if countOn a.day l = 2 then 500 else 0) := by
  rw [total, total, card_fullDays_concat, List.map_append, List.sum_append, List.map_singleton, List.sum_singleton]
  split <;> push_cast <;> omega

theorem total_perm {l l' : List Attempt} (h : l.Perm l') : total l = total l' := by
  have hdays : fullDays l = fullDays l' := by
    ext day
    rw [mem_fullDays, mem_fullDays, countOn_perm h]
  rw [total, total, hdays, (h.map _).sum_eq]

theorem total_le_append (l l' : List Attempt) : total l ≤ total (l ++ l') := by
  induction l' using List.reverseRecOn with
  | nil => simp
  | append_singleton l' a ih =>
      have hworth := a.worth_bounds
      rw [← List.append_assoc, total_concat]
      split <;> omega

theorem total_le_length (l : List Attempt) : total l ≤ 675 * l.length := by
  induction l using List.reverseRecOn with
  | nil => decide
  | append_singleton l a ih =>
      have hworth := a.worth_bounds
      rw [total_concat, List.length_append, List.length_singleton]
      split <;> push_cast <;> omega

/-! ## One attempt -/

/-- What a session knows of an attempt. -/
def completionOf (s : Session) (a : Attempt) : Completion :=
  s.completion a.activity a.day a.seconds a.hints

/-- An exercise has a reward exactly if there is a level for it. -/
theorem exists_reward_iff (c : Completion) :
    (∃ r, Reward.ofCompletion true c = .ok r) ↔ c.experience + Reward.gain c < Level.limit := by
  rw [← Level.exists_ofExperience_iff, Reward.ofCompletion, if_pos rfl]
  cases Level.ofExperience (c.experience + Reward.gain c) with
  | error f => simp [Except.map]
  | ok level => simp [Except.map]

theorem Attempt.passes_iff :
    a.passes = true ↔ ∃ v, Exercise.verify a.page a.activity = .ok v ∧ v.passed = true := by
  unfold passes step Step.verdict?
  cases hverify : Exercise.verify a.page a.activity with
  | error f => simp [hverify, Except.toOption]
  | ok v => simp [hverify, Except.toOption]

theorem complete_of_reward {s : Session} {v : Verdict} {r : Reward}
    (hverify : Exercise.verify a.page a.activity = .ok v) (hpassed : v.passed = true)
    (hreward : Reward.ofCompletion true (s.completionOf a) = .ok r) :
    s.complete a.page a.activity a.day a.seconds a.hints =
      .ok (.completed v.message r, ({ s with experience := r.total }.earn r.badges).markDone a.day a.activity) := by
  rw [completionOf] at hreward
  simp [complete, hverify, hpassed, hreward, bind, Except.bind, pure, Except.pure]

/-- What an attempt can do: it is rewarded and the exercise is done, or it changes nothing. -/
inductive Attempt.Effect (s : Session) (a : Attempt) : Outcome → Session → Prop
  | rewarded {o t} (hpasses : a.passes = true)
      (hlevel : s.experience + Reward.gain (s.completionOf a) < Level.limit)
      (hgained : o.gained = Reward.gain (s.completionOf a))
      (hexperience : t.experience = s.experience + Reward.gain (s.completionOf a))
      (hearned : t.earned = s.earned ++ (Reward.dayBadges (s.completionOf a)).map Badge.id)
      (hdone : t.done = (s.markDone a.day a.activity).done) : Effect s a o t
  | ignored {o} (hnot : ¬(a.passes = true ∧ s.experience + Reward.gain (s.completionOf a) < Level.limit))
      (hgained : o.gained = 0) : Effect s a o s

theorem Attempt.effect_of_step {s t : Session} {a : Attempt} {o : Outcome} (h : s.step a.step = (o, t)) :
    Attempt.Effect s a o t := by
  have heffect := Session.effect_of_step h
  have hexperience := heffect.experience_eq
  have hearned := heffect.earned_eq
  cases heffect with
  | passed hverify hpassed hreward =>
      obtain ⟨hgained, -, -, hbadges⟩ := Reward.of_passed hreward
      refine .rewarded (passes_iff.mpr ⟨_, hverify, hpassed⟩) ((exists_reward_iff _).mp ⟨_, hreward⟩) hgained ?_ ?_ ?_
      · rw [hexperience, Outcome.gained, hgained]
        rfl
      · rw [hearned, Outcome.badges, hbadges]
        rfl
      · unfold markDone earn
        split <;> rfl
  | notPassed hverify hpassed hreward =>
      refine .ignored ?_ (Reward.of_notPassed hreward).1
      rintro ⟨hpasses, -⟩
      obtain ⟨v, hverdict, hv⟩ := passes_iff.mp hpasses
      cases hverify.symm.trans hverdict
      exact absurd (hpassed.symm.trans hv) Bool.false_ne_true
  | refused hfault =>
      refine .ignored ?_ rfl
      rintro ⟨hpasses, hlevel⟩
      obtain ⟨v, hverify, hpassed⟩ := passes_iff.mp hpasses
      obtain ⟨r, hreward⟩ := (exists_reward_iff (s.completionOf a)).mpr hlevel
      cases hfault.symm.trans (complete_of_reward hverify hpassed hreward)
  | counted hdate hstreak => cases hdate
  | uncounted hdate hfault => cases hdate

/-- The attempt, if it is rewarded. -/
def Attempt.paid (s : Session) (a : Attempt) : List Attempt :=
  if (s.step a.step).1.gained = 0 then [] else [a]

theorem Attempt.paid_eq (s : Session) (a : Attempt) :
    a.paid s =
      if a.passes = true ∧ s.experience + Reward.gain (s.completionOf a) < Level.limit then [a] else [] := by
  unfold paid
  cases hstep : s.step a.step with
  | mk o t =>
      cases effect_of_step hstep with
      | rewarded hpasses hlevel hgained =>
          have hpos := Reward.gain_pos (s.completionOf a)
          have hpaid : o.gained ≠ 0 := by omega
          rw [if_neg hpaid, if_pos ⟨hpasses, hlevel⟩]
      | ignored hnot hgained => rw [if_pos hgained, if_neg hnot]

theorem Attempt.paid_sublist (s : Session) (a : Attempt) : (a.paid s).Sublist (passed [a]) := by
  rw [paid_eq]
  split
  · rename_i h
    rw [passed_cons_of_passes h.1]
    exact List.singleton_sublist.mpr List.mem_cons_self
  · exact List.nil_sublist _

/-- Whether a badge is that of a full day. -/
def Earns (l : List Attempt) (id : String) : Prop :=
  ∃ day b, 1 ≤ day ∧ day ≤ 4 ∧ Badge.ofDay? day = some b ∧ b.id = id ∧ 3 ≤ countOn day l

/-- A session that has been given the rewards of some attempts, of which no two are at one exercise. -/
structure Settled (s : Session) (l : List Attempt) : Prop where
  once : (l.map Attempt.exercise).Nodup
  done_perm : s.done.Perm (l.map Attempt.exercise)
  experience_eq : s.experience = total l
  earned_iff : ∀ id, id ∈ s.earned ↔ Earns l id

theorem settled_empty : Settled {} [] where
  once := List.nodup_nil
  done_perm := .refl []
  experience_eq := rfl
  earned_iff id := by simp [Earns, countOn]

theorem Settled.perm {s : Session} {l l' : List Attempt} (h : Settled s l) (hperm : l.Perm l') : Settled s l' where
  once := (hperm.map _).nodup_iff.mp h.once
  done_perm := h.done_perm.trans (hperm.map _)
  experience_eq := h.experience_eq.trans (total_perm hperm)
  earned_iff id := by
    simp only [h.earned_iff, Earns, countOn_perm hperm]

variable {s : Session}

theorem Settled.not_mem_done (h : Settled s l) (hnew : a.exercise ∉ l.map Attempt.exercise) :
    (a.day, a.activity) ∉ s.done := by
  intro hmem
  exact hnew (h.done_perm.mem_iff.mp hmem)

/-- The other exercises done on the day of a new attempt are all those that have been paid. -/
theorem Settled.doneBefore_eq (h : Settled s l) (hnew : a.exercise ∉ l.map Attempt.exercise) :
    s.doneBefore a.day a.activity = countOn a.day l := by
  have hnodup := h.done_perm.nodup_iff.mpr h.once
  have hcount := doneOn_eq_doneBefore hnodup a.day a.activity
  rw [if_neg (h.not_mem_done hnew), Nat.add_zero] at hcount
  rw [← hcount, doneOn, h.done_perm.countP_eq, List.countP_map]
  rfl

theorem Settled.completesDay_iff (h : Settled s l) (hnew : a.exercise ∉ l.map Attempt.exercise) :
    Reward.completesDay (s.completionOf a) = true ↔ countOn a.day l = 2 := by
  rw [← h.doneBefore_eq hnew]
  exact Session.completesDay_iff

theorem Settled.add_gain_eq (h : Settled s l) (hnew : a.exercise ∉ l.map Attempt.exercise) :
    s.experience + Reward.gain (s.completionOf a) = total (l ++ [a]) := by
  rw [total_concat, h.experience_eq, Reward.gain]
  simp only [h.completesDay_iff hnew]
  rfl

/-- The badge of a completed day is earned, now or before. -/
theorem mem_append_dayBadges_iff (s : Session) (a : Attempt) (id : String) :
    id ∈ s.earned ++ (Reward.dayBadges (s.completionOf a)).map Badge.id ↔
      id ∈ s.earned ∨ Reward.completesDay (s.completionOf a) = true ∧
        ∃ b, Badge.ofDay? a.day = some b ∧ b.id = id := by
  have hbadges : Reward.dayBadges (s.completionOf a) =
      if Reward.completesDay (s.completionOf a) && !s.hasBadgeOf a.day then (Badge.ofDay? a.day).toList else [] := rfl
  rw [hbadges, hasBadgeOf]
  cases Reward.completesDay (s.completionOf a) with
  | false => simp
  | true =>
      cases Badge.ofDay? a.day with
      | none => simp
      | some b =>
          by_cases hearned : b.id ∈ s.earned
          · have hnone : id ∈ s.earned ∨ b.id = id ↔ id ∈ s.earned := or_iff_left_of_imp fun hid => hid ▸ hearned
            simp [hearned, hnone]
          · simp [hearned, eq_comm]

theorem Settled.earned_iff_concat (h : Settled s l) (hnew : a.exercise ∉ l.map Attempt.exercise) (id : String) :
    id ∈ s.earned ++ (Reward.dayBadges (s.completionOf a)).map Badge.id ↔ Earns (l ++ [a]) id := by
  rw [mem_append_dayBadges_iff, h.completesDay_iff hnew, h.earned_iff]
  constructor
  · rintro (⟨day, b, hfirst, hlast, hday, hid, hthree⟩ | ⟨htwo, b, hday, hid⟩)
    · refine ⟨day, b, hfirst, hlast, hday, hid, ?_⟩
      rw [countOn_concat]
      omega
    · obtain ⟨hfirst, hlast⟩ := Badge.bounds_of_ofDay? hday
      refine ⟨a.day, b, hfirst, hlast, hday, hid, ?_⟩
      rw [countOn_concat, if_pos rfl]
      omega
  · rintro ⟨day, b, hfirst, hlast, hday, hid, hthree⟩
    by_cases hbefore : 3 ≤ countOn day l
    · exact .inl ⟨day, b, hfirst, hlast, hday, hid, hbefore⟩
    · rw [countOn_concat] at hthree
      split at hthree
      · rename_i hsame
        subst hsame
        exact .inr ⟨by omega, b, hday, hid⟩
      · omega

theorem Settled.step (h : Settled s l) (hnew : a.passes = true → a.exercise ∉ l.map Attempt.exercise) :
    Settled (s.step a.step).2 (l ++ a.paid s) := by
  unfold Attempt.paid
  cases hstep : s.step a.step with
  | mk o t =>
      cases Attempt.effect_of_step hstep with
      | rewarded hpasses hlevel hgained hexperience hearned hdone =>
          have hpos := Reward.gain_pos (s.completionOf a)
          have hnew := hnew hpasses
          have hpaid : o.gained ≠ 0 := by omega
          rw [if_neg hpaid]
          constructor
          · rw [List.map_append, List.nodup_append']
            exact ⟨h.once, List.nodup_singleton _, by simpa using hnew⟩
          · rw [hdone, markDone, if_neg (h.not_mem_done hnew), List.map_append]
            exact h.done_perm.append_right _
          · rw [hexperience, h.add_gain_eq hnew]
          · rw [hearned]
            exact h.earned_iff_concat hnew
      | ignored hnot hgained =>
          rw [if_pos hgained, List.append_nil]
          exact h

/-! ## A list of attempts -/

/-- The attempts of a list that are rewarded. -/
def rewarded (s : Session) : List Attempt → List Attempt
  | [] => []
  | a :: rest => a.paid s ++ rewarded (s.step a.step).2 rest

/-- What is left to pass is new, whether or not the first attempt is rewarded. -/
theorem nodup_rest {rest : List Attempt}
    (honce : ((l ++ passed (a :: rest)).map Attempt.exercise).Nodup) :
    (((l ++ a.paid s) ++ passed rest).map Attempt.exercise).Nodup := by
  rw [passed_cons, ← List.append_assoc] at honce
  exact honce.sublist ((((a.paid_sublist s).append_left l).append_right _).map _)

theorem not_mem_of_passes {rest : List Attempt}
    (honce : ((l ++ passed (a :: rest)).map Attempt.exercise).Nodup) (hpasses : a.passes = true) :
    a.exercise ∉ l.map Attempt.exercise := by
  rw [passed_cons_of_passes hpasses, List.map_append, List.map_cons] at honce
  exact fun hmem => (List.nodup_append'.mp honce).2.2 hmem List.mem_cons_self

theorem Settled.after (h : Settled s l) {attempts : List Attempt}
    (honce : ((l ++ passed attempts).map Attempt.exercise).Nodup) :
    Settled (s.after (attempts.map Attempt.step)) (l ++ rewarded s attempts) := by
  induction attempts generalizing s l with
  | nil => simpa [rewarded] using h
  | cons a rest ih =>
      have hrest := ih (h.step (not_mem_of_passes honce)) (nodup_rest honce)
      rwa [List.append_assoc] at hrest

/-- As long as there is a level, all exercises that are passed are rewarded. -/
theorem Settled.rewarded_eq (h : Settled s l) {attempts : List Attempt}
    (honce : ((l ++ passed attempts).map Attempt.exercise).Nodup)
    (hlevel : total (l ++ passed attempts) < Level.limit) :
    rewarded s attempts = passed attempts := by
  induction attempts generalizing s l with
  | nil => rfl
  | cons a rest ih =>
      have hsplit := passed_cons a rest
      have hpaid : a.paid s = passed [a] := by
        rw [Attempt.paid_eq]
        cases hpasses : a.passes with
        | false => simp [passed, hpasses]
        | true =>
            -- The total only grows, so the list stays below the limit only if each of its beginnings does.
            have hgain := h.add_gain_eq (not_mem_of_passes honce hpasses)
            have hmore := total_le_append (l ++ [a]) (passed rest)
            rw [passed_cons_of_passes hpasses, List.append_cons] at hlevel
            rw [if_pos ⟨rfl, by omega⟩, passed_cons_of_passes hpasses]
            rfl
      have hrest : rewarded (s.step a.step).2 rest = passed rest := by
        apply ih (h.step (not_mem_of_passes honce)) (nodup_rest honce)
        rwa [hpaid, List.append_assoc, ← hsplit]
      rw [rewarded, hpaid, hrest, hsplit]

theorem Effect.experience_lt_limit {t : Session} {x : Step} {o : Outcome} (h : s.Effect x o t)
    (hs : s.experience < Level.limit) : t.experience < Level.limit := by
  have hexperience := h.experience_eq
  cases h with
  | @passed page activity day seconds hints v r hverify hpassed hreward =>
      have hlevel := (exists_reward_iff _).mp ⟨r, hreward⟩
      rwa [hexperience, Outcome.gained, (Reward.of_passed hreward).1]
  | notPassed hverify hpassed hreward => exact hs
  | refused hfault => exact hs
  | counted hdate hstreak => simpa [earn] using hs
  | uncounted hdate hfault => simpa using hs

/-- A session never has more experience than there is a level for. -/
theorem experience_after_lt_limit (steps : List Step) : (({} : Session).after steps).experience < Level.limit :=
  after_of_step (p := fun s => s.experience < Level.limit) (fun s x hs => (s.effect_step x).experience_lt_limit hs)
    Level.limit_pos steps

theorem settled_tried {attempts : List Attempt} (honce : ((passed attempts).map Attempt.exercise).Nodup) :
    Settled (tried attempts) (rewarded {} attempts) :=
  settled_empty.after honce

theorem rewarded_eq_iff {attempts : List Attempt} (honce : ((passed attempts).map Attempt.exercise).Nodup) :
    rewarded {} attempts = passed attempts ↔ total (passed attempts) < Level.limit := by
  constructor
  · intro hall
    rw [← hall, ← (settled_tried honce).experience_eq]
    exact experience_after_lt_limit _
  · exact settled_empty.rewarded_eq honce

/-- What a list of attempts gains is too much for a level only if the list has astronomically many of them. -/
theorem total_lt_limit_of_length {k : Nat} (hk : k < 1023) {attempts : List Attempt} (h : attempts.length ≤ twoTo k) :
    total (passed attempts) < Level.limit := by
  have htotal := total_le_length (passed attempts)
  have hlength : (passed attempts).length ≤ attempts.length := List.length_filter_le Attempt.passes attempts
  have hlarge := Binary64.twoTo_le_tooLarge (k := k + 1) hk
  have hdouble : twoTo (k + 1) = twoTo k * 2 := rfl
  have hpos := Binary64.twoTo_pos k
  unfold Level.limit Level.step
  push_cast
  omega

/-- The order of the exercises does not matter. In a list of attempts in which no exercise is passed twice, those that
are rewarded gain what each is worth and what the full days are worth, and the badges are those of the full days. All
that are passed are rewarded unless they gain more together than there is a level for, which takes more attempts than
any memory holds; and so the same attempts in another order end with the same experience and the same badges. -/
theorem settled_in_any_order {attempts : List Attempt} (honce : ((passed attempts).map Attempt.exercise).Nodup) :
    Settled (tried attempts) (rewarded {} attempts) ∧
    (rewarded {} attempts = passed attempts ↔ total (passed attempts) < Level.limit) ∧
    (attempts.length ≤ twoTo 1000 → total (passed attempts) < Level.limit) ∧
    (total (passed attempts) < Level.limit → ∀ other : List Attempt, other.Perm attempts →
      Settled (tried other) (passed attempts) ∧
      (tried other).experience = (tried attempts).experience ∧ (tried other).earned.Perm (tried attempts).earned) := by
  have hsettled : ∀ other : List Attempt, other.Perm attempts → total (passed attempts) < Level.limit →
      Settled (tried other) (passed attempts) := by
    intro other hperm hlevel
    have hpassed : (passed other).Perm (passed attempts) := hperm.filter Attempt.passes
    have hother := (hpassed.map Attempt.exercise).nodup_iff.mpr honce
    rw [← total_perm hpassed] at hlevel
    have hrewarded := settled_tried hother
    rw [(rewarded_eq_iff hother).mpr hlevel] at hrewarded
    exact hrewarded.perm hpassed
  refine ⟨settled_tried honce, rewarded_eq_iff honce, total_lt_limit_of_length (by decide), ?_⟩
  intro hlevel other hperm
  have hone := hsettled attempts (.refl attempts) hlevel
  have hother := hsettled other hperm hlevel
  refine ⟨hother, hother.experience_eq.trans hone.experience_eq.symm, ?_⟩
  apply (List.perm_ext_iff_of_nodup (nodup_earned_after _) (nodup_earned_after _)).mpr
  intro id
  rw [← tried, ← tried, hother.earned_iff, hone.earned_iff]

/-- A failed attempt, three exercises of one day and one of another, forwards and backwards. -/
theorem settled_in_any_order_backwards :
    ∃ attempts : List Attempt, attempts = [
        ⟨"<h2>Tides</h2>".toList, .known .heading, 1, 60, 0⟩,
        ⟨"<h1>Tides</h1>".toList, .known .heading, 1, 60, 0⟩,
        ⟨"<p aria-live=\"polite\">".toList, .known .liveRegion, 1, 300, 2⟩,
        ⟨"prefers-reduced-motion".toList, .known .motion, 1, 119, 0⟩,
        ⟨"prefers-reduced-motion".toList, .known .motion, 2, 120, 0⟩] ∧
      ((passed attempts).map Attempt.exercise).Nodup ∧ (tried attempts).experience = 1100 ∧
      (tried attempts.reverse).experience = 1100 ∧ (tried attempts.reverse).earned.Perm ["visual-hero"] := by
  refine ⟨_, rfl, ?_⟩
  generalize hattempts : [_, _, _, _, _] = attempts
  have honce : ((passed attempts).map Attempt.exercise).Nodup := by
    subst hattempts
    decide +kernel
  have hlevel : total (passed attempts) < Level.limit := by
    apply (settled_in_any_order honce).2.2.1
    subst hattempts
    decide +kernel
  obtain ⟨hsettled, hexperience, hearned⟩ := (settled_in_any_order honce).2.2.2 hlevel _ (List.reverse_perm attempts)
  have hforwards : (tried attempts).experience = 1100 ∧ (tried attempts).earned = ["visual-hero"] := by
    subst hattempts
    decide +kernel
  exact ⟨honce, hforwards.1, hexperience.trans hforwards.1, hforwards.2 ▸ hearned⟩

end Session

end Accessibility
