import Accessibility.Journal.Registry
import Mathlib.Data.List.Induction
import Mathlib.Data.List.Nodup

/-! # The registry over a list of steps

Which logger a step answers with, and how that logger is configured, can be told from the list of steps alone. A key
leads to the main logger, to the logger that was set up under it, or else to a child of the main logger. A logger has
one handler and the level that it was given last, or neither. -/

namespace Accessibility.Journal.Registry

/-! ## What a step does -/

theorem find?_filter_ne {α : Type} (f : α → String) {key other : String} (h : other ≠ key) (l : List α) :
    (l.filter fun a => f a != key).find? (fun a => f a == other) = l.find? fun a => f a == other := by
  rw [List.find?_filter]
  congr 1
  funext a
  by_cases hother : f a = other
  · simp [hother, h]
  · simp [hother]

theorem name?_bind (r : Registry) (key name other : String) :
    (r.bind key name).name? other = if other = key then some name else r.name? other := by
  by_cases h : other = key
  · simp [name?, bind, h]
  · simp [name?, bind, h, Ne.symm h, find?_filter_ne (Prod.fst : String × String → String) h]

@[simp] theorem logger_bind (r : Registry) (key name other : String) :
    (r.bind key name).logger other = r.logger other := rfl

@[simp] theorem name?_configure (r : Registry) (name : String) (level : Int) (key : String) :
    (r.configure name level).name? key = r.name? key := rfl

theorem logger_configure (r : Registry) (name : String) (level : Int) (other : String) :
    (r.configure name level).logger other =
      if other = name then { name, level, handlers := 1 } else r.logger other := by
  by_cases h : other = name
  · simp [logger, configure, h]
  · simp [logger, configure, h, Ne.symm h, find?_filter_ne Logger.name h]

/-- What a step does to the registry. -/
inductive Effect (r : Registry) : Step → Registry → Prop
  | setup (key : String) (level : Int) : Effect r (.setup key level) ((r.configure key level).bind key key)
  | main (hnew : r.name? mainName = none) :
      Effect r (.get mainName) ((r.configure mainName mainLevel).bind mainName mainName)
  | child {key : String} (hkey : key ≠ mainName) (hnew : r.name? key = none) :
      Effect r (.get key) (r.bind key (childName key))
  | cached {key name : String} (hcached : r.name? key = some name) : Effect r (.get key) r

theorem setupName_of_ne {key : String} (h : key ≠ "") : setupName key = key :=
  if_neg h

theorem effect_step (r : Registry) {s : Step} (h : s.key ≠ "") : Effect r s (r.step s) := by
  cases s with
  | setup key level =>
      change key ≠ "" at h
      rw [step, setup, setupName_of_ne h]
      exact .setup key level
  | get key =>
      change key ≠ "" at h
      rw [step]
      cases hname : r.name? key with
      | some name => exact .cached hname
      | none =>
          by_cases hmain : key = mainName
          · subst hmain
            simp only [if_true, setup, setupName_of_ne h]
            exact .main hname
          · simp only [if_neg hmain]
            exact .child hmain hname

/-! ## What the steps so far say -/

@[simp] theorem Step.key_get (key : String) : (get key).key = key := rfl

@[simp] theorem Step.key_setup (key : String) (level : Int) : (setup key level).key = key := rfl

/-- Whether a step sets up a logger under a key. -/
def Step.SetsUp (key : String) : Step → Prop
  | setup k _ => k = key
  | get _ => False

instance (key : String) : DecidablePred (Step.SetsUp key)
  | .setup k _ => inferInstanceAs (Decidable (k = key))
  | .get _ => inferInstanceAs (Decidable False)

/-- The full name that a key leads to after some steps: the key itself for the main logger and for a logger that was set
up under the key, and that of a child of the main logger otherwise. -/
def fullName (steps : List Step) (key : String) : String :=
  if key = mainName ∨ ∃ s ∈ steps, s.SetsUp key then key else childName key

/-- The logger to which a step gives a level, with the level, seen from the steps before it. A setup gives its own
level. The main logger also gets one when it is asked for and its key has not been used. -/
def Step.given? (earlier : List Step) : Step → Option (String × Int)
  | setup key level => some (key, level)
  | get key => if key = mainName ∧ ∀ s ∈ earlier, s.key ≠ key then some (mainName, mainLevel) else none

/-- The step at a place gives a logger its level. -/
def GivenAt (steps : List Step) (name : String) (i : Nat) (level : Int) : Prop :=
  ∃ s, steps[i]? = some s ∧ s.given? (steps.take i) = some (name, level)

/-- How a logger is configured after some steps: as by the last step that gave it a level, or not at all if no step has
given it one. -/
inductive Configured (steps : List Step) : Logger → Prop
  | given {name : String} {level : Int} {i : Nat} (hgiven : GivenAt steps name i level)
      (hlast : ∀ j l, GivenAt steps name j l → j ≤ i) : Configured steps { name, level, handlers := 1 }
  | untouched {name : String} (hnever : ∀ i level, ¬ GivenAt steps name i level) :
      Configured steps { name, level := 0, handlers := 0 }

section

variable {steps : List Step} {s : Step} {key name : String} {level : Int}

theorem setsUp_key_of_setsUp (h : s.SetsUp key) : s.key = key := by
  cases s with
  | setup k l => exact h
  | get k => exact h.elim

theorem fullName_main (steps : List Step) : fullName steps mainName = mainName :=
  if_pos (.inl rfl)

theorem fullName_of_unused (hkey : key ≠ mainName) (h : ∀ s ∈ steps, s.key ≠ key) :
    fullName steps key = childName key := by
  refine if_neg ?_
  rintro (hmain | ⟨s, hs, hsetup⟩)
  · exact hkey hmain
  · exact h s hs (setsUp_key_of_setsUp hsetup)

theorem fullName_concat (steps : List Step) (s : Step) (key : String) :
    fullName (steps ++ [s]) key = if s.SetsUp key then key else fullName steps key := by
  have hconcat : (∃ t ∈ steps ++ [s], t.SetsUp key) ↔ (∃ t ∈ steps, t.SetsUp key) ∨ s.SetsUp key := by
    simp only [List.mem_append, List.mem_singleton, or_and_right, exists_or, exists_eq_left]
  simp only [fullName, hconcat]
  by_cases h : s.SetsUp key <;> simp [h]

theorem fullName_concat_setup (steps : List Step) (key : String) (level : Int) :
    fullName (steps ++ [.setup key level]) key = key := by
  rw [fullName_concat]
  exact if_pos rfl

theorem fullName_concat_get (steps : List Step) (other key : String) :
    fullName (steps ++ [.get other]) key = fullName steps key := by
  rw [fullName_concat]
  exact if_neg id

theorem givenAt_concat_iff {i : Nat} :
    GivenAt (steps ++ [s]) name i level ↔
      GivenAt steps name i level ∨ i = steps.length ∧ s.given? steps = some (name, level) := by
  unfold GivenAt
  rcases Nat.lt_trichotomy i steps.length with hlt | rfl | hgt
  · rw [List.getElem?_append_left hlt, List.take_append_of_le_length (Nat.le_of_lt hlt)]
    simp [Nat.ne_of_lt hlt]
  · simp
  · have hnone : (steps ++ [s])[i]? = none ∧ steps[i]? = none := by
      simp only [List.getElem?_eq_none_iff, List.length_append, List.length_singleton]
      omega
    simp [hnone, Nat.ne_of_gt hgt]

theorem GivenAt.lt {i : Nat} (h : GivenAt steps name i level) : i < steps.length := by
  obtain ⟨s, hs, -⟩ := h
  exact (List.getElem?_eq_some_iff.mp hs).1

theorem Configured.concat_given (h : s.given? steps = some (name, level)) :
    Configured (steps ++ [s]) { name, level, handlers := 1 } := by
  refine .given (givenAt_concat_iff.mpr (.inr ⟨rfl, h⟩)) ?_
  intro j l hj
  have hlt := hj.lt
  rw [List.length_append, List.length_singleton] at hlt
  omega

theorem Configured.concat_not_given {logger : Logger} (h : Configured steps logger)
    (hnot : ∀ level, s.given? steps ≠ some (logger.name, level)) : Configured (steps ++ [s]) logger := by
  cases h with
  | given hgiven hlast =>
      refine .given (givenAt_concat_iff.mpr (.inl hgiven)) ?_
      intro j l hj
      rcases givenAt_concat_iff.mp hj with hj | ⟨-, hj⟩
      · exact hlast j l hj
      · exact absurd hj (hnot l)
  | untouched hnever =>
      refine .untouched ?_
      intro i l hi
      rcases givenAt_concat_iff.mp hi with hi | ⟨-, hi⟩
      · exact hnever i l hi
      · exact absurd hi (hnot l)

end

/-! ## What the registry keeps -/

/-- The registry knows what the steps so far say, and nothing else. -/
structure Follows (steps : List Step) (r : Registry) : Prop where
  name?_eq : ∀ key, r.name? key = if ∃ s ∈ steps, s.key = key then some (fullName steps key) else none
  configured : ∀ name, (r.logger name).name = name ∧ Configured steps (r.logger name)
  nodup_keys : (r.keys.map (·.1)).Nodup

section

variable {steps : List Step} {r r' : Registry} {s : Step}

theorem follows_empty : Follows [] {} where
  name?_eq := fun key => by simp [name?]
  configured := fun name => ⟨rfl, .untouched fun i level h => absurd h.lt (Nat.not_lt_zero i)⟩
  nodup_keys := List.nodup_nil

theorem Follows.name?_eq_none_iff (h : Follows steps r) {key : String} :
    r.name? key = none ↔ ∀ s ∈ steps, s.key ≠ key := by
  rw [h.name?_eq]
  split
  · rename_i hused
    simpa using hused
  · rename_i hunused
    simpa using hunused

theorem Follows.eq_fullName (h : Follows steps r) {key name : String} (hname : r.name? key = some name) :
    name = fullName steps key := by
  rw [h.name?_eq] at hname
  split at hname
  · exact (Option.some.inj hname).symm
  · contradiction

theorem nodup_keys_bind (h : (r.keys.map (·.1)).Nodup) (key name : String) :
    ((r.bind key name).keys.map (·.1)).Nodup := by
  refine List.nodup_cons.mpr ⟨?_, h.sublist (List.filter_sublist.map _)⟩
  simp

theorem Follows.configured_of_given (h : Follows steps r) {name : String} {level : Int}
    (hgiven : s.given? steps = some (name, level)) (other : String) :
    ((r.configure name level).logger other).name = other ∧
      Configured (steps ++ [s]) ((r.configure name level).logger other) := by
  rw [logger_configure]
  by_cases hother : other = name
  · rw [if_pos hother, hother]
    exact ⟨rfl, .concat_given hgiven⟩
  · rw [if_neg hother]
    obtain ⟨hname, hconfigured⟩ := h.configured other
    refine ⟨hname, hconfigured.concat_not_given fun l hl => hother ?_⟩
    rw [hgiven, hname, Option.some.injEq, Prod.mk.injEq] at hl
    exact hl.1.symm

theorem Follows.configured_of_none (h : Follows steps r) (hnone : s.given? steps = none) (name : String) :
    (r.logger name).name = name ∧ Configured (steps ++ [s]) (r.logger name) := by
  obtain ⟨hname, hconfigured⟩ := h.configured name
  exact ⟨hname, hconfigured.concat_not_given fun l hl => by rw [hnone] at hl; contradiction⟩

/-- A step gives one key the full name that it leads to, and leaves the others alone. -/
theorem Follows.name?_concat (h : Follows steps r)
    (hr : ∀ key, r'.name? key = if key = s.key then some (fullName (steps ++ [s]) s.key) else r.name? key)
    (key : String) :
    r'.name? key = if ∃ t ∈ steps ++ [s], t.key = key then some (fullName (steps ++ [s]) key) else none := by
  rw [hr]
  by_cases hkey : key = s.key
  · rw [if_pos hkey, if_pos ⟨s, List.mem_concat_self, hkey.symm⟩, hkey]
  · have hsetsUp : ¬ s.SetsUp key := fun hs => hkey (setsUp_key_of_setsUp hs).symm
    rw [if_neg hkey, h.name?_eq, fullName_concat, if_neg hsetsUp]
    simp [or_and_right, exists_or, Ne.symm hkey]

theorem Follows.effect (h : Follows steps r) (he : Effect r s r') : Follows (steps ++ [s]) r' := by
  cases he with
  | setup key level =>
      refine ⟨h.name?_concat ?_, h.configured_of_given rfl, nodup_keys_bind h.nodup_keys key key⟩
      intro k
      rw [name?_bind, name?_configure, Step.key_setup, fullName_concat_setup]
  | main hnew =>
      have hgiven : (Step.get mainName).given? steps = some (mainName, mainLevel) :=
        if_pos ⟨rfl, h.name?_eq_none_iff.mp hnew⟩
      refine ⟨h.name?_concat ?_, h.configured_of_given hgiven, nodup_keys_bind h.nodup_keys mainName mainName⟩
      intro k
      rw [name?_bind, name?_configure, Step.key_get, fullName_main]
  | @child key hkey hnew =>
      have hgiven : (Step.get key).given? steps = none := if_neg fun hmain => hkey hmain.1
      refine ⟨h.name?_concat ?_, h.configured_of_none hgiven, nodup_keys_bind h.nodup_keys key (childName key)⟩
      intro k
      rw [name?_bind, Step.key_get, fullName_concat_get, fullName_of_unused hkey (h.name?_eq_none_iff.mp hnew)]
  | @cached key name hcached =>
      have hgiven : (Step.get key).given? steps = none := by
        refine if_neg ?_
        rintro ⟨-, hunused⟩
        rw [h.name?_eq_none_iff.mpr hunused] at hcached
        contradiction
      refine ⟨h.name?_concat ?_, h.configured_of_none hgiven, h.nodup_keys⟩
      intro k
      rw [Step.key_get, fullName_concat_get]
      by_cases hk : k = key
      · rw [if_pos hk, hk, hcached, h.eq_fullName hcached]
      · rw [if_neg hk]

end

/-! ## Lists of steps -/

/-- The registry after some steps. -/
def after (r : Registry) (steps : List Step) : Registry :=
  steps.foldl step r

theorem after_concat (r : Registry) (steps : List Step) (s : Step) : r.after (steps ++ [s]) = (r.after steps).step s :=
  List.foldl_concat ..

theorem getElem?_run (r : Registry) (steps : List Step) (i : Nat) :
    (r.run steps)[i]? =
      steps[i]?.map fun s => ((r.after (steps.take (i + 1))).answer s, r.after (steps.take (i + 1))) := by
  induction steps generalizing r i with
  | nil => rfl
  | cons s steps ih =>
      cases i with
      | zero => rfl
      | succ i => exact ih (r.step s) i

theorem follows_after {steps : List Step} (h : ∀ s ∈ steps, s.key ≠ "") :
    Follows steps (({} : Registry).after steps) := by
  induction steps using List.reverseRecOn with
  | nil => exact follows_empty
  | append_singleton steps s ih =>
      rw [after_concat]
      exact (ih fun t ht => h t (List.mem_append_left _ ht)).effect (effect_step _ (h s List.mem_concat_self))

/-! ## Answers -/

/-- What a step answers after the earlier ones, and which keys are known then: those that have been used, each of them
once. -/
structure Answered (earlier : List Step) (s : Step) (logger : Logger) (keys : List String) : Prop where
  name_eq : logger.name = fullName (earlier ++ [s]) s.key
  configured : Configured (earlier ++ [s]) logger
  nodup_keys : keys.Nodup
  mem_keys_iff : ∀ key, key ∈ keys ↔ ∃ t ∈ earlier ++ [s], t.key = key

/-- A name of a logger whose key has been used: the key or the full name that it leads to. -/
def IsCached (steps : List Step) (name : String) : Prop :=
  ∃ s ∈ steps, name = s.key ∨ name = fullName steps s.key

theorem Follows.mem_sortedKeys_iff {steps : List Step} {r : Registry} (h : Follows steps r) {key : String} :
    key ∈ r.sortedKeys ↔ ∃ s ∈ steps, s.key = key := by
  have hname : key ∈ r.keys.map (·.1) ↔ r.name? key ≠ none := by
    simp [name?]
  rw [sortedKeys, (List.mergeSort_perm _ _).mem_iff, hname, ne_eq, h.name?_eq_none_iff]
  simp

theorem Follows.answered {earlier : List Step} {s : Step} {r : Registry} (h : Follows (earlier ++ [s]) r) :
    Answered earlier s (r.answer s) r.sortedKeys := by
  have hanswer : r.answer s = r.logger (fullName (earlier ++ [s]) s.key) := by
    rw [answer, h.name?_eq, if_pos ⟨s, List.mem_concat_self, rfl⟩, Option.getD_some]
  rw [hanswer]
  obtain ⟨hname, hconfigured⟩ := h.configured (fullName (earlier ++ [s]) s.key)
  exact ⟨hname, hconfigured, (List.mergeSort_perm _ _).nodup_iff.mpr h.nodup_keys, fun _ => h.mem_sortedKeys_iff⟩

theorem childName_ne_main (key : String) : childName key ≠ mainName := by
  intro h
  have hlength : (mainName ++ "." ++ key).length = mainName.length := congrArg String.length h
  rw [String.length_append, String.length_append, show ".".length = 1 from rfl] at hlength
  omega

theorem eq_main_of_fullName_eq {steps : List Step} {key : String} (h : fullName steps key = mainName) :
    key = mainName := by
  unfold fullName at h
  split at h
  · exact h
  · exact absurd h (childName_ne_main key)

/-- Asking for a key configures the main logger at most, and that only before its key has been used. -/
theorem Follows.logger_get {steps : List Step} {r r' : Registry} {key name : String} (h : Follows steps r)
    (he : Effect r (.get key) r') (hname : IsCached steps name) : r'.logger name = r.logger name := by
  cases he with
  | main hnew =>
      rw [logger_bind, logger_configure, if_neg]
      rintro rfl
      -- A key leads to the main logger only if it is the main key, and that has not been used.
      obtain ⟨s, hs, hkey | hfull⟩ := hname
      · exact h.name?_eq_none_iff.mp hnew s hs hkey.symm
      · exact h.name?_eq_none_iff.mp hnew s hs (eq_main_of_fullName_eq hfull.symm)
  | child => rfl
  | cached => rfl

/-- A list of steps is answered step by step as the steps so far say, and asking for a key changes no logger that is
cached by then. -/
theorem answered_step_by_step {steps : List Step} (h : ∀ s ∈ steps, s.key ≠ "") :
    ∀ i s, steps[i]? = some s →
      ∃ logger, (run {} steps)[i]? = some (logger, after {} (steps.take (i + 1))) ∧
        Answered (steps.take i) s logger (after {} (steps.take (i + 1))).sortedKeys ∧
        ∀ key name, s = .get key → IsCached (steps.take i) name →
          (after {} (steps.take (i + 1))).logger name = (after {} (steps.take i)).logger name := by
  intro i s hs
  have hsplit : steps.take (i + 1) = steps.take i ++ [s] := by
    rw [List.take_add_one, hs]
    rfl
  have hearlier : Follows (steps.take i) (after {} (steps.take i)) :=
    follows_after fun t ht => h t (List.mem_of_mem_take ht)
  have heffect := effect_step (after {} (steps.take i)) (h s (List.mem_of_getElem? hs))
  refine ⟨_, by rw [getElem?_run, hs]; rfl, ?_, ?_⟩
  · rw [hsplit, after_concat]
    exact (hearlier.effect heffect).answered
  · rintro key name rfl hname
    rw [hsplit, after_concat]
    exact hearlier.logger_get heffect hname

/-- A logger that is set up under one key and asked for under another. -/
def twoKeys : List Step :=
  [.get "colors", .setup "accessiquest.colors" 10, .get "colors"]

/-- The second key finds the level and the handler that the first one gave. -/
theorem answered_step_by_step_two_keys :
    (∀ s ∈ twoKeys, s.key ≠ "") ∧
      (run {} twoKeys)[2]? = some (⟨"accessiquest.colors", 10, 1⟩, after {} twoKeys) ∧
      Answered (twoKeys.take 2) (.get "colors") ⟨"accessiquest.colors", 10, 1⟩ (after {} twoKeys).sortedKeys ∧
      (after {} twoKeys).logger "accessiquest.colors" = (after {} (twoKeys.take 2)).logger "accessiquest.colors" := by
  have hkeys : ∀ s ∈ twoKeys, s.key ≠ "" := by decide
  have hrun : (run {} twoKeys)[2]? = some (⟨"accessiquest.colors", 10, 1⟩, after {} twoKeys) := rfl
  obtain ⟨logger, hlogger, hanswered, hkept⟩ := answered_step_by_step hkeys 2 (.get "colors") rfl
  obtain rfl : logger = ⟨"accessiquest.colors", 10, 1⟩ :=
    congrArg Prod.fst (Option.some.inj (hlogger.symm.trans hrun))
  have hcached : IsCached (twoKeys.take 2) "accessiquest.colors" :=
    ⟨.setup "accessiquest.colors" 10, .tail _ (.head _), .inl rfl⟩
  exact ⟨hkeys, hrun, hanswered, hkept "colors" _ rfl hcached⟩

end Accessibility.Journal.Registry
