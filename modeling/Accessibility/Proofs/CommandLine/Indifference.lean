import Accessibility.Proofs.CommandLine.Step

/-! # Flags that no rule minds

Where all rules do the same to the settings before and after a change, a flag that makes the change may be given before
all other arguments. -/

namespace Accessibility.CommandLine

variable {σ : Type} {g : Grammar σ}

theorem OptionRule.takesValue_of_flag {rule : OptionRule σ} {change : σ → σ} (h : rule.effect = .flag change) :
    rule.takesValue = false := by
  rw [takesValue, h]

/-- The effect comes to the same before and after the change. -/
def Effect.Indifferent (change : σ → σ) : Effect σ → Prop
  | help => True
  | flag set => ∀ s, set (change s) = change (set s)
  | value set => ∀ v s, set v (change s) = (set v s).map change

namespace Grammar

/-! ## Indifferent rules -/

/-- No rule minds whether the settings are changed before or after it. -/
structure Indifferent (g : Grammar σ) (change : σ → σ) : Prop where
  option : ∀ rule ∈ g.options, rule.effect.Indifferent change
  positional : ∀ rule ∈ g.positionals, ∀ written s, rule.set written (change s) = (rule.set written s).map change

variable {change : σ → σ}

theorem Indifferent.effect_change (hg : g.Indifferent change) {c : OptionRule σ × Text} (hc : c.1 ∈ g.options) (s : σ) :
    g.effect (change s) c = (g.effect s c).map change := by
  obtain ⟨rule, argument⟩ := c
  have hrule := hg.option rule hc
  unfold effect
  dsimp only
  cases heffect : rule.effect with
  | help => rfl
  | flag set =>
      rw [heffect] at hrule
      exact congrArg Except.ok (hrule s)
  | value set =>
      rw [heffect] at hrule
      dsimp only
      rw [hrule]
      cases set (value? argument) s <;> rfl

theorem Indifferent.foldlM_effect_change (hg : g.Indifferent change) {carried : List (OptionRule σ × Text)}
    (h : ∀ c ∈ carried, c.1 ∈ g.options) (s : σ) :
    carried.foldlM g.effect (change s) = (carried.foldlM g.effect s).map change := by
  induction carried generalizing s with
  | nil => rfl
  | cons c carried ih =>
      rw [List.forall_mem_cons] at h
      rw [List.foldlM_cons, List.foldlM_cons, hg.effect_change h.1]
      cases g.effect s c with
      | error refusal => rfl
      | ok s => exact ih h.2 s

/-! ## Reading with changed settings -/

/-- A state and the one in which the settings are changed. More options may have been seen there. -/
structure Changes (change : σ → σ) (st st' : State σ) : Prop where
  settings : st'.settings = change st.settings
  seen : st.seen ⊆ st'.seen
  extras : st'.extras = st.extras

/-- Nothing is missing where more options have been seen. -/
theorem missing_mono {seen seen' : List Text} (hseen : seen ⊆ seen') {pending : List (PositionalRule σ)}
    (h : (pending.map (·.name) ++
      (g.options.filter fun rule => rule.isRequired && !seen.contains rule.title).map (·.title)).isEmpty = true) :
    (pending.map (·.name) ++
      (g.options.filter fun rule => rule.isRequired && !seen'.contains rule.title).map (·.title)).isEmpty = true := by
  rw [List.isEmpty_iff, List.append_eq_nil_iff, List.map_eq_nil_iff, List.map_eq_nil_iff, List.filter_eq_nil_iff] at h ⊢
  refine ⟨h.1, fun rule hrule hmissing => h.2 rule hrule ?_⟩
  rw [Bool.and_eq_true, Bool.not_eq_true', List.contains_eq_mem, decide_eq_false_iff_not] at hmissing ⊢
  exact ⟨hmissing.1, fun hmem => hmissing.2 (hseen hmem)⟩

section

variable (hg : g.Indifferent change)

include hg

theorem foldlM_apply_changes {carried : List (OptionRule σ × Text)} (hcarried : ∀ c ∈ carried, c.1 ∈ g.options)
    {st st' t : State σ} (hst : Changes change st st') (h : carried.foldlM g.apply st = .ok t) :
    ∃ t', carried.foldlM g.apply st' = .ok t' ∧ Changes change t t' := by
  rw [foldlM_apply] at h ⊢
  rw [hst.settings, hg.foldlM_effect_change hcarried]
  cases hsettings : carried.foldlM g.effect st.settings with
  | error refusal =>
      rw [hsettings] at h
      contradiction
  | ok s =>
      rw [hsettings] at h
      obtain rfl := Except.ok.inj h
      refine ⟨_, rfl, rfl, List.append_subset.mpr ⟨List.subset_append_left _ _, ?_⟩, hst.extras⟩
      exact List.subset_append_of_subset_right _ hst.seen

theorem takePositionals_changes {pending pending' : List (PositionalRule σ)} (hpending : pending ⊆ g.positionals)
    {words rest : List (Word σ)} {st st' t : State σ} (hst : Changes change st st')
    (h : takePositionals pending st words = .ok (pending', t, rest)) :
    ∃ t', takePositionals pending st' words = .ok (pending', t', rest) ∧ Changes change t t' := by
  induction pending generalizing st st' words with
  | nil =>
      obtain ⟨rfl, hrest⟩ := Prod.mk.inj (Except.ok.inj h)
      obtain ⟨rfl, rfl⟩ := Prod.mk.inj hrest
      exact ⟨st', rfl, hst⟩
  | cons rule pending ih =>
      rw [List.cons_subset] at hpending
      rw [takePositionals] at h ⊢
      cases htaken : takePositional rule.takesRest words with
      | none =>
          rw [htaken] at h
          obtain ⟨rfl, hrest⟩ := Prod.mk.inj (Except.ok.inj h)
          obtain ⟨rfl, rfl⟩ := Prod.mk.inj hrest
          exact ⟨st', rfl, hst⟩
      | some found =>
          obtain ⟨taken, after⟩ := found
          rw [htaken] at h
          dsimp only at h ⊢
          rw [hst.settings, hg.positional rule hpending.1]
          split at h
          · contradiction
          · rename_i settings hset
            rw [hset]
            have hnext : Changes change { st with settings } { st' with settings := change settings } :=
              ⟨rfl, hst.seen, hst.extras⟩
            exact ih hpending.2 hnext h

theorem Step.changes {pending left : List (PositionalRule σ)} (hpending : pending ⊆ g.positionals)
    {words after : List (Word σ)} (hwords : ∀ word ∈ words, g.Knows word) {st st' s : State σ}
    (hst : Changes change st st') (h : g.Step pending st words left s after) :
    ∃ s', g.Step pending st' words left s' after ∧ Changes change s s' := by
  cases h with
  | unknown w => exact ⟨_, .unknown w, hst.settings, hst.seen, by rw [hst.extras]⟩
  | option w hunfold hcarried happly =>
      have hu := isOf_of_unfold (hwords _ List.mem_cons_self) hunfold
      obtain ⟨s', happly', hs⟩ := foldlM_apply_changes hg (hu.carried hcarried) hst happly
      exact ⟨s', .option w hunfold hcarried happly', hs⟩
  | positional hword htake hshort =>
      obtain ⟨s', htake', hs⟩ := takePositionals_changes hg hpending hst htake
      exact ⟨s', .positional hword htake' hshort, hs⟩
  | leftOver hword htake hshort =>
      obtain ⟨s', htake', hs⟩ := takePositionals_changes hg hpending hst htake
      exact ⟨_, .leftOver hword htake' hshort, hs.settings, hs.seen, by rw [hs.extras]⟩

theorem readAll_changes {fuel : Nat} {pending left : List (PositionalRule σ)} (hpending : pending ⊆ g.positionals)
    {words : List (Word σ)} (hwords : ∀ word ∈ words, g.Knows word) {st st' t : State σ} (hst : Changes change st st')
    (h : g.readAll fuel pending st words = .ok (left, t)) :
    ∃ t', g.readAll fuel pending st' words = .ok (left, t') ∧ Changes change t t' := by
  induction fuel generalizing pending words st st' with
  | zero =>
      obtain ⟨rfl, rfl⟩ := Prod.mk.inj (Except.ok.inj h)
      exact ⟨st', rfl, hst⟩
  | succ fuel ih =>
      cases words with
      | nil =>
          obtain ⟨rfl, rfl⟩ := Prod.mk.inj (Except.ok.inj h)
          exact ⟨st', rfl, hst⟩
      | cons word rest =>
          obtain ⟨next, s, after, hstep, hread⟩ := exists_step_of_readAll h
          obtain ⟨s', hstep', hs⟩ := hstep.changes hg hpending hwords hst
          obtain ⟨hnext, hafter⟩ := hstep.leaves
          rw [hstep'.readAll_succ]
          exact ih (List.Subset.trans hnext.subset hpending) (fun x hx => hwords x (hafter.subset hx)) hs hread

/-- A flag that no rule minds may be given before all else. -/
theorem read_flag_cons (o : g.Given) (hflag : o.rule.effect = .flag change) {settings a : σ}
    {arguments extras : List Text} (h : g.read settings arguments = .ok (a, extras)) :
    g.read settings (o.name :: arguments) = .ok (change a, extras) := by
  unfold read at h
  split at h
  · contradiction
  rename_i words hwords
  split at h
  · contradiction
  rename_i pending st hall
  dsimp only at h
  split at h
  · rename_i hmissing
    obtain ⟨rfl, rfl⟩ := Prod.mk.inj (Except.ok.inj h)
    have hfirst : Changes change { settings } { settings := change settings, seen := [o.rule.title] } :=
      ⟨rfl, List.nil_subset _, rfl⟩
    obtain ⟨st', hall', hst⟩ :=
      readAll_changes hg (List.Subset.refl _) (knows_of_readWords hwords) hfirst hall
    have htakes := OptionRule.takesValue_of_flag hflag
    have hsteps : g.readAll (words.length + 1) g.positionals { settings } (.option o.name o.rule o.name none :: words) =
        .ok (pending, st') := by
      rw [Given.readAll_option, Given.applyUnfolded_last g _ htakes]
      simp only [apply, hflag]
      exact hall'
    simp only [read, readWords_cons o.name_ne o.readWord_name hwords, List.length_cons, hsteps, hst.settings,
      hst.extras]
    rw [if_pos (missing_mono hst.seen hmissing)]
  · contradiction

end

end Grammar

end Accessibility.CommandLine
