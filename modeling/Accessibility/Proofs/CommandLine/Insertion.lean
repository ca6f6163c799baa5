import Accessibility.Proofs.CommandLine.Indifference

/-! # A flag among other arguments

Arguments are accepted if each of their words is taken by an option or by a positional argument. Wherever a flag stands
among them before the separator, it changes the settings that they lead to and nothing else, except that the last of two
positional arguments may be the word of the separator itself. -/

namespace Accessibility.CommandLine

variable {σ : Type} {g : Grammar σ}

namespace Grammar

/-- The settings that words lead to if each of them is taken, one option or one positional argument at a time. -/
inductive Accepts (g : Grammar σ) : List (PositionalRule σ) → σ → List (Word σ) → σ → Prop
  | nil (s : σ) : g.Accepts [] s [] s
  | option {pending : List (PositionalRule σ)} {s t a : σ} {w : Text} {rule : OptionRule σ} {name : Text}
      {inline : Option Text} {rest : List (Word σ)} {u : Unfolded σ} {carried : List (OptionRule σ × Text)}
      {taken : Bool} (hunfold : g.unfold rule name inline = .ok u)
      (hcarried : u.carried? rest.head? = some (carried, taken))
      (heffect : carried.foldlM g.effect s = .ok t)
      (hrest : g.Accepts pending t (if taken then rest.drop 1 else rest) a) :
      g.Accepts pending s (.option w rule name inline :: rest) a
  | positional {rule : PositionalRule σ} {pending : List (PositionalRule σ)} {s t a : σ}
      {words taken rest : List (Word σ)} (htaken : takePositional false words = some (taken, rest))
      (hset : rule.set ((taken.map Word.written).erase separatorWord) s = .ok t)
      (hrest : g.Accepts pending t rest a) : g.Accepts (rule :: pending) s words a

/-! ## Arguments that are read to their end -/

theorem accepts_of_takePositionals {pending left : List (PositionalRule σ)}
    (hword : ∀ rule ∈ pending, rule.takesRest = false) {st t : State σ} {words rest : List (Word σ)}
    (h : takePositionals pending st words = .ok (left, t, rest)) {a : σ} (hrest : g.Accepts left t.settings rest a) :
    g.Accepts pending st.settings words a := by
  induction pending generalizing st words with
  | nil =>
      obtain ⟨rfl, hmore⟩ := Prod.mk.inj (Except.ok.inj h)
      obtain ⟨rfl, rfl⟩ := Prod.mk.inj hmore
      exact hrest
  | cons rule pending ih =>
      rw [List.forall_mem_cons] at hword
      rw [takePositionals, hword.1] at h
      split at h
      · obtain ⟨rfl, hmore⟩ := Prod.mk.inj (Except.ok.inj h)
        obtain ⟨rfl, rfl⟩ := Prod.mk.inj hmore
        exact hrest
      · rename_i taken after htaken
        dsimp only at h
        split at h
        · contradiction
        · rename_i settings hset
          exact .positional htaken hset (ih hword.2 h)

/-- Where all is taken and nothing is put aside, each word is taken in its turn. -/
theorem accepts_of_readAll {fuel : Nat} {pending : List (PositionalRule σ)}
    (hword : ∀ rule ∈ pending, rule.takesRest = false) {words : List (Word σ)} (hfuel : words.length ≤ fuel)
    {st t : State σ} (h : g.readAll fuel pending st words = .ok ([], t)) (hextras : t.extras = []) :
    g.Accepts pending st.settings words t.settings := by
  induction fuel generalizing pending st words with
  | zero =>
      obtain rfl := List.eq_nil_of_length_eq_zero (Nat.le_zero.mp hfuel)
      obtain ⟨rfl, rfl⟩ := Prod.mk.inj (Except.ok.inj h)
      exact .nil _
  | succ fuel ih =>
      cases words with
      | nil =>
          obtain ⟨rfl, rfl⟩ := Prod.mk.inj (Except.ok.inj h)
          exact .nil _
      | cons word rest =>
          obtain ⟨next, s, after, hstep, hread⟩ := exists_step_of_readAll h
          have hnone : s.extras = [] := List.prefix_nil.mp (hextras ▸ extras_prefix_of_readAll hread)
          have hshort := hstep.length_lt
          have hafter := ih (fun rule hrule => hword rule (hstep.leaves.1.subset hrule)) (by omega) hread
          cases hstep with
          | unknown w =>
              rw [List.append_eq_nil_iff] at hnone
              exact nomatch hnone.2
          | option w hunfold hcarried happly =>
              exact .option hunfold hcarried (settings_of_foldlM_apply happly).1 hafter
          | positional hplain htake _ => exact accepts_of_takePositionals hword htake hafter
          | leftOver hplain htake _ =>
              rw [List.append_eq_nil_iff, List.takeWhile_cons_of_pos (by rw [hplain]; rfl)] at hnone
              exact nomatch hnone.2

/-! ## One way to accept -/

theorem takePositional_plain (w : Text) (rest : List (Word σ)) :
    takePositional false (.plain w :: rest) =
      some (.plain w :: rest.takeWhile Word.isSeparator, rest.dropWhile Word.isSeparator) :=
  rfl

theorem span_isSeparator {words : List (Word σ)} (h : ∀ rest, words ≠ .separator :: rest) :
    words.takeWhile Word.isSeparator = [] ∧ words.dropWhile Word.isSeparator = words := by
  cases words with
  | nil => exact ⟨rfl, rfl⟩
  | cons word rest =>
      cases word with
      | separator => exact absurd rfl (h rest)
      | _ => exact ⟨rfl, rfl⟩

/-- A word takes the separator behind it, which does not count. -/
theorem takePositional_plain_separator {v : Text} (hv : v ≠ separatorWord) {written : List Text}
    {taken rest : List (Word σ)}
    (h : takePositional false (.plain v :: .separator :: written.map .plain) = some (taken, rest)) :
    (taken.map Word.written).erase separatorWord = [v] ∧ rest = written.map .plain := by
  rw [takePositional_plain, List.takeWhile_cons_of_pos (by rfl), List.dropWhile_cons_of_pos (by rfl)] at h
  obtain ⟨rfl, rfl⟩ := Prod.mk.inj (Option.some.inj h)
  obtain ⟨htake, hdrop⟩ : (written.map (Word.plain (σ := σ))).takeWhile Word.isSeparator = [] ∧
      (written.map (Word.plain (σ := σ))).dropWhile Word.isSeparator = written.map .plain :=
    span_isSeparator fun rest hrest => by cases written <;> exact nomatch hrest
  refine ⟨?_, hdrop⟩
  rw [htake]
  exact (List.erase_cons_tail fun h => hv (eq_of_beq h)).trans (congrArg _ (List.erase_cons_head _ _))

theorem takePositional_plain_other {v : Text} (hv : v ≠ separatorWord) {words : List (Word σ)}
    (hwords : ∀ rest, words ≠ .separator :: rest) {taken rest : List (Word σ)}
    (h : takePositional false (.plain v :: words) = some (taken, rest)) :
    (taken.map Word.written).erase separatorWord = [v] ∧ rest = words := by
  obtain ⟨rfl, rfl⟩ := Prod.mk.inj (Option.some.inj h)
  obtain ⟨htake, hdrop⟩ := span_isSeparator hwords
  rw [htake, hdrop]
  exact ⟨List.erase_of_not_mem fun h => hv (List.mem_singleton.mp h).symm, rfl⟩

theorem Accepts.unique {pending : List (PositionalRule σ)} {s a b : σ} {words : List (Word σ)}
    (h : g.Accepts pending s words a) (h' : g.Accepts pending s words b) : a = b := by
  induction h with
  | nil s =>
      cases h'
      rfl
  | option hunfold hcarried heffect hrest ih =>
      cases h' with
      | option hunfold' hcarried' heffect' hrest' =>
          obtain rfl := Except.ok.inj (hunfold.symm.trans hunfold')
          obtain ⟨rfl, rfl⟩ := Prod.mk.inj (Option.some.inj (hcarried.symm.trans hcarried'))
          obtain rfl := Except.ok.inj (heffect.symm.trans heffect')
          exact ih hrest'
      | positional htaken => exact nomatch htaken
  | positional htaken hset hrest ih =>
      cases h' with
      | option => exact nomatch htaken
      | positional htaken' hset' hrest' =>
          obtain ⟨rfl, rfl⟩ := Prod.mk.inj (Option.some.inj (htaken.symm.trans htaken'))
          obtain rfl := Except.ok.inj (hset.symm.trans hset')
          exact ih hrest'

section

variable {change : σ → σ} (hg : g.Indifferent change)

include hg

theorem Accepts.changed {pending : List (PositionalRule σ)} (hpending : pending ⊆ g.positionals) {s a : σ}
    {words : List (Word σ)} (hwords : ∀ word ∈ words, g.Knows word) (h : g.Accepts pending s words a) :
    g.Accepts pending (change s) words (change a) := by
  induction h with
  | nil s => exact .nil _
  | @option pending s t a w rule name inline rest u carried taken hunfold hcarried heffect hrest ih =>
      rw [List.forall_mem_cons] at hwords
      have hu := isOf_of_unfold hwords.1 hunfold
      refine .option hunfold hcarried (t := change t) ?_ (ih hpending fun x hx => hwords.2 x ?_)
      · rw [hg.foldlM_effect_change (hu.carried hcarried), heffect]
        rfl
      · split at hx
        · exact List.mem_of_mem_drop hx
        · exact hx
  | @positional rule pending s t a words taken rest htaken hset hrest ih =>
      rw [List.cons_subset] at hpending
      refine .positional htaken (t := change t) ?_
        (ih hpending.2 fun x hx => hwords x ((takePositional_suffix htaken).subset hx))
      rw [hg.positional rule hpending.1, hset]
      rfl

end

/-! ## A flag put in -/

theorem Accepts.of_option_cons {pending : List (PositionalRule σ)} {s a : σ} {w name : Text} {rule : OptionRule σ}
    {inline : Option Text} {rest : List (Word σ)} (h : g.Accepts pending s (.option w rule name inline :: rest) a) :
    ∃ u carried taken t, g.unfold rule name inline = .ok u ∧ u.carried? rest.head? = some (carried, taken) ∧
      carried.foldlM g.effect s = .ok t ∧ g.Accepts pending t (if taken then rest.drop 1 else rest) a := by
  cases h with
  | option hunfold hcarried heffect hrest => exact ⟨_, _, _, _, hunfold, hcarried, heffect, hrest⟩
  | positional htaken => exact nomatch htaken

/-- The flag is carried out, and nothing more. -/
theorem Accepts.of_flag_cons {change : σ → σ} {rule : OptionRule σ} (hflag : rule.effect = .flag change) {w name : Text}
    {pending : List (PositionalRule σ)} {s b : σ} {rest : List (Word σ)}
    (h : g.Accepts pending s (.option w rule name none :: rest) b) : g.Accepts pending (change s) rest b := by
  have htakes := OptionRule.takesValue_of_flag hflag
  obtain ⟨u, carried, taken, t, hunfold, hcarried, heffect, hrest⟩ := h.of_option_cons
  obtain rfl := Except.ok.inj hunfold
  simp only [Unfolded.carried?, htakes, Bool.false_eq_true, if_false, List.nil_append] at hcarried
  obtain ⟨rfl, rfl⟩ := Prod.mk.inj (Option.some.inj hcarried)
  simp only [List.foldlM_cons, List.foldlM_nil, effect, hflag] at heffect
  obtain rfl := Except.ok.inj heffect
  exact hrest

/-- An option that has another option behind it does not look at it. -/
theorem Unfolded.carried?_of_option {u : Unfolded σ} {w name : Text} {rule : OptionRule σ} {inline : Option Text}
    {carried : List (OptionRule σ × Text)} {taken : Bool}
    (h : u.carried? (some (.option w rule name inline)) = some (carried, taken)) (next : Option (Word σ)) :
    u.carried? next = some (carried, false) := by
  unfold carried?
  obtain ⟨hlast, rfl, -⟩ | ⟨_, _, -, -, hnext, -⟩ | ⟨last, hlast, htakes, rfl, -⟩ := carried?_cases h
  · rw [hlast]
  · exact nomatch hnext
  · rw [hlast]
    exact if_neg (Bool.eq_false_iff.mp htakes)

/-- The settings that are reached with a flag and without it. They differ by its change, unless the last of several
positional arguments is the word of the separator with it, and missing without it. -/
inductive DifferBy (change : σ → σ) (pending : List (PositionalRule σ)) (a b : σ) : Prop
  | change (h : b = change a)
  | last {rule : PositionalRule σ} {s : σ} (hrule : rule ∈ pending.tail) (without : rule.set [] s = .ok a)
      (withFlag : rule.set [separatorWord] (change s) = .ok b)

theorem DifferBy.cons {change : σ → σ} {rule : PositionalRule σ} {pending : List (PositionalRule σ)} {a b : σ}
    (h : DifferBy change pending a b) : DifferBy change (rule :: pending) a b := by
  cases h with
  | change h => exact .change h
  | last hrule without withFlag => exact .last (List.mem_of_mem_tail hrule) without withFlag

/-- The one word that the one positional argument takes. -/
theorem Accepts.single {rule : PositionalRule σ} {s a : σ} {written : List Text}
    (h : g.Accepts [rule] s (written.map .plain) a) :
    ∃ v, written = [v] ∧ rule.set ([v].erase separatorWord) s = .ok a := by
  cases written with
  | nil =>
      cases h with
      | positional htaken => exact nomatch htaken
  | cons v written =>
      cases h with
      | positional htaken hset hrest =>
          cases written with
          | nil =>
              obtain ⟨rfl, rfl⟩ := Prod.mk.inj (Option.some.inj htaken)
              cases hrest
              exact ⟨v, rfl, hset⟩
          | cons other written =>
              obtain ⟨rfl, rfl⟩ := Prod.mk.inj (Option.some.inj htaken)
              exact nomatch hrest

/-- A separator before the word is taken with it. -/
theorem Accepts.separator_single {rule : PositionalRule σ} {s a : σ} {v : Text}
    (h : g.Accepts [rule] s [.separator, .plain v] a) : rule.set [v] s = .ok a := by
  cases h with
  | positional htaken hset hrest =>
      obtain ⟨rfl, rfl⟩ := Prod.mk.inj (Option.some.inj htaken)
      cases hrest
      exact hset

/-- An option that does not stand last looks no further than the word behind it. -/
theorem Accepts.option_alike {pending : List (PositionalRule σ)} {s a b : σ} {v optionName : Text}
    {rule : OptionRule σ} {inline : Option Text} {next : Word σ} {rest rest' : List (Word σ)}
    (h : g.Accepts pending s (.option v rule optionName inline :: next :: rest) a)
    (h' : g.Accepts pending s (.option v rule optionName inline :: next :: rest') b) :
    ∃ t, ∃ taken : Bool, g.Accepts pending t (if taken then rest else next :: rest) a ∧
      g.Accepts pending t (if taken then rest' else next :: rest') b := by
  obtain ⟨u, carried, taken, t, hunfold, hcarried, heffect, hrest⟩ := h.of_option_cons
  obtain ⟨u', carried', taken', t', hunfold', hcarried', heffect', hrest'⟩ := h'.of_option_cons
  obtain rfl := Except.ok.inj (hunfold.symm.trans hunfold')
  obtain ⟨rfl, rfl⟩ := Prod.mk.inj (Option.some.inj (hcarried.symm.trans hcarried'))
  obtain rfl := Except.ok.inj (heffect.symm.trans heffect')
  exact ⟨t, taken, hrest, hrest'⟩

/-- A word with no separator behind it is all that its positional argument takes. -/
theorem Accepts.plain_alike {rule : PositionalRule σ} {pending : List (PositionalRule σ)} {s a b : σ} {v : Text}
    (hv : v ≠ separatorWord) {next : Word σ} (hnext : next ≠ .separator) {rest rest' : List (Word σ)}
    (h : g.Accepts (rule :: pending) s (.plain v :: next :: rest) a)
    (h' : g.Accepts (rule :: pending) s (.plain v :: next :: rest') b) :
    ∃ t, g.Accepts pending t (next :: rest) a ∧ g.Accepts pending t (next :: rest') b := by
  have hother : ∀ after behind : List (Word σ), next :: after ≠ .separator :: behind :=
    fun _ _ heq => hnext (List.cons.inj heq).1
  cases h with
  | positional htaken hset hrest =>
  cases h' with
  | positional htaken' hset' hrest' =>
  obtain ⟨hword, rfl⟩ := takePositional_plain_other hv (hother _) htaken
  obtain ⟨hword', rfl⟩ := takePositional_plain_other hv (hother _) htaken'
  rw [hword] at hset
  rw [hword', hset] at hset'
  obtain rfl := Except.ok.inj hset'
  exact ⟨_, hrest, hrest'⟩

section

variable {change : σ → σ} (hg : g.Indifferent change) {flag : OptionRule σ} (hflag : flag.effect = .flag change)
  {w name : Text} {pending : List (PositionalRule σ)} (hpending : pending ⊆ g.positionals) {s a b : σ}

include hg hflag hpending

theorem Accepts.flag_cons {words : List (Word σ)} (hwords : ∀ word ∈ words, g.Knows word)
    (h : g.Accepts pending s words a) (h' : g.Accepts pending s (.option w flag name none :: words) b) : b = change a :=
  (h'.of_flag_cons hflag).unique (h.changed hg hpending hwords)

/-- The flag stands directly before the separator, which the positional argument before it takes if it does not. -/
theorem Accepts.flag_separator (hlength : pending.length ≤ 1) {written : List Text}
    (h : g.Accepts pending s (written.map .plain) a)
    (h' : g.Accepts pending s (.option w flag name none :: .separator :: written.map .plain) b) :
    b = change a ∨ ∃ rule ∈ pending, rule.set [] s = .ok a ∧ rule.set [separatorWord] (change s) = .ok b := by
  have hrest := h'.of_flag_cons hflag
  match pending, hlength with
  | [], _ => exact nomatch hrest
  | [rule], _ =>
      obtain ⟨v, rfl, hset⟩ := h.single
      have hset' := hrest.separator_single
      by_cases hv : v = separatorWord
      · rw [hv, List.erase_cons_head] at hset
        exact .inr ⟨rule, List.mem_singleton_self rule, hset, hv ▸ hset'⟩
      · rw [List.erase_of_not_mem fun h => hv (List.mem_singleton.mp h).symm] at hset
        rw [hg.positional rule (hpending List.mem_cons_self), hset] at hset'
        exact .inl (Except.ok.inj hset').symm

/-- The flag is put in behind the last word that was taken before it. -/
theorem Accepts.flag_after_plain {rule : PositionalRule σ} (hlength : pending.length ≤ 1) {v : Text}
    (hv : v ≠ separatorWord) {words : List (Word σ)} (hwords : ∀ word ∈ words, g.Knows word)
    (hplain : ∀ rest, words = .separator :: rest → ∃ written : List Text, rest = written.map .plain)
    (h : g.Accepts (rule :: pending) s (.plain v :: words) a)
    (h' : g.Accepts (rule :: pending) s (.plain v :: .option w flag name none :: words) b) :
    DifferBy change (rule :: pending) a b := by
  cases h' with
  | positional htaken' hset' hrest' =>
      obtain ⟨hword', rfl⟩ := takePositional_plain_other hv (by rintro _ ⟨⟩) htaken'
      rw [hword'] at hset'
      cases h with
      | positional htaken hset hrest =>
          by_cases hhead : ∃ rest, words = .separator :: rest
          · obtain ⟨rest, rfl⟩ := hhead
            obtain ⟨written, rfl⟩ := hplain rest rfl
            obtain ⟨hword, rfl⟩ := takePositional_plain_separator hv htaken
            rw [hword, hset'] at hset
            obtain rfl := Except.ok.inj hset
            rcases hrest.flag_separator hg hflag hpending hlength hrest' with h | ⟨last, hlast, ha, hb⟩
            · exact .change h
            · exact .last hlast ha hb
          · obtain ⟨hword, rfl⟩ := takePositional_plain_other hv (fun rest h => hhead ⟨rest, h⟩) htaken
            rw [hword, hset'] at hset
            obtain rfl := Except.ok.inj hset
            exact .change (hrest.flag_cons hg hflag hpending hwords hrest')

/-- The flag is put in behind an option that would look for its value there. -/
theorem Accepts.flag_after_option {v optionName : Text} {rule : OptionRule σ} {inline : Option Text}
    {words : List (Word σ)} (hwords : ∀ word ∈ words, g.Knows word)
    (h : g.Accepts pending s (.option v rule optionName inline :: words) a)
    (h' : g.Accepts pending s (.option v rule optionName inline :: .option w flag name none :: words) b) :
    b = change a := by
  obtain ⟨u, carried, taken, t, hunfold, hcarried, heffect, hrest⟩ := h.of_option_cons
  obtain ⟨u', carried', taken', t', hunfold', hcarried', heffect', hrest'⟩ := h'.of_option_cons
  obtain rfl := Except.ok.inj (hunfold.symm.trans hunfold')
  have hlast := Unfolded.carried?_of_option hcarried'
  obtain ⟨-, rfl⟩ := Prod.mk.inj (Option.some.inj (hcarried'.symm.trans (hlast _)))
  obtain ⟨rfl, rfl⟩ := Prod.mk.inj (Option.some.inj (hcarried.symm.trans (hlast _)))
  obtain rfl := Except.ok.inj (heffect.symm.trans heffect')
  exact hrest.flag_cons hg hflag hpending hwords hrest'

/-- A flag put in among words that are accepted. -/
theorem Accepts.differBy {front words : List (Word σ)} (hlength : pending.length ≤ 2)
    (hfront : ∀ word ∈ front, word.written ≠ separatorWord) (hwords : ∀ word ∈ front ++ words, g.Knows word)
    (hplain : ∀ rest, words = .separator :: rest → ∃ written : List Text, rest = written.map .plain)
    (h : g.Accepts pending s (front ++ words) a)
    (h' : g.Accepts pending s (front ++ .option w flag name none :: words) b) : DifferBy change pending a b := by
  -- The induction is on the words before the flag; an option may take one of them with it.
  induction hn : front.length using Nat.strongRecOn generalizing front pending s with
  | ind n ih =>
  cases front with
  | nil => exact .change (h.flag_cons hg hflag hpending hwords h')
  | cons word front =>
      rw [List.forall_mem_cons] at hfront
      rw [List.cons_append, List.forall_mem_cons] at hwords
      rw [List.cons_append] at h h'
      cases word with
      | unknown v =>
          cases h with
          | positional htaken => exact nomatch htaken
      | separator => exact absurd rfl hfront.1
      | option v rule optionName inline =>
          cases front with
          | nil => exact .change (h.flag_after_option hg hflag hpending hwords.2 h')
          | cons next front =>
              obtain ⟨t, taken, hrest, hrest'⟩ := h.option_alike h'
              cases taken with
              | false => exact ih _ (hn ▸ Nat.lt_succ_self _) hpending hlength hfront.2 hwords.2 hrest hrest' rfl
              | true =>
                  rw [List.cons_append, List.forall_mem_cons] at hwords
                  have hshort : front.length < n := by
                    rw [← hn, List.length_cons, List.length_cons]
                    omega
                  exact ih _ hshort hpending hlength (List.forall_mem_cons.mp hfront.2).2 hwords.2.2 hrest hrest' rfl
      | plain v =>
          cases pending with
          | nil => exact nomatch h
          | cons rule pending =>
          have hleft : pending ⊆ g.positionals := (List.cons_subset.mp hpending).2
          rw [List.length_cons] at hlength
          cases front with
          | nil => exact h.flag_after_plain hg hflag hleft (Nat.le_of_succ_le_succ hlength) hfront.1 hwords.2 hplain h'
          | cons next front =>
              have hnext : next ≠ .separator := fun heq => hfront.2 _ List.mem_cons_self (heq ▸ rfl)
              obtain ⟨t, hrest, hrest'⟩ := h.plain_alike hfront.1 hnext h'
              have hdiffer := ih _ (hn ▸ Nat.lt_succ_self _) hleft (Nat.le_of_succ_le hlength) hfront.2 hwords.2 hrest
                hrest' rfl
              exact hdiffer.cons

end

/-! ## Arguments as they are written -/

theorem readWords_append {front back : List Text} (hfront : separatorWord ∉ front)
    {frontWords backWords : List (Word σ)} (h : g.readWords front = .ok frontWords)
    (hback : g.readWords back = .ok backWords) :
    g.readWords (front ++ back) = .ok (frontWords ++ backWords) := by
  induction front generalizing frontWords with
  | nil =>
      obtain rfl := Except.ok.inj h
      exact hback
  | cons w front ih =>
      rw [List.mem_cons, not_or] at hfront
      rcases readWords_cons_eq_ok h with ⟨rfl, -⟩ | ⟨hw, word, after, hword, hafter, rfl⟩
      · exact absurd rfl hfront.1
      · exact readWords_cons hw hword (ih hfront.2 hafter)

theorem exists_readWords_of_append {front back : List Text} (hfront : separatorWord ∉ front) {words : List (Word σ)}
    (h : g.readWords (front ++ back) = .ok words) :
    ∃ frontWords backWords, g.readWords front = .ok frontWords ∧ g.readWords back = .ok backWords ∧
      words = frontWords ++ backWords := by
  induction front generalizing words with
  | nil => exact ⟨[], words, rfl, h, rfl⟩
  | cons w front ih =>
      rw [List.mem_cons, not_or] at hfront
      rcases readWords_cons_eq_ok h with ⟨rfl, -⟩ | ⟨hw, word, after, hword, hafter, rfl⟩
      · exact absurd rfl hfront.1
      · obtain ⟨frontWords, backWords, hfrontWords, hbackWords, rfl⟩ := ih hfront.2 hafter
        exact ⟨word :: frontWords, backWords, readWords_cons hw hword hfrontWords, hbackWords, rfl⟩

/-- Behind a separator that comes first, all words stand for themselves. -/
theorem plain_of_readWords {arguments : List Text} {rest : List (Word σ)}
    (h : g.readWords arguments = .ok (.separator :: rest)) : ∃ written : List Text, rest = written.map .plain := by
  cases arguments with
  | nil => exact nomatch Except.ok.inj h
  | cons w arguments =>
      rcases readWords_cons_eq_ok h with ⟨-, heq⟩ | ⟨hw, word, after, hword, -, heq⟩
      · exact ⟨arguments, (List.cons.inj heq).2⟩
      · obtain ⟨rfl, -⟩ := List.cons.inj heq
        exact absurd (written_of_readWord hword).symm hw

theorem accepts_of_read (hword : ∀ rule ∈ g.positionals, rule.takesRest = false) {s a : σ} {arguments : List Text}
    (h : g.read s arguments = .ok (a, [])) :
    ∃ words, g.readWords arguments = .ok words ∧ g.Accepts g.positionals s words a := by
  unfold read at h
  split at h
  · contradiction
  rename_i words hwords
  split at h
  · contradiction
  rename_i pending st hall
  dsimp only at h
  split at h
  · rename_i hmissing
    obtain ⟨rfl, hextras⟩ := Prod.mk.inj (Except.ok.inj h)
    rw [List.isEmpty_iff, List.append_eq_nil_iff, List.map_eq_nil_iff] at hmissing
    obtain ⟨rfl, -⟩ := hmissing
    exact ⟨words, hwords, accepts_of_readAll hword (Nat.le_refl _) hall hextras⟩
  · contradiction

/-- A flag that no rule minds, among other arguments. -/
theorem read_flag_inserted {change : σ → σ} (hg : g.Indifferent change) (o : g.Given)
    (hflag : o.rule.effect = .flag change) (hword : ∀ rule ∈ g.positionals, rule.takesRest = false)
    (hlength : g.positionals.length ≤ 2) {s a b : σ} {front back : List Text} (hfront : separatorWord ∉ front)
    (h : g.read s (front ++ back) = .ok (a, []))
    (h' : g.read s (front ++ o.name :: back) = .ok (b, [])) : DifferBy change g.positionals a b := by
  obtain ⟨words, hwords, haccepts⟩ := accepts_of_read hword h
  obtain ⟨words', hwords', haccepts'⟩ := accepts_of_read hword h'
  obtain ⟨frontWords, backWords, hfrontWords, hbackWords, rfl⟩ := exists_readWords_of_append hfront hwords
  have hinserted := readWords_append hfront hfrontWords (readWords_cons o.name_ne o.readWord_name hbackWords)
  obtain rfl := Except.ok.inj (hinserted.symm.trans hwords')
  refine Accepts.differBy hg hflag (List.Subset.refl _) hlength (fun word hmem heq => hfront ?_)
    (knows_of_readWords hwords) (fun rest hrest => plain_of_readWords (hrest ▸ hbackWords)) haccepts haccepts'
  rw [← map_written_of_readWords hfrontWords, ← heq]
  exact List.mem_map_of_mem hmem

end Grammar

end Accessibility.CommandLine
