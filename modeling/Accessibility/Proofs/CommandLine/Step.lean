import Accessibility.Proofs.CommandLine.Accepted

/-! # The steps of reading

Reading goes in steps: an option is carried out, positional arguments are taken, or words are put aside. Which options a
word comes to, and whether it takes the next one, does not depend on the settings. -/

namespace Accessibility.CommandLine

variable {σ : Type} {g : Grammar σ}

/-! ## Rules of a grammar -/

namespace Grammar

/-- The options of a word are among those of the grammar. -/
def Knows (g : Grammar σ) : Word σ → Prop
  | .option _ rule _ _ => rule ∈ g.options
  | _ => True

theorem mem_options_of_mem_named {named : Text × OptionRule σ} (h : named ∈ g.named) : named.2 ∈ g.options := by
  obtain ⟨rule, hrule, hnamed⟩ := List.mem_flatMap.mp h
  obtain ⟨name, -, rfl⟩ := List.mem_map.mp hnamed
  exact hrule

theorem mem_options_of_find? {name : Text} {rule : OptionRule σ} (h : g.find? name = some rule) :
    rule ∈ g.options := by
  obtain ⟨named, hnamed, rfl⟩ := Option.map_eq_some_iff.mp h
  exact mem_options_of_mem_named (List.mem_of_find?_eq_some hnamed)

theorem knows_of_mem_candidates {w : Text} {word : Word σ} (h : word ∈ g.candidates w) : g.Knows word := by
  unfold candidates at h
  split at h
  · obtain ⟨named, hnamed, rfl⟩ := List.mem_map.mp h
    exact mem_options_of_mem_named (List.mem_filter.mp hnamed).1
  · obtain ⟨named, hnamed, hword⟩ := List.mem_filterMap.mp h
    dsimp only at hword
    split at hword
    · obtain rfl := Option.some.inj hword
      exact mem_options_of_mem_named hnamed
    · split at hword
      · obtain rfl := Option.some.inj hword
        exact mem_options_of_mem_named hnamed
      · contradiction

theorem knows_of_readWord {w : Text} {word : Word σ} (h : g.readWord w = .ok word) : g.Knows word := by
  unfold readWord at h
  split at h
  · obtain rfl := Except.ok.inj h
    trivial
  · split at h
    · rename_i rule hrule
      obtain rfl := Except.ok.inj h
      exact mem_options_of_find? hrule
    · split at h
      · obtain rfl := Except.ok.inj h
        trivial
      · dsimp only at h
        split at h
        · rename_i hrule
          obtain rfl := Except.ok.inj h
          exact mem_options_of_find? hrule
        · split at h
          · rename_i hone
            obtain rfl := Except.ok.inj h
            exact knows_of_mem_candidates (hone ▸ List.mem_cons_self)
          · obtain rfl := Except.ok.inj h
            split <;> trivial
          · contradiction

theorem knows_of_readWords {arguments : List Text} {words : List (Word σ)} (h : g.readWords arguments = .ok words) :
    ∀ word ∈ words, g.Knows word := by
  induction arguments generalizing words with
  | nil =>
      obtain rfl := Except.ok.inj h
      exact List.forall_mem_nil _
  | cons w rest ih =>
      rcases readWords_cons_eq_ok h with ⟨-, rfl⟩ | ⟨-, word, after, hword, hafter, rfl⟩
      · rintro word (_ | ⟨_, hword⟩)
        · trivial
        · obtain ⟨written, -, rfl⟩ := List.mem_map.mp hword
          trivial
      · exact List.forall_mem_cons.mpr ⟨knows_of_readWord hword, ih hafter⟩

/-! ## Options that are carried out -/

namespace Unfolded

/-- The options of a word that are carried out, given the next word, and whether they take it; none if they need an
argument that is not there. -/
def carried? (u : Unfolded σ) (next : Option (Word σ)) : Option (List (OptionRule σ × Text) × Bool) :=
  match u.last with
  | none => some (u.settled, false)
  | some rule =>
    if rule.takesValue then
      match next with
      | some (.plain argument) => some (u.settled ++ [(rule, argument)], true)
      | _ => none
    else some (u.settled ++ [(rule, [])], false)

/-- The last option has no argument to take, takes the plain word that is next, or is a flag. -/
theorem carried?_cases {u : Unfolded σ} {next : Option (Word σ)} {carried : List (OptionRule σ × Text)} {taken : Bool}
    (h : u.carried? next = some (carried, taken)) :
    (u.last = none ∧ carried = u.settled ∧ taken = false) ∨
    (∃ rule argument, u.last = some rule ∧ rule.takesValue = true ∧ next = some (.plain argument) ∧
      carried = u.settled ++ [(rule, argument)] ∧ taken = true) ∨
    ∃ rule, u.last = some rule ∧ rule.takesValue = false ∧ carried = u.settled ++ [(rule, [])] ∧ taken = false := by
  obtain ⟨settled, last⟩ := u
  cases last with
  | none =>
      obtain ⟨rfl, rfl⟩ := Prod.mk.inj (Option.some.inj h)
      exact .inl ⟨rfl, rfl, rfl⟩
  | some rule =>
      unfold carried? at h
      dsimp only at h
      split at h
      · rename_i htakes
        split at h
        · rename_i argument
          obtain ⟨rfl, rfl⟩ := Prod.mk.inj (Option.some.inj h)
          exact .inr (.inl ⟨rule, argument, rfl, htakes, rfl, rfl, rfl⟩)
        · contradiction
      · rename_i htakes
        obtain ⟨rfl, rfl⟩ := Prod.mk.inj (Option.some.inj h)
        exact .inr (.inr ⟨rule, rfl, Bool.eq_false_iff.mpr htakes, rfl, rfl⟩)

/-- All options of the word are among those of a grammar. -/
structure IsOf (u : Unfolded σ) (g : Grammar σ) : Prop where
  settled : ∀ carried ∈ u.settled, carried.1 ∈ g.options
  last : ∀ rule ∈ u.last, rule ∈ g.options

theorem IsOf.carried {u : Unfolded σ} (h : u.IsOf g) {next : Option (Word σ)} {carried : List (OptionRule σ × Text)}
    {taken : Bool} (hcarried : u.carried? next = some (carried, taken)) : ∀ c ∈ carried, c.1 ∈ g.options := by
  have hlast : ∀ rule argument, u.last = some rule → ∀ c ∈ u.settled ++ [(rule, argument)], c.1 ∈ g.options :=
    fun rule argument hrule =>
      List.forall_mem_append.mpr ⟨h.settled, List.forall_mem_singleton.mpr (h.last rule hrule)⟩
  obtain ⟨-, rfl, -⟩ | ⟨rule, argument, hrule, -, -, rfl, -⟩ | ⟨rule, hrule, -, rfl, -⟩ := carried?_cases hcarried
  · exact h.settled
  · exact hlast rule argument hrule
  · exact hlast rule [] hrule

end Unfolded

theorem isOf_of_unfoldJoined {rule : OptionRule σ} {joined : Text} {u : Unfolded σ} (hrule : rule ∈ g.options)
    (h : g.unfoldJoined rule joined = .ok u) : u.IsOf g := by
  induction joined generalizing rule u with
  | nil =>
      obtain rfl := Except.ok.inj h
      exact ⟨List.forall_mem_nil _, fun _ h => Option.some.inj h ▸ hrule⟩
  | cons c rest ih =>
      rw [unfoldJoined] at h
      split at h
      · obtain rfl := Except.ok.inj h
        exact ⟨List.forall_mem_singleton.mpr hrule, fun _ h => nomatch h⟩
      · split at h
        · contradiction
        · rename_i next hnext
          cases hrest : g.unfoldJoined next rest with
          | error complaint =>
              rw [hrest] at h
              contradiction
          | ok after =>
              rw [hrest] at h
              obtain rfl := Except.ok.inj h
              have hafter := ih (mem_options_of_find? hnext) hrest
              exact ⟨List.forall_mem_cons.mpr ⟨hrule, hafter.settled⟩, hafter.last⟩

theorem isOf_of_unfold {rule : OptionRule σ} {name : Text} {inline : Option Text} {u : Unfolded σ}
    (hrule : rule ∈ g.options) (h : g.unfold rule name inline = .ok u) : u.IsOf g := by
  unfold unfold at h
  split at h
  · obtain rfl := Except.ok.inj h
    exact ⟨List.forall_mem_nil _, fun _ h => Option.some.inj h ▸ hrule⟩
  · split at h
    · obtain rfl := Except.ok.inj h
      exact ⟨List.forall_mem_singleton.mpr hrule, fun _ h => nomatch h⟩
    · split at h
      · contradiction
      · exact isOf_of_unfoldJoined hrule h

/-! ## Settings -/

/-- What an option does to the settings. -/
def effect (g : Grammar σ) (s : σ) : OptionRule σ × Text → Except Refusal σ
  | (rule, argument) =>
    match rule.effect with
    | .help => .error .help
    | .flag set => .ok (set s)
    | .value set => (set (value? argument) s).mapError (.usage g.program)

theorem apply_eq_effect (st : State σ) (c : OptionRule σ × Text) :
    g.apply st c = (g.effect st.settings c).map fun settings =>
      { st with settings, seen := c.1.title :: st.seen } := by
  obtain ⟨rule, argument⟩ := c
  simp only [apply, effect]
  cases rule.effect with
  | help => rfl
  | flag set => rfl
  | value set =>
      dsimp only
      cases set (value? argument) st.settings <;> rfl

theorem foldlM_apply (st : State σ) (carried : List (OptionRule σ × Text)) :
    carried.foldlM g.apply st = (carried.foldlM g.effect st.settings).map fun settings =>
      { st with settings, seen := (carried.map fun c => c.1.title).reverse ++ st.seen } := by
  induction carried generalizing st with
  | nil => rfl
  | cons c carried ih =>
      rw [List.foldlM_cons, List.foldlM_cons, apply_eq_effect]
      cases g.effect st.settings c with
      | error refusal => rfl
      | ok settings =>
          simp only [Except.map, bind, Except.bind, ih, List.map_cons, List.reverse_cons, List.append_assoc,
            List.singleton_append]

theorem applyUnfolded_of_carried {u : Unfolded σ} {next : Option (Word σ)} {carried : List (OptionRule σ × Text)}
    {taken : Bool} (h : u.carried? next = some (carried, taken)) (st : State σ) :
    g.applyUnfolded st u next = (carried.foldlM g.apply st).map (·, taken) := by
  unfold applyUnfolded
  obtain ⟨hlast, rfl, rfl⟩ | ⟨rule, argument, hlast, htakes, rfl, rfl, rfl⟩ | ⟨rule, hlast, htakes, rfl, rfl⟩ :=
    Unfolded.carried?_cases h
  · rw [hlast]
    cases u.settled.foldlM g.apply st <;> rfl
  · rw [hlast]
    dsimp only
    rw [if_pos htakes]
    cases (u.settled ++ [(rule, argument)]).foldlM g.apply st <;> rfl
  · rw [hlast]
    dsimp only
    rw [if_neg (Bool.eq_false_iff.mp htakes)]
    cases (u.settled ++ [(rule, [])]).foldlM g.apply st <;> rfl

theorem carried_of_applyUnfolded {u : Unfolded σ} {next : Option (Word σ)} {st st' : State σ} {taken : Bool}
    (h : g.applyUnfolded st u next = .ok (st', taken)) :
    ∃ carried, u.carried? next = some (carried, taken) ∧ carried.foldlM g.apply st = .ok st' := by
  cases hcarried : u.carried? next with
  | some found =>
      obtain ⟨carried, found⟩ := found
      rw [applyUnfolded_of_carried hcarried] at h
      cases happly : carried.foldlM g.apply st with
      | error refusal =>
          rw [happly] at h
          contradiction
      | ok t =>
          rw [happly] at h
          obtain ⟨rfl, rfl⟩ := Prod.mk.inj (Except.ok.inj h)
          exact ⟨carried, rfl, happly⟩
  | none =>
      obtain ⟨settled, last⟩ := u
      cases last with
      | none => contradiction
      | some rule =>
          unfold Unfolded.carried? at hcarried
          unfold applyUnfolded at h
          dsimp only at h hcarried
          by_cases htakes : rule.takesValue = true
          · rw [if_pos htakes] at h hcarried
            split at hcarried
            · contradiction
            · rename_i hplain
              split at h
              · exact absurd rfl (hplain _)
              · contradiction
          · rw [if_neg htakes] at hcarried
            contradiction

/-! ## Words that are taken -/

theorem takePositional_suffix {takesRest : Bool} {words taken rest : List (Word σ)}
    (h : takePositional takesRest words = some (taken, rest)) : rest <:+ words := by
  unfold takePositional at h
  split at h
  · rename_i w after hdrop
    have hafter : after <:+ words := (List.suffix_cons _ _).trans (hdrop ▸ List.dropWhile_suffix _)
    split at h
    · obtain ⟨-, rfl⟩ := Prod.mk.inj (Option.some.inj h)
      exact List.nil_suffix
    · obtain ⟨-, rfl⟩ := Prod.mk.inj (Option.some.inj h)
      exact (List.dropWhile_suffix _).trans hafter
  · contradiction

/-- What taking arguments leaves: the last arguments, the last words, and all words that nothing took. -/
theorem takePositionals_leaves {pending left : List (PositionalRule σ)} {words rest : List (Word σ)} {st t : State σ}
    (h : takePositionals pending st words = .ok (left, t, rest)) :
    left <:+ pending ∧ rest <:+ words ∧ t.extras = st.extras := by
  induction pending generalizing st words with
  | nil =>
      obtain ⟨rfl, hrest⟩ := Prod.mk.inj (Except.ok.inj h)
      obtain ⟨rfl, rfl⟩ := Prod.mk.inj hrest
      exact ⟨List.suffix_refl _, List.suffix_refl _, rfl⟩
  | cons rule pending ih =>
      rw [takePositionals] at h
      split at h
      · obtain ⟨rfl, hrest⟩ := Prod.mk.inj (Except.ok.inj h)
        obtain ⟨rfl, rfl⟩ := Prod.mk.inj hrest
        exact ⟨List.suffix_refl _, List.suffix_refl _, rfl⟩
      · rename_i taken after htaken
        dsimp only at h
        split at h
        · contradiction
        · obtain ⟨hleft, hrest, hextras⟩ := ih h
          exact ⟨hleft.trans (List.suffix_cons _ _), hrest.trans (takePositional_suffix htaken), hextras⟩

/-! ## Steps -/

/-- What one step of reading does to the positional arguments that are left, to the state and to the words. -/
inductive Step (g : Grammar σ) : List (PositionalRule σ) → State σ → List (Word σ) →
    List (PositionalRule σ) → State σ → List (Word σ) → Prop
  | unknown {pending : List (PositionalRule σ)} {st : State σ} (w : Text) {rest : List (Word σ)} :
      g.Step pending st (.unknown w :: rest) pending { st with extras := st.extras ++ [w] } rest
  | option {pending : List (PositionalRule σ)} {st s : State σ} (w : Text) {rule : OptionRule σ} {name : Text}
      {inline : Option Text} {rest : List (Word σ)} {u : Unfolded σ} {carried : List (OptionRule σ × Text)}
      {taken : Bool} (hunfold : g.unfold rule name inline = .ok u)
      (hcarried : u.carried? rest.head? = some (carried, taken))
      (happly : carried.foldlM g.apply st = .ok s) :
      g.Step pending st (.option w rule name inline :: rest) pending s (if taken then rest.drop 1 else rest)
  | positional {pending left : List (PositionalRule σ)} {st s : State σ} {word : Word σ} {rest after : List (Word σ)}
      (hword : word.isOption = false) (htake : takePositionals pending st (word :: rest) = .ok (left, s, after))
      (hshort : after.length < (word :: rest).length) : g.Step pending st (word :: rest) left s after
  | leftOver {pending left : List (PositionalRule σ)} {st s : State σ} {word : Word σ} {rest after : List (Word σ)}
      (hword : word.isOption = false) (htake : takePositionals pending st (word :: rest) = .ok (left, s, after))
      (hshort : ¬after.length < (word :: rest).length) :
      g.Step pending st (word :: rest) left
        { s with extras := s.extras ++ ((word :: rest).takeWhile (!·.isOption)).map Word.written }
        ((word :: rest).dropWhile (!·.isOption))

theorem settings_of_foldlM_apply {carried : List (OptionRule σ × Text)} {st s : State σ}
    (h : carried.foldlM g.apply st = .ok s) :
    carried.foldlM g.effect st.settings = .ok s.settings ∧ s.extras = st.extras := by
  rw [foldlM_apply] at h
  cases hsettings : carried.foldlM g.effect st.settings with
  | error refusal =>
      rw [hsettings] at h
      contradiction
  | ok settings =>
      rw [hsettings] at h
      obtain rfl := Except.ok.inj h
      exact ⟨rfl, rfl⟩

theorem readAll_option_word (fuel : Nat) (pending : List (PositionalRule σ)) (st : State σ) (w : Text)
    (rule : OptionRule σ) (name : Text) (inline : Option Text) (rest : List (Word σ)) :
    g.readAll (fuel + 1) pending st (.option w rule name inline :: rest) =
      match g.unfold rule name inline with
      | .error complaint => .error (.usage g.program complaint)
      | .ok u =>
        match g.applyUnfolded st u rest.head? with
        | .error refusal => .error refusal
        | .ok (st, taken) => g.readAll fuel pending st (if taken then rest.drop 1 else rest) := rfl

theorem readAll_positional_word {word : Word σ} (h : word.isOption = false) (fuel : Nat)
    (pending : List (PositionalRule σ)) (st : State σ) (rest : List (Word σ)) :
    g.readAll (fuel + 1) pending st (word :: rest) =
      match takePositionals pending st (word :: rest) with
      | .error refusal => .error refusal
      | .ok (pending, st, after) =>
        if after.length < (word :: rest).length then g.readAll fuel pending st after
        else
          g.readAll fuel pending
            { st with extras := st.extras ++ ((word :: rest).takeWhile (!·.isOption)).map Word.written }
            ((word :: rest).dropWhile (!·.isOption)) := by
  cases word with
  | plain w => rfl
  | separator => rfl
  | unknown w => contradiction
  | option w rule name inline => contradiction

theorem Step.readAll_succ {pending left : List (PositionalRule σ)} {st s : State σ} {words after : List (Word σ)}
    (h : g.Step pending st words left s after) (fuel : Nat) :
    g.readAll (fuel + 1) pending st words = g.readAll fuel left s after := by
  cases h with
  | unknown w => rfl
  | option w hunfold hcarried happly =>
      simp only [readAll_option_word, hunfold, applyUnfolded_of_carried hcarried, happly]
      rfl
  | positional hword htake hshort =>
      rw [readAll_positional_word hword]
      simp only [htake]
      exact if_pos hshort
  | leftOver hword htake hshort =>
      rw [readAll_positional_word hword]
      simp only [htake]
      exact if_neg hshort

/-- A reading that goes well takes a step. -/
theorem exists_step_of_readAll {fuel : Nat} {pending left : List (PositionalRule σ)} {st t : State σ} {word : Word σ}
    {rest : List (Word σ)} (h : g.readAll (fuel + 1) pending st (word :: rest) = .ok (left, t)) :
    ∃ next s after, g.Step pending st (word :: rest) next s after ∧ g.readAll fuel next s after = .ok (left, t) := by
  have hpositional : word.isOption = false →
      ∃ next s after, g.Step pending st (word :: rest) next s after ∧ g.readAll fuel next s after = .ok (left, t) := by
    intro hword
    rw [readAll_positional_word hword] at h
    split at h
    · contradiction
    · rename_i htake
      split at h
      · exact ⟨_, _, _, .positional hword htake ‹_›, h⟩
      · exact ⟨_, _, _, .leftOver hword htake ‹_›, h⟩
  cases word with
  | unknown w => exact ⟨_, _, _, .unknown w, h⟩
  | plain w => exact hpositional rfl
  | separator => exact hpositional rfl
  | option w rule name inline =>
      rw [readAll_option_word] at h
      split at h
      · contradiction
      · rename_i hunfold
        split at h
        · contradiction
        · rename_i happly
          obtain ⟨carried, hcarried, heffect⟩ := carried_of_applyUnfolded happly
          exact ⟨_, _, _, .option w hunfold hcarried heffect, h⟩

theorem length_dropWhile_not_isOption_lt {word : Word σ} (hword : word.isOption = false) (rest : List (Word σ)) :
    ((word :: rest).dropWhile (!·.isOption)).length < (word :: rest).length := by
  rw [List.dropWhile_cons_of_pos (by rw [hword]; rfl), List.length_cons]
  exact Nat.lt_succ_of_le (List.dropWhile_suffix _).length_le

theorem Step.length_lt {pending left : List (PositionalRule σ)} {st s : State σ} {words after : List (Word σ)}
    (h : g.Step pending st words left s after) : after.length < words.length := by
  cases h with
  | unknown w => exact Nat.lt_succ_self _
  | option w hunfold hcarried happly =>
      split
      · exact Nat.lt_succ_of_le (List.drop_suffix 1 _).length_le
      · exact Nat.lt_succ_self _
  | positional hword htake hshort => exact hshort
  | leftOver hword htake hshort => exact length_dropWhile_not_isOption_lt hword _

/-- A word that is put aside stays there. -/
theorem Step.extras_prefix {pending left : List (PositionalRule σ)} {st s : State σ} {words after : List (Word σ)}
    (h : g.Step pending st words left s after) : st.extras <+: s.extras := by
  cases h with
  | unknown w => exact List.prefix_append _ _
  | option w hunfold hcarried happly => exact (settings_of_foldlM_apply happly).2 ▸ List.prefix_rfl
  | positional hword htake hshort => exact (takePositionals_leaves htake).2.2 ▸ List.prefix_rfl
  | leftOver hword htake hshort =>
      rw [← (takePositionals_leaves htake).2.2]
      exact List.prefix_append _ _

theorem extras_prefix_of_readAll {fuel : Nat} {pending left : List (PositionalRule σ)} {st t : State σ}
    {words : List (Word σ)} (h : g.readAll fuel pending st words = .ok (left, t)) : st.extras <+: t.extras := by
  induction fuel generalizing pending st words with
  | zero => exact (Prod.mk.inj (Except.ok.inj h)).2 ▸ List.prefix_rfl
  | succ fuel ih =>
      cases words with
      | nil => exact (Prod.mk.inj (Except.ok.inj h)).2 ▸ List.prefix_rfl
      | cons word rest =>
          obtain ⟨next, s, after, hstep, hread⟩ := exists_step_of_readAll h
          exact hstep.extras_prefix.trans (ih hread)

/-- What a step leaves was there before. -/
theorem Step.leaves {pending left : List (PositionalRule σ)} {st s : State σ} {words after : List (Word σ)}
    (h : g.Step pending st words left s after) : left <:+ pending ∧ after <:+ words := by
  cases h with
  | unknown w => exact ⟨List.suffix_refl _, List.suffix_cons _ _⟩
  | option w hunfold hcarried happly =>
      refine ⟨List.suffix_refl _, ?_⟩
      split
      · exact (List.drop_suffix 1 _).trans (List.suffix_cons _ _)
      · exact List.suffix_cons _ _
  | positional hword htake hshort =>
      obtain ⟨hleft, hafter, -⟩ := takePositionals_leaves htake
      exact ⟨hleft, hafter⟩
  | leftOver hword htake hshort =>
      obtain ⟨hleft, -⟩ := takePositionals_leaves htake
      exact ⟨hleft, List.dropWhile_suffix _⟩

end Grammar

end Accessibility.CommandLine
