import Accessibility.Proofs.CommandLine.Word

/-! # Command lines that are read to their end

Options that stand in words of their own are carried out one after another, before or behind the one positional argument
of a command. -/

namespace Accessibility.CommandLine

variable {σ : Type} {g : Grammar σ}

namespace Grammar

/-! ## Options in words of their own -/

/-- An option that is given by its name, and its argument in the next word if it takes one. -/
structure Given (g : Grammar σ) where
  name : Text
  rule : OptionRule σ
  argument : Text := []
  isHyphened : name.head? = some '-'
  isName : g.find? name = some rule
  name_ne : name ≠ separatorWord
  isOperand : rule.takesValue = true → g.IsOperand argument
  argument_ne : argument ≠ separatorWord

namespace Given

def written (o : g.Given) : List Text :=
  o.name :: if o.rule.takesValue then [o.argument] else []

def words (o : g.Given) : List (Word σ) :=
  .option o.name o.rule o.name none :: if o.rule.takesValue then [.plain o.argument] else []

def settled (o : g.Given) : OptionRule σ × Text :=
  (o.rule, if o.rule.takesValue then o.argument else [])

theorem readWord_name (o : g.Given) : g.readWord o.name = .ok (.option o.name o.rule o.name none) := by
  rw [readWord, if_neg (Decidable.not_not.mpr o.isHyphened), o.isName]

theorem readWords_written_append (o : g.Given) {rest : List Text} {words : List (Word σ)}
    (hrest : g.readWords rest = .ok words) : g.readWords (o.written ++ rest) = .ok (o.words ++ words) := by
  unfold written Given.words
  cases hvalue : o.rule.takesValue with
  | false => exact readWords_cons o.name_ne o.readWord_name hrest
  | true =>
      exact readWords_cons o.name_ne o.readWord_name (readWords_cons o.argument_ne (o.isOperand hvalue) hrest)

theorem apply_settled_value (o : g.Given) {set : Option Text → σ → Except Complaint σ}
    (heffect : o.rule.effect = .value set) {st : State σ} {settings : σ}
    (hset : set (value? o.argument) st.settings = .ok settings) :
    g.apply st o.settled = .ok { st with settings, seen := o.rule.title :: st.seen } := by
  have htakes : o.rule.takesValue = true := by rw [OptionRule.takesValue, heffect]
  rw [settled, if_pos htakes]
  simp only [apply, heffect, hset]

theorem applyUnfolded_last (g : Grammar σ) (st : State σ) {rule : OptionRule σ} (h : rule.takesValue = false)
    (next : Option (Word σ)) :
    g.applyUnfolded st { last := some rule } next = (g.apply st (rule, [])).map (·, false) := by
  simp only [applyUnfolded, h, Bool.false_eq_true, if_false, List.nil_append, List.foldlM_cons, List.foldlM_nil]
  cases g.apply st (rule, []) <;> rfl

theorem applyUnfolded_last_plain (g : Grammar σ) (st : State σ) {rule : OptionRule σ} (h : rule.takesValue = true)
    (argument : Text) :
    g.applyUnfolded st { last := some rule } (some (.plain argument)) =
      (g.apply st (rule, argument)).map (·, true) := by
  simp only [applyUnfolded, h, if_true, List.nil_append, List.foldlM_cons, List.foldlM_nil]
  cases g.apply st (rule, argument) <;> rfl

theorem readAll_option (g : Grammar σ) (fuel : Nat) (pending : List (PositionalRule σ)) (st : State σ) (w : Text)
    (rule : OptionRule σ) (name : Text) (rest : List (Word σ)) :
    g.readAll (fuel + 1) pending st (.option w rule name none :: rest) =
      (g.applyUnfolded st { last := some rule } rest.head?).bind fun applied =>
        g.readAll fuel pending applied.1 (if applied.2 then rest.drop 1 else rest) := by
  simp only [readAll, unfold]
  cases g.applyUnfolded st { last := some rule } rest.head? <;> rfl

theorem readAll_words_append (o : g.Given) (fuel : Nat) (pending : List (PositionalRule σ)) (st : State σ)
    (rest : List (Word σ)) :
    g.readAll (fuel + 1) pending st (o.words ++ rest) =
      (g.apply st o.settled).bind fun st => g.readAll fuel pending st rest := by
  unfold Given.words settled
  cases hvalue : o.rule.takesValue with
  | false =>
      rw [if_neg Bool.false_ne_true, if_neg Bool.false_ne_true, List.singleton_append, readAll_option,
        applyUnfolded_last g st hvalue]
      cases g.apply st (o.rule, []) <;> rfl
  | true =>
      rw [if_pos rfl, if_pos rfl, List.cons_append, List.singleton_append, readAll_option, List.head?_cons,
        applyUnfolded_last_plain g st hvalue]
      cases g.apply st (o.rule, o.argument) <;> rfl

end Given

/-- The options are carried out in turn, and what follows them is read with the settings that they lead to. -/
theorem readAll_givens_append (os : List g.Given) (fuel : Nat) (pending : List (PositionalRule σ)) (st : State σ)
    (rest : List (Word σ)) :
    g.readAll (os.length + fuel) pending st (os.flatMap Given.words ++ rest) =
      ((os.map Given.settled).foldlM g.apply st).bind fun st => g.readAll fuel pending st rest := by
  induction os generalizing st with
  | nil =>
      rw [List.length_nil, Nat.zero_add]
      rfl
  | cons o os ih =>
      rw [List.length_cons, Nat.add_right_comm, List.flatMap_cons, List.append_assoc, Given.readAll_words_append,
        List.map_cons, List.foldlM_cons]
      cases g.apply st o.settled with
      | error refusal => rfl
      | ok st => exact ih st

theorem readWords_givens_append (os : List g.Given) {rest : List Text} {words : List (Word σ)}
    (hrest : g.readWords rest = .ok words) :
    g.readWords (os.flatMap Given.written ++ rest) = .ok (os.flatMap Given.words ++ words) := by
  induction os with
  | nil => exact hrest
  | cons o os ih =>
      rw [List.flatMap_cons, List.append_assoc, List.flatMap_cons, List.append_assoc]
      exact o.readWords_written_append ih

theorem length_le_length_words (os : List g.Given) : os.length ≤ (os.flatMap Given.words).length := by
  induction os with
  | nil => exact Nat.le_refl 0
  | cons o os ih =>
      rw [List.flatMap_cons, List.length_append, List.length_cons, Given.words, List.length_cons]
      omega

/-! ## Commands with one positional argument -/

theorem readAll_nil (fuel : Nat) (pending : List (PositionalRule σ)) (st : State σ) :
    g.readAll fuel pending st [] = .ok (pending, st) := by
  cases fuel <;> rfl

/-- What is left of the words of options for their steps suffices, as none of them takes less than a word. -/
theorem readAll_givens (os : List g.Given) (pending : List (PositionalRule σ)) (st : State σ) :
    g.readAll (os.flatMap Given.words).length pending st (os.flatMap Given.words) =
      ((os.map Given.settled).foldlM g.apply st).map (pending, ·) := by
  obtain ⟨fuel, hfuel⟩ := Nat.exists_eq_add_of_le (length_le_length_words os)
  have happend := readAll_givens_append os fuel pending st []
  rw [List.append_nil] at happend
  rw [hfuel, happend]
  cases (os.map Given.settled).foldlM g.apply st with
  | error refusal => rfl
  | ok st => exact readAll_nil fuel pending st

theorem takePositional_plain_givens (w : Text) (os : List g.Given) :
    takePositional false (.plain w :: os.flatMap Given.words) = some ([.plain w], os.flatMap Given.words) := by
  cases os <;> rfl

theorem takePositional_all (w : Text) (words : List (Word σ)) :
    takePositional true (.plain w :: words) = some (.plain w :: words, []) :=
  rfl

variable {rule : PositionalRule σ} {w : Text} {settings settings' : σ} {st : State σ} {os : List g.Given}

/-- The positional argument comes before the options. -/
theorem read_word_givens (hpositionals : g.positionals = [rule]) (htakes : rule.takesRest = false)
    (hw : w ≠ separatorWord) (hplain : g.IsOperand w) (hset : rule.set [w] settings = .ok settings')
    (happly : (os.map Given.settled).foldlM g.apply { settings := settings' } = .ok st)
    (hrequired : (g.options.filter fun rule => rule.isRequired && !st.seen.contains rule.title) = []) :
    g.read settings (w :: os.flatMap Given.written) = .ok (st.settings, st.extras) := by
  have hwords : g.readWords (w :: os.flatMap Given.written) = .ok (.plain w :: os.flatMap Given.words) := by
    have hgivens : g.readWords (os.flatMap Given.written ++ []) = .ok (os.flatMap Given.words ++ []) :=
      readWords_givens_append os rfl
    rw [List.append_nil, List.append_nil] at hgivens
    exact readWords_cons hw hplain hgivens
  have htaken : takePositionals [rule] { settings } (.plain w :: os.flatMap Given.words) =
      .ok ([], { settings := settings' }, os.flatMap Given.words) := by
    have herase : [w].erase separatorWord = [w] := List.erase_of_not_mem fun h => hw (List.mem_singleton.mp h).symm
    simp only [takePositionals, htakes, takePositional_plain_givens, Bool.false_eq_true, if_false, List.map_cons,
      List.map_nil, Word.written, herase, hset]
  have hall : g.readAll (os.flatMap Given.words).length.succ [rule] { settings } (.plain w :: os.flatMap Given.words) =
      .ok ([], st) := by
    simp only [readAll, htaken, List.length_cons, Nat.lt_add_one, if_true, readAll_givens, happly]
    rfl
  simp only [read, hwords, hpositionals, List.length_cons, hall, hrequired]
  rfl

/-- The options come before the positional argument, which takes all that follows. -/
theorem read_givens_rest (hpositionals : g.positionals = [rule]) (htakes : rule.takesRest = true) {rest : List Text}
    {words : List (Word σ)} (hwords : g.readWords (w :: rest) = .ok (.plain w :: words))
    (hrest : words.map Word.written = rest) (happly : (os.map Given.settled).foldlM g.apply { settings } = .ok st)
    (hset : rule.set (w :: rest) st.settings = .ok settings')
    (hrequired : (g.options.filter fun rule => rule.isRequired && !st.seen.contains rule.title) = []) :
    g.read settings (os.flatMap Given.written ++ w :: rest) = .ok (settings', st.extras) := by
  have htaken : takePositionals [rule] st (.plain w :: words) = .ok ([], { st with settings := settings' }, []) := by
    simp only [takePositionals, htakes, takePositional_all, if_true, List.map_cons, Word.written, hrest, hset]
  -- Each option takes a step but at least one word, so that a step is left for the positional argument.
  obtain ⟨fuel, hfuel⟩ : ∃ fuel, (os.flatMap Given.words ++ .plain w :: words).length = os.length + (fuel + 1) := by
    have hle := length_le_length_words os
    refine ⟨(os.flatMap Given.words).length - os.length + words.length, ?_⟩
    rw [List.length_append, List.length_cons]
    omega
  have hall : g.readAll (os.flatMap Given.words ++ .plain w :: words).length [rule] { settings }
      (os.flatMap Given.words ++ .plain w :: words) = .ok ([], { st with settings := settings' }) := by
    rw [hfuel, readAll_givens_append, happly]
    simp only [Except.bind, readAll, htaken, List.length_nil, List.length_cons, Nat.zero_lt_succ, if_true, readAll_nil]
  simp only [read, readWords_givens_append os hwords, hpositionals, hall, hrequired]
  rfl

end Grammar

end Accessibility.CommandLine
