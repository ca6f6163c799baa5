import Accessibility.Proofs.CommandLine.Arguments

/-! # Commands that are accepted

A command is accepted if its own words are, and none of them refuses to be read as a word of the program. What is asked
of the program before the command makes no difference to that. -/

namespace Accessibility.CommandLine

variable {σ : Type} {g : Grammar σ}

namespace Grammar

theorem written_of_readWord {w : Text} {word : Word σ} (h : g.readWord w = .ok word) : word.written = w := by
  rcases readWord_cases g w with ⟨other, hread, hwritten, -⟩ | ⟨-, -, complaint, herror⟩
  · exact Except.ok.inj (hread.symm.trans h) ▸ hwritten
  · exact nomatch herror.symm.trans h

theorem readWords_cons_eq_ok {w : Text} {rest : List Text} {words : List (Word σ)}
    (h : g.readWords (w :: rest) = .ok words) :
    w = separatorWord ∧ words = .separator :: rest.map .plain ∨
      w ≠ separatorWord ∧
        ∃ word after, g.readWord w = .ok word ∧ g.readWords rest = .ok after ∧ words = word :: after := by
  rw [readWords] at h
  split at h
  · exact .inl ⟨‹_›, (Except.ok.inj h).symm⟩
  · refine .inr ⟨‹_›, ?_⟩
    cases hword : g.readWord w with
    | error complaint =>
        rw [hword] at h
        contradiction
    | ok word =>
        cases hafter : g.readWords rest with
        | error complaint =>
            rw [hword, hafter] at h
            contradiction
        | ok after =>
            rw [hword, hafter] at h
            exact ⟨word, after, rfl, rfl, (Except.ok.inj h).symm⟩

/-- The words that are read are those that are written. -/
theorem map_written_of_readWords {arguments : List Text} {words : List (Word σ)}
    (h : g.readWords arguments = .ok words) : words.map Word.written = arguments := by
  induction arguments generalizing words with
  | nil => exact Except.ok.inj h ▸ rfl
  | cons w rest ih =>
      rcases readWords_cons_eq_ok h with ⟨rfl, rfl⟩ | ⟨-, word, after, hword, hafter, rfl⟩
      · rw [List.map_cons, List.map_map]
        exact congrArg _ (List.map_id rest)
      · rw [List.map_cons, written_of_readWord hword, ih hafter]

/-- A positional argument that takes all there is. -/
theorem read_rest {rule : PositionalRule σ} {w : Text} {rest : List Text} {words : List (Word σ)} (settings : σ)
    (hpositionals : g.positionals = [rule]) (htakes : rule.takesRest = true)
    (hrequired : g.options.filter (·.isRequired) = []) (hwords : g.readWords (w :: rest) = .ok (.plain w :: words)) :
    g.read settings (w :: rest) = (rule.set (w :: rest) settings).map (·, []) := by
  have hwritten : words.map Word.written = rest := (List.cons.inj (map_written_of_readWords hwords)).2
  have hnone : (g.options.filter fun rule => rule.isRequired && !([] : List Text).contains rule.title) = [] := by
    simpa only [List.contains_nil, Bool.not_false, Bool.and_true] using hrequired
  simp only [read, hwords, hpositionals, List.length_cons, readAll, takePositionals, htakes, takePositional_all,
    if_true, List.map_cons, Word.written, hwritten]
  cases rule.set (w :: rest) settings with
  | error refusal => rfl
  | ok settings =>
      simp only [List.length_nil, Nat.zero_lt_succ, if_true, readAll_nil, hnone]
      rfl

end Grammar

/-! ## How much is told -/

/-- How much a run tells: as it comes, kept quiet, or made verbose. -/
inductive Loudness
  | plain
  | quiet
  | verbose
  deriving DecidableEq

namespace Loudness

def words : Loudness → List Text
  | plain => []
  | quiet => ["-q".toList]
  | verbose => ["-v".toList]

def settings (l : Loudness) : Arguments where
  verbose := l = verbose
  quiet := l = quiet

end Loudness

theorem nil_ne_separatorWord : ([] : Text) ≠ separatorWord := by
  decide

def verboseOption : grammar.Given where
  name := "-v".toList
  rule := flagOption ["--verbose", "-v"] fun a => { a with verbose := true }
  isHyphened := rfl
  isName := rfl
  name_ne := by decide
  isOperand := nofun
  argument_ne := nil_ne_separatorWord

namespace Loudness

def options : Loudness → List grammar.Given
  | plain => []
  | quiet => [quietOption]
  | verbose => [verboseOption]

theorem written_options (l : Loudness) : l.options.flatMap Grammar.Given.written = l.words := by
  cases l <;> rfl

theorem apply_options (l : Loudness) :
    ∃ seen, (l.options.map Grammar.Given.settled).foldlM grammar.apply { settings := {} } =
      .ok { settings := l.settings, seen } := by
  cases l <;> exact ⟨_, rfl⟩

end Loudness

/-! ## Commands behind it -/

variable {name : Text} {rest : List Text} {a : Arguments} {c : Command}

theorem ne_separatorWord_of_head (hname : name.head? ≠ some '-') : name ≠ separatorWord := by
  rintro rfl
  exact hname rfl

theorem readWords_command (hname : name.head? ≠ some '-') :
    grammar.readWords (name :: rest) = (grammar.readWords rest).map (.plain name :: ·) := by
  rw [Grammar.readWords, if_neg (ne_separatorWord_of_head hname), Grammar.readWord_of_head hname]
  cases grammar.readWords rest <;> rfl

/-- The command takes its name and all that follows. -/
theorem read_command (hname : name.head? ≠ some '-') {words : List (Word Arguments)}
    (hwords : grammar.readWords rest = .ok words) :
    grammar.read {} (name :: rest) =
      (readCommand (name :: rest)).map fun found => ({ command := some found.1, leftOver := found.2 }, []) := by
  have hall : grammar.readWords (name :: rest) = .ok (.plain name :: words) := by
    rw [readWords_command hname, hwords]
    rfl
  rw [Grammar.read_rest {} rfl rfl rfl hall]
  dsimp only
  cases readCommand (name :: rest) <;> rfl

theorem readCommand_of_readArguments (hname : name.head? ≠ some '-')
    (h : readArguments (name :: rest) = .ok (a, c)) :
    (∃ words, grammar.readWords rest = .ok words) ∧ readCommand (name :: rest) = .ok (c, []) := by
  cases hwords : grammar.readWords rest with
  | error complaint =>
      rw [readArguments, Grammar.read, readWords_command hname, hwords] at h
      contradiction
  | ok words =>
      refine ⟨⟨words, rfl⟩, ?_⟩
      rw [readArguments, read_command hname hwords] at h
      cases hcommand : readCommand (name :: rest) with
      | error refusal =>
          rw [hcommand] at h
          contradiction
      | ok found =>
          obtain ⟨command, leftOver⟩ := found
          rw [hcommand] at h
          cases leftOver with
          | nil =>
              obtain ⟨-, rfl⟩ := Prod.mk.inj (Except.ok.inj h)
              rfl
          | cons w leftOver => contradiction

theorem readArguments_of_readCommand (hname : name.head? ≠ some '-') {words : List (Word Arguments)}
    (hwords : grammar.readWords rest = .ok words) (hcommand : readCommand (name :: rest) = .ok (c, [])) (l : Loudness) :
    readArguments (l.words ++ name :: rest) = .ok ({ l.settings with command := some c }, c) := by
  obtain ⟨seen, happly⟩ := l.apply_options
  have hall : grammar.readWords (name :: rest) = .ok (.plain name :: words) := by
    rw [readWords_command hname, hwords]
    rfl
  have hset : (readCommand (name :: rest)).map
      (fun found => ({ l.settings with command := some found.1, leftOver := found.2 } : Arguments)) =
      .ok { l.settings with command := some c } := by
    rw [hcommand]
    rfl
  have hread : grammar.read {} (l.words ++ name :: rest) = .ok ({ l.settings with command := some c }, []) := by
    rw [← l.written_options]
    exact Grammar.read_givens_rest rfl rfl hall (Grammar.map_written_of_readWords hwords) happly hset rfl
  rw [readArguments, hread]
  rfl

/-- What is asked of the program before a command leaves the command as it is. -/
theorem readArguments_loud (hname : name.head? ≠ some '-') (h : readArguments (name :: rest) = .ok (a, c))
    (l : Loudness) : readArguments (l.words ++ name :: rest) = .ok ({ l.settings with command := some c }, c) := by
  obtain ⟨⟨words, hwords⟩, hcommand⟩ := readCommand_of_readArguments hname h
  exact readArguments_of_readCommand hname hwords hcommand l

end Accessibility.CommandLine
