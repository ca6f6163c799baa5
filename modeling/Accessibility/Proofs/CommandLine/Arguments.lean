import Accessibility.CommandLine.Arguments
import Accessibility.Proofs.CommandLine.Grammar
import Accessibility.Proofs.Number.Numeral

/-! # What the arguments of the program ask for -/

namespace Accessibility.CommandLine

/-- The words of a run that is kept quiet or not. -/
def programWords (quiet : Bool) (command : List Text) : List Text :=
  (if quiet then ["-q".toList] else []) ++ command

/-- The words that have a page audited, with the least score that is asked for. -/
def auditWords (file : Text) (json : Bool) (least : Option Int) : List Text :=
  "audit".toList :: file ::
    ((if json then ["--json".toList] else []) ++
      least.elim [] fun n => ["--fail-under".toList, (toString n).toList])

/-- The words that have an exercise checked. -/
def verifyWords (file : Text) (a : Activity) (json : Bool) : List Text :=
  "verify".toList :: file :: "--activity".toList :: a.tag.toList :: if json then ["--json".toList] else []

theorem grammar_tellsApart : grammar.TellsApart :=
  ⟨by decide, by decide⟩

/-- The option of a command for its data, given. -/
def givenJson {σ : Type} {g : Grammar σ} (set : σ → σ) (h : g.find? "--json".toList = some (jsonOption set)) :
    g.Given where
  name := "--json".toList
  rule := jsonOption set
  isHyphened := rfl
  isName := h
  name_ne := by decide
  isOperand := nofun
  argument_ne := by decide

/-! ## The program -/

def quietOption : grammar.Given where
  name := "-q".toList
  rule := flagOption ["--quiet", "-q"] fun a => { a with quiet := true }
  isHyphened := rfl
  isName := rfl
  name_ne := by decide
  isOperand := nofun
  argument_ne := by decide

def quietOptions (quiet : Bool) : List grammar.Given :=
  if quiet then [quietOption] else []

/-- A command whose words are read without complaint is read with the settings of the program. -/
theorem readArguments_programWords {quiet : Bool} {name : Text} {rest : List Text} {c : Command}
    (hname : name.head? ≠ some '-') (hrest : ∀ w ∈ rest, Text.upTo '=' w ≠ separatorWord)
    (h : readCommand (name :: rest) = .ok (c, [])) :
    readArguments (programWords quiet (name :: rest)) = .ok ({ quiet, command := some c }, c) := by
  have hne : name ≠ separatorWord := by
    rintro rfl
    exact hname rfl
  obtain ⟨words, hwords, hwritten⟩ := Grammar.exists_readWords grammar_tellsApart hrest
  have happly : ((quietOptions quiet).map Grammar.Given.settled).foldlM grammar.apply { settings := {} } =
      .ok { settings := { quiet }, seen := if quiet then [quietOption.rule.title] else [] } := by
    cases quiet <;> rfl
  have hset : (readCommand (name :: rest)).map
      (fun found => ({ quiet, command := some found.1, leftOver := found.2 } : Arguments)) =
      .ok { quiet, command := some c } := by
    rw [h]
    rfl
  have hread : grammar.read {} (programWords quiet (name :: rest)) = .ok ({ quiet, command := some c }, []) := by
    have hoptions : (quietOptions quiet).flatMap Grammar.Given.written = if quiet then ["-q".toList] else [] := by
      cases quiet <;> rfl
    rw [programWords, ← hoptions]
    exact Grammar.read_givens_rest rfl rfl (Grammar.readWords_cons hne (Grammar.readWord_of_head hname) hwords) hwritten
      happly hset rfl
  rw [readArguments, hread]
  rfl

/-! ## Checking an exercise -/

theorem head?_tag (a : Activity) : a.tag.toList.head? ≠ some '-' := by
  cases a <;> decide

theorem ofTag?_tag (a : Activity) : Activity.ofTag? a.tag.toList = some a := by
  cases a <;> decide

def activityOption (a : Activity) : verifyGrammar.Given where
  name := "--activity".toList
  rule := { names := ["--activity".toList, "-a".toList], effect := .value readActivity, isRequired := true }
  argument := a.tag.toList
  isHyphened := rfl
  isName := rfl
  name_ne := by decide
  isOperand := fun _ => Grammar.isOperand_of_head (head?_tag a)
  argument_ne := fun h => head?_tag a (h ▸ rfl)

theorem readActivity_tag (a : Activity) (st : VerifyArguments) :
    readActivity (Grammar.value? a.tag.toList) st = .ok { st with activity := .known a } := by
  have hne : a.tag.toList ≠ separatorWord := (activityOption a).argument_ne
  simp only [Grammar.value?, if_neg hne, readActivity, ofTag?_tag]

def verifyJsonOption : verifyGrammar.Given :=
  givenJson (fun a => { a with json := true }) rfl

def verifyOptions (a : Activity) (json : Bool) : List verifyGrammar.Given :=
  activityOption a :: if json then [verifyJsonOption] else []

theorem readCommand_verifyWords {file : Text} (hfile : verifyGrammar.IsOperand file) (a : Activity) (json : Bool) :
    readCommand (verifyWords file a json) = .ok (.verify file (.known a) json, []) := by
  have hne : file ≠ separatorWord := hfile.ne_separatorWord (by decide)
  have happly : ((verifyOptions a json).map Grammar.Given.settled).foldlM verifyGrammar.apply { settings := { file } } =
      .ok {
        settings := { file, activity := .known a, json }
        seen := (if json then [verifyJsonOption.rule.title] else []) ++ [(activityOption a).rule.title] } := by
    rw [verifyOptions, List.map_cons, List.foldlM_cons,
      (activityOption a).apply_settled_value rfl (readActivity_tag a _)]
    cases json <;> rfl
  have hread : verifyGrammar.read {} (file :: (verifyOptions a json).flatMap Grammar.Given.written) =
      .ok ({ file, activity := .known a, json }, []) :=
    Grammar.read_word_givens rfl rfl hne hfile rfl happly (by cases json <;> rfl)
  have hwritten : (verifyOptions a json).flatMap Grammar.Given.written =
      "--activity".toList :: a.tag.toList :: if json then ["--json".toList] else [] := by
    cases json <;> rfl
  rw [verifyWords, ← hwritten]
  change (verifyGrammar.read {} _).map _ = _
  rw [hread]
  rfl

/-! ## Auditing a page -/

theorem isDigit_of_mem_toDigits {n : Nat} : ∀ c ∈ Nat.toDigits 10 n, Text.isDigit c = true := by
  intro c hc
  rw [Text.isDigit, Numeral.digitValue?_of_isDigit (Numeral.isDigit_of_mem_toDigits c hc)]
  rfl

theorem isOperand_toString (n : Int) : auditGrammar.IsOperand (toString n).toList := by
  rw [Numeral.toList_toString]
  by_cases hn : n < 0
  · rw [if_pos hn]
    exact Grammar.isOperand_minus Nat.toDigits_ne_nil isDigit_of_mem_toDigits (by decide)
  · rw [if_neg hn, List.nil_append]
    refine Grammar.isOperand_of_head fun hhead => ?_
    exact absurd (isDigit_of_mem_toDigits '-' (List.mem_of_head? hhead)) (by decide)

def auditJsonOption : auditGrammar.Given :=
  givenJson (fun a => { a with json := true }) rfl

def leastOption (n : Int) : auditGrammar.Given where
  name := "--fail-under".toList
  rule := { names := ["--fail-under".toList], effect := .value readLeastScore }
  argument := (toString n).toList
  isHyphened := rfl
  isName := rfl
  name_ne := by decide
  isOperand := fun _ => isOperand_toString n
  argument_ne := (isOperand_toString n).ne_separatorWord (by decide)

theorem readLeastScore_toString {n : Int} (hn : Numeral.IsReadable n) (st : AuditArguments) :
    readLeastScore (Grammar.value? (toString n).toList) st = .ok { st with failUnder := some (.number n) } := by
  have hne : (toString n).toList ≠ separatorWord := (leastOption n).argument_ne
  simp only [Grammar.value?, if_neg hne, readLeastScore, Numeral.read?_toString hn]

def auditOptions (json : Bool) (least : Option Int) : List auditGrammar.Given :=
  (if json then [auditJsonOption] else []) ++ least.elim [] fun n => [leastOption n]

theorem readCommand_auditWords {file : Text} (hfile : auditGrammar.IsOperand file) (json : Bool) {least : Option Int}
    (hleast : ∀ n ∈ least, Numeral.IsReadable n) :
    readCommand (auditWords file json least) = .ok (.audit file json (least.map .number), []) := by
  have hne : file ≠ separatorWord := hfile.ne_separatorWord (by decide)
  obtain ⟨st, happly, hsettings, hextras⟩ : ∃ st,
      ((auditOptions json least).map Grammar.Given.settled).foldlM auditGrammar.apply { settings := { file } } =
        .ok st ∧
      st.settings = { file, json, failUnder := least.map .number } ∧ st.extras = [] := by
    have hjson : ((if json then [auditJsonOption] else []).map Grammar.Given.settled).foldlM auditGrammar.apply
        { settings := { file } } =
        .ok { settings := { file, json }, seen := if json then [auditJsonOption.rule.title] else [] } := by
      cases json <;> rfl
    rw [auditOptions, List.map_append, List.foldlM_append, hjson]
    cases least with
    | none => exact ⟨_, rfl, rfl, rfl⟩
    | some n =>
        rw [Option.elim_some, List.map_cons, List.map_nil]
        dsimp only [bind, Except.bind]
        rw [List.foldlM_cons, (leastOption n).apply_settled_value rfl (readLeastScore_toString (hleast n rfl) _)]
        exact ⟨_, rfl, rfl, rfl⟩
  have hread : auditGrammar.read {} (file :: (auditOptions json least).flatMap Grammar.Given.written) =
      .ok (st.settings, st.extras) :=
    Grammar.read_word_givens rfl rfl hne hfile rfl happly rfl
  have hwritten : (auditOptions json least).flatMap Grammar.Given.written =
      (if json then ["--json".toList] else []) ++
        least.elim [] fun n => ["--fail-under".toList, (toString n).toList] := by
    cases json <;> cases least <;> rfl
  rw [auditWords, ← hwritten]
  change (auditGrammar.read {} _).map _ = _
  rw [hread, hsettings, hextras]
  rfl

end Accessibility.CommandLine
