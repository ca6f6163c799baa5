import Accessibility.Proofs.CommandLine.Files
import Accessibility.Proofs.CommandLine.Run
import Accessibility.Proofs.Text.Newline
import Accessibility.Proofs.Text.Utf8

/-! # Pages from files and from the input

What a run prints is what the page gives that its file encodes. The same page from the input ends the run alike. -/

namespace Accessibility.CommandLine

theorem source_name {w : World} {name s : Text} (hname : IsPlainName name)
    (hfile : w.directory.Holds name (Utf8.encode s)) : w.source name = .ok (Text.unifyNewlines s) := by
  have hne : name ≠ ['-'] := fun heq => hname.head?_ne (by decide) (congrArg List.head? heq)
  rw [World.source, if_neg hne, Directory.readText, Directory.read_of_holds hname hfile]
  change Except.ok (Text.unifyNewlines (Utf8.decode (Utf8.encode s))) = _
  rw [Utf8.decode_encode]

theorem source_input {w : World} {s : Text} (h : w.input = some s) : w.source ['-'] = .ok (Text.unifyNewlines s) := by
  rw [World.source, if_pos rfl, h]

/-- Both runs finish, with the same code, the same text printed, and the same events. -/
def EndAlike (o o' : Outcome) : Prop :=
  ∃ exit printed events d d',
    o = .finished { exit, printed, events, directory := d } ∧ o' = .finished { exit, printed, events, directory := d' }

section

variable {w w' : World} {file file' page : Text} (hsource : w.source file = .ok page)
  (hsource' : w'.source file' = .ok page)

include hsource hsource'

theorem auditWords_endAlike (hfile : auditGrammar.IsOperand file) (hfile' : auditGrammar.IsOperand file')
    (quiet json : Bool) {least : Option Int} (hleast : ∀ n ∈ least, Numeral.IsReadable n) :
    EndAlike (run (programWords quiet (auditWords file json least)) w)
      (run (programWords quiet (auditWords file' json least)) w') :=
  ⟨_, _, _, _, _, run_auditWords hfile hsource quiet json hleast, run_auditWords hfile' hsource' quiet json hleast⟩

theorem verifyWords_endAlike (hfile : verifyGrammar.IsOperand file) (hfile' : verifyGrammar.IsOperand file')
    (quiet json : Bool) (a : Activity) :
    EndAlike (run (programWords quiet (verifyWords file a json)) w)
      (run (programWords quiet (verifyWords file' a json)) w') :=
  ⟨_, _, _, _, _, run_verifyWords hfile hsource quiet a json, run_verifyWords hfile' hsource' quiet a json⟩

end

theorem auditWords_json {w : World} {file page : Text} (hfile : auditGrammar.IsOperand file)
    (hsource : w.source file = .ok page) {least : Option Int} (hleast : ∀ n ∈ least, Numeral.IsReadable n) :
    let a := Audit.ofPage page
    run (programWords false (auditWords file true least)) w =
      .finished {
        exit := if a.passed = true ∧ ∀ n ∈ least, n ≤ a.score then 0 else 1
        printed := a.toJson.pretty ++ "\n"
        events := []
        directory := w.directory } := by
  have hexit : Performance.exitOf ((Audit.ofPage page).passed && reaches least (Audit.ofPage page).score) =
      if (Audit.ofPage page).passed = true ∧ ∀ n ∈ least, n ≤ (Audit.ofPage page).score then 0 else 1 := by
    simp only [Performance.exitOf, Bool.and_eq_true, reaches_eq_true_iff]
  rw [run_auditWords hfile hsource false true hleast, audit_number]
  dsimp only
  rw [hexit]
  rfl

theorem verifyWords_json {w : World} {file page : Text} (hfile : verifyGrammar.IsOperand file)
    (hsource : w.source file = .ok page) {a : Activity} {v : Verdict} (hv : Exercise.verify page (.known a) = .ok v) :
    run (programWords false (verifyWords file a true)) w =
      .finished {
        exit := if v.passed then 0 else 1
        printed := v.toJson.pretty ++ "\n"
        events := []
        directory := w.directory } := by
  rw [run_verifyWords hfile hsource false a true, Performance.verify, hv]
  rfl

/-- The command line agrees with what it is made of, and a file with the input. -/
theorem run_agrees {s name : Text} {w : World} (hname : IsPlainName name)
    (hfile : w.directory.Holds name (Utf8.encode s)) :
    ('\r' ∉ s →
      (∀ least : Option Int, (∀ n ∈ least, Numeral.IsReadable n) →
        run (programWords false (auditWords name true least)) w =
          .finished {
            exit := if (Audit.ofPage s).passed = true ∧ ∀ n ∈ least, n ≤ (Audit.ofPage s).score then 0 else 1
            printed := (Audit.ofPage s).toJson.pretty ++ "\n"
            events := []
            directory := w.directory }) ∧
      ∀ a v, Exercise.verify s (.known a) = .ok v →
        run (programWords false (verifyWords name a true)) w =
          .finished {
            exit := if v.passed then 0 else 1
            printed := v.toJson.pretty ++ "\n"
            events := []
            directory := w.directory }) ∧
    ∀ (w' : World), w'.input = some s → ∀ quiet json : Bool,
      (∀ least : Option Int, (∀ n ∈ least, Numeral.IsReadable n) →
        EndAlike (run (programWords quiet (auditWords name json least)) w)
          (run (programWords quiet (auditWords ['-'] json least)) w')) ∧
      ∀ a, EndAlike (run (programWords quiet (verifyWords name a json)) w)
        (run (programWords quiet (verifyWords ['-'] a json)) w') := by
  have hhead : name.head? ≠ some '-' := hname.head?_ne (by decide)
  have hsource := source_name hname hfile
  refine ⟨fun hreturn => ?_, fun w' hinput quiet json => ?_⟩
  · rw [Text.unifyNewlines_eq_self hreturn] at hsource
    exact ⟨fun least hleast => auditWords_json (Grammar.isOperand_of_head hhead) hsource hleast,
      fun a v hv => verifyWords_json (Grammar.isOperand_of_head hhead) hsource hv⟩
  · have hsource' := source_input hinput
    exact ⟨fun least hleast =>
        auditWords_endAlike hsource hsource' (Grammar.isOperand_of_head hhead) rfl quiet json hleast,
      fun a => verifyWords_endAlike hsource hsource' (Grammar.isOperand_of_head hhead) rfl quiet json a⟩

def paragraph : Text := "<p>Text</p>\n".toList

def paragraphName : Text := "page.html".toList

def paragraphDirectory : Directory where
  files := [([paragraphName], Utf8.encode paragraph)]

theorem run_agrees_paragraph :
    run (programWords false (auditWords paragraphName true (some 90))) { directory := paragraphDirectory } =
      .finished {
        exit :=
          if (Audit.ofPage paragraph).passed = true ∧ ∀ n ∈ some (90 : Int), n ≤ (Audit.ofPage paragraph).score then 0
          else 1
        printed := (Audit.ofPage paragraph).toJson.pretty ++ "\n"
        events := []
        directory := paragraphDirectory } ∧
    run (programWords false (verifyWords paragraphName .captions true)) { directory := paragraphDirectory } =
      .finished {
        exit := if (Exercise.captions paragraph).passed then 0 else 1
        printed := (Exercise.captions paragraph).toJson.pretty ++ "\n"
        events := []
        directory := paragraphDirectory } ∧
    EndAlike
      (run (programWords true (auditWords paragraphName false (some (-5)))) { directory := paragraphDirectory })
      (run (programWords true (auditWords ['-'] false (some (-5)))) { input := some paragraph }) := by
  have hname : IsPlainName paragraphName := ⟨'p', "age.html".toList, rfl, rfl, List.all_eq_true.mp (by decide)⟩
  have hfile : ({ directory := paragraphDirectory } : World).directory.Holds paragraphName (Utf8.encode paragraph) :=
    ⟨rfl, rfl, by decide⟩
  obtain ⟨hprints, halike⟩ := run_agrees hname hfile
  obtain ⟨haudit, hverify⟩ := hprints (by decide)
  exact ⟨haudit (some 90) (by decide), hverify .captions _ rfl,
    (halike { input := some paragraph } rfl true false).1 (some (-5)) (by decide)⟩

end Accessibility.CommandLine
