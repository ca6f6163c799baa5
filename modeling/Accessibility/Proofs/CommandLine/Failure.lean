import Accessibility.Proofs.CommandLine.Run
import Accessibility.Proofs.Exercise.Faults
import Accessibility.Proofs.Markup.Quoted
import Accessibility.Proofs.Text.Newline

/-! # Exercises whose check fails

A check fails exactly on a number of too many digits. On the command line, that is one line and the exit code of
failure. -/

namespace Accessibility.CommandLine

/-- How a run ends whose check gives a verdict or fails. -/
def Finish.Reports (f : Finish) : Except Fault Verdict → Prop
  | .ok v => f.exit = if v.passed then 0 else 1
  | .error fault =>
    f.exit = 1 ∧ f.printed = "" ∧ f.events = [Console.tell .error ("Invalid input: " ++ fault.message)]

theorem reports_verify (page : Text) (a : Activity) (quiet json : Bool) (d : Directory) :
    let p := Performance.verify quiet json (.known a) page
    Finish.Reports ⟨p.exit, p.printed, p.events, d⟩ (Exercise.verify page (.known a)) := by
  unfold Performance.verify
  cases Exercise.verify page (.known a) with
  | error fault => exact ⟨rfl, rfl, rfl⟩
  | ok v => rfl

/-- A check fails on a number of too many digits and on nothing else, and a run of the check reports what comes of
it. -/
theorem verify_fails_only_on_overlong (page : Text) :
    (∀ request,
      (Exercise.Overlong page request →
        ∃ n, Fault.digitLimit < n ∧ Exercise.verify page request = .error (.tooManyDigits n)) ∧
      (¬Exercise.Overlong page request → ∃ v, Exercise.verify page request = .ok v)) ∧
    ∀ (w : World) (file : Text) (a : Activity) (quiet json : Bool),
      verifyGrammar.IsOperand file → w.source file = .ok page →
        ∃ f, run (programWords quiet (verifyWords file a json)) w = .finished f ∧
          f.Reports (Exercise.verify page (.known a)) := by
  refine ⟨fun request => ⟨Exercise.verify_of_overlong, Exercise.verify_of_not_overlong⟩, ?_⟩
  intro w file a quiet json hfile hsource
  exact ⟨_, run_verifyWords hfile hsource quiet a json, reports_verify page a quiet json w.directory⟩

/-- A page of one tab index. -/
def tabIndex (value : Text) : Attribute.Quoted where
  written := "tabindex".toList
  gap := []
  lead := []
  quote := '"'
  value := value

theorem tabIndex_isOf {value : Text} (h : '"' ∉ value) : (tabIndex value).IsOf "tabindex".toList where
  name_eq := rfl
  gap_blank := nofun
  lead_blank := nofun
  isQuote_quote := rfl
  quote_not_mem := h

theorem overlong_tabIndex {value : Text} (hdigits : ∀ c ∈ value, Text.isDigit c = true)
    (hlong : Fault.digitLimit < value.length) : Exercise.Overlong (tabIndex value).raw (.known .tabOrder) := by
  have hquote : '"' ∉ value := fun h => absurd (hdigits '"' h) (by decide)
  exact .tabOrder ⟨value, Attribute.mem_values_raw (tabIndex_isOf hquote), value, .inl rfl, hdigits, hlong⟩

theorem source_tabIndex {value : Text} (hdigits : ∀ c ∈ value, Text.isDigit c = true) :
    World.source { input := some (tabIndex value).raw } ['-'] = .ok (tabIndex value).raw := by
  have hraw : (tabIndex value).raw = "tabindex=\"".toList ++ value ++ ['"'] := rfl
  have hreturn : '\r' ∉ (tabIndex value).raw := by
    rw [hraw, List.mem_append, List.mem_append, not_or, not_or]
    exact ⟨⟨by decide, fun h => absurd (hdigits '\r' h) (by decide)⟩, by decide⟩
  change Except.ok (Text.unifyNewlines (tabIndex value).raw) = _
  rw [Text.unifyNewlines_eq_self hreturn]

/-- One digit too many. It is not unfolded, as it is long. -/
@[irreducible] def overlongRun : Text :=
  List.replicate (Fault.digitLimit + 1) '9'

theorem isDigit_of_mem_overlongRun : ∀ c ∈ overlongRun, Text.isDigit c = true := by
  intro c hc
  unfold overlongRun at hc
  rw [List.eq_of_mem_replicate hc]
  decide

theorem digitLimit_lt_length_overlongRun : Fault.digitLimit < overlongRun.length := by
  unfold overlongRun
  rw [List.length_replicate]
  exact Nat.lt_add_one Fault.digitLimit

theorem verify_fails_on_overlong_tabIndex :
    ∃ f n, run (programWords false (verifyWords ['-'] .tabOrder false)) { input := some (tabIndex overlongRun).raw } =
        .finished f ∧
      f.exit = 1 ∧ f.events = [Console.tell .error ("Invalid input: " ++ (Fault.tooManyDigits n).message)] := by
  have hoverlong := overlong_tabIndex isDigit_of_mem_overlongRun digitLimit_lt_length_overlongRun
  have hsource := source_tabIndex isDigit_of_mem_overlongRun
  obtain ⟨hverify, hrun⟩ := verify_fails_only_on_overlong (tabIndex overlongRun).raw
  obtain ⟨n, -, herror⟩ := (hverify (.known .tabOrder)).1 hoverlong
  obtain ⟨f, hfinished, hreports⟩ := hrun _ ['-'] .tabOrder false false rfl hsource
  rw [herror] at hreports
  exact ⟨f, n, hfinished, hreports.1, hreports.2.2⟩

end Accessibility.CommandLine
