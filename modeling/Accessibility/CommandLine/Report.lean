import Accessibility.Audit.Page
import Accessibility.Color.Contrast
import Accessibility.Console.Event
import Accessibility.Exercise.Activity
import Accessibility.Exercise.Verdict

/-! # Reports on the console -/

namespace Accessibility.CommandLine

open Console (Event)

def severityStyle : Audit.Severity → String
  | .error => "bold red"
  | .warning => "yellow"
  | .info => "cyan"

def issueRow (i : Audit.Issue) : List String :=
  let style := severityStyle i.severity
  ["[" ++ style ++ "]" ++ i.severity.name ++ "[/" ++ style ++ "]",
    i.rule.id, Console.cell i.message, Console.cell i.suggestion]

def issueTable (issues : List Audit.Issue) : Event :=
  .table "Accessibility issues" ["Severity", "Rule", "Message", "Suggestion"] (issues.map issueRow)

/-- The verdict of an audit and, unless it should be quiet, its counts and its issues. -/
def auditEvents (quiet : Bool) (a : Audit) : List Event :=
  let verdict :=
    if a.passed then Console.tell .success s!"PASSED - Score: {a.score}/100"
    else Console.tell .error s!"FAILED - Score: {a.score}/100"
  let counts := s!"{a.errors} errors, {a.warnings} warnings, {a.issues.length} issues total"
  if quiet then [verdict]
  else [verdict, Console.tell .info counts] ++ (if a.issues.isEmpty then [] else [issueTable a.issues])

/-- The verdict of an exercise and, unless it should be quiet, what to do about it and what is announced. -/
def verdictEvents (quiet : Bool) (activity : Activity.Request) (v : Verdict) : List Event :=
  let verdict := Console.tell (if v.passed then .success else .error) (activity.shown ++ ": " ++ v.message)
  let announced :=
    match v.announcement with
    | none | some "" => []
    | some text => [Console.tell .info ("Screen reader: " ++ text)]
  if quiet then [verdict]
  else verdict :: v.details.map (fun detail => Console.status "white" ("  - " ++ detail)) ++ announced

def passOrFail (b : Bool) : String :=
  if b then "pass" else "fail"

/-- A contrast ratio with what it suffices for. -/
def contrastEvents (c : Contrast) (k : Compliance) : List Event :=
  let label := if c.tier = .fail then "Fails WCAG" else "WCAG " ++ c.tier.name
  let line := s!"Contrast ratio {c.ratio.shown}:1 ({label})"
  [Console.tell (if c.passes then .success else .warning) line,
    .table "WCAG compliance" ["Level", "Normal text", "Large text"]
      [["AA", passOrFail k.aaNormal, passOrFail k.aaLarge],
        ["AAA", passOrFail k.aaaNormal, passOrFail k.aaaLarge]]]

end Accessibility.CommandLine
