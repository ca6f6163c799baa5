import Accessibility.CommandLine.Arguments
import Accessibility.CommandLine.Files
import Accessibility.CommandLine.Report
import Accessibility.Exercise.Verify
import Accessibility.Json.Printer

/-! # Running a command -/

namespace Accessibility.CommandLine

open Console (Event)

/-- The surroundings of a run. There is no input when reading it is interrupted. -/
structure World where
  directory : Directory := {}
  input : Option Text := some []
  /-- How the console reads records. -/
  reader : Console.Reader := .literal

/-- What a command does: it records, prints, tells the console, and ends with a code. A fault may keep it from doing
more. -/
structure Performance where
  exit : Nat
  fault : Option Fault := none
  records : List Journal.Record := []
  printed : String := ""
  events : List Event := []

namespace Performance

def exitOf (passed : Bool) : Nat :=
  if passed then 0 else 1

/-- A run that fails with a message. -/
def failure (message : String) : Performance where
  exit := 1
  events := [Console.tell .error message]

def invalid (message : String) : Performance :=
  failure ("Invalid input: " ++ message)

def printJson (j : Json) : String :=
  j.pretty ++ "\n"

/-- Whether a score is below what is required. -/
def isBelow (score : Nat) : Option LeastScore → Except Fault Bool
  | none => .ok false
  | some .missing => .error .notComparable
  | some (.number least) => .ok ((score : Int) < least)

/-- What is told of a score that is too low. -/
def tooLow (score : Nat) : Option LeastScore → List Event
  | some (.number least) => [Console.tell .error s!"Score {score} is below the required {least}"]
  | _ => []

/-- What is done when a fault comes up. -/
def stop (p : Performance) (f : Fault) : Performance :=
  { p with exit := 1, fault := some f }

/-- An audit is reported before its score is compared with what is required. -/
def audit (quiet json : Bool) (failUnder : Option LeastScore) (page : Text) : Performance :=
  let a := Audit.ofPage page
  let reported : Performance :=
    { exit := exitOf a.passed
      records := Journal.ofAudit page
      printed := if json then printJson a.toJson else ""
      events := if json then [] else auditEvents quiet a }
  match isBelow a.score failUnder with
  | .error f => reported.stop f
  | .ok false => reported
  | .ok true =>
    { reported with
      exit := 1
      events := reported.events ++ if json then [] else tooLow a.score failUnder }

def verify (quiet json : Bool) (activity : Activity.Request) (page : Text) : Performance :=
  let records := Journal.ofVerify page activity
  match Exercise.verify page activity with
  | .error f => { invalid f.message with records }
  | .ok v =>
    { exit := exitOf v.passed
      records
      printed := if json then printJson v.toJson else ""
      events := if json then [] else verdictEvents quiet activity v }

/-- A contrast is computed again for its compliance, unless only the data are asked for. -/
def contrast (json : Bool) (foreground background : Value) : Performance :=
  let records := Journal.ofContrast foreground background
  match Contrast.compute foreground background with
  | .error f => { invalid f.message with records }
  | .ok c =>
    if json then { exit := exitOf c.passes, records, printed := printJson c.toJson }
    else
      match Compliance.check foreground background with
      | .error f => { invalid f.message with records := records ++ records }
      | .ok k => { exit := exitOf c.passes, records := records ++ records, events := contrastEvents c k }

end Performance

/-- The file that a command reads. -/
def Command.file? : Command → Option Text
  | audit file _ _ | verify file _ _ => some file
  | contrast .. => none

/-- Why there is no source. -/
inductive SourceFault
  | interrupted
  | unreadable (file : Text) (f : FileFault)

def SourceFault.performance : SourceFault → Performance
  | interrupted => .failure "\nInterrupted by user"
  | unreadable _ .nulInName => .invalid FileFault.nulInName.message
  | unreadable file f => .invalid ("Cannot read " ++ String.ofList file ++ ": " ++ f.message)

/-- The source that a file name stands for; a hyphen stands for the input. -/
def World.source (w : World) (file : Text) : Except SourceFault Text :=
  if file = ['-'] then
    match w.input with
    | none => .error .interrupted
    | some t => .ok (Text.unifyNewlines t)
  else (w.directory.readText file).mapError (.unreadable file)

/-- Carries out a command on its source; a command without a file gets an empty one. -/
def Command.perform (quiet : Bool) (c : Command) (source : Text) : Performance :=
  match c with
  | audit _ json failUnder => .audit quiet json failUnder source
  | verify _ activity json => .verify quiet json activity source
  | contrast foreground background json => .contrast json foreground background

def Command.performIn (quiet : Bool) (c : Command) (w : World) : Performance :=
  match c.file? with
  | none => c.perform quiet []
  | some file =>
    match w.source file with
    | .ok source => c.perform quiet source
    | .error f => f.performance

/-- What comes of a performance when the records that are not below a threshold are shown. They are recorded before
anything else is done, so that one that cannot be read leaves nothing but those before it. -/
def Performance.shownTo (reader : Console.Reader) (threshold : Int) (p : Performance) : Performance :=
  let records := Journal.atLeast threshold p.records
  match reader.firstComplaint? records with
  | none => { p with records }
  | some complaint => stop { exit := 1, records := reader.readable records } (.unreadable complaint)

/-- A record as a line of the log. -/
def logLine (r : Journal.Record) : String :=
  r.source ++ " - " ++ r.level.name ++ " - " ++ r.message ++ "\n"

/-- The end of a run. -/
structure Finish where
  exit : Nat
  printed : String
  events : List Event
  directory : Directory

inductive Outcome
  | finished (f : Finish)
  | refused (r : Refusal)
  /-- A fault ends the run, after what is told and printed before. -/
  | failed (f : Fault) (before : Finish)
  /-- The log cannot be kept. -/
  | noLog (f : FileFault)

/-- The outcome of a run that gets to its command. -/
def Outcome.ofEnd (fault : Option Fault) (f : Finish) : Outcome :=
  fault.elim (finished f) (failed · f)

/-- Opens the log, if one is asked for. -/
def openLog (a : Arguments) (d : Directory) : Except FileFault (Option (List Text) × Directory) :=
  if a.logFile.isEmpty then .ok (none, d) else (d.openLog a.logFile).map fun (path, d) => (some path, d)

/-- The end that a performance comes to: its records go to the console and to the log. -/
def Performance.finish (p : Performance) (log : Option (List Text)) (d : Directory) : Finish where
  exit := p.exit
  printed := p.printed
  events := Console.ofRecords p.records ++ p.events
  directory := log.elim d fun path => d.append path (Utf8.encode (String.join (p.records.map logLine)).toList)

def run (arguments : List Text) (w : World) : Outcome :=
  match readArguments arguments with
  | .error refusal => .refused refusal
  | .ok (a, command) =>
    match openLog a w.directory with
    | .error f => .noLog f
    | .ok (log, directory) =>
      let p := (command.performIn a.quiet { w with directory }).shownTo w.reader a.threshold
      .ofEnd p.fault (p.finish log directory)

end Accessibility.CommandLine
