import Accessibility.CommandLine.Grammar
import Accessibility.Exercise.Activity
import Accessibility.Journal.Record
import Accessibility.Number.Numeral

/-! # The arguments of the program

Before the name of one of three commands stand the options of the program, and behind it those of the command. -/

namespace Accessibility.CommandLine

/-- The least score that an audit is asked for. It cannot be compared with if its option is given without a number. -/
inductive LeastScore
  | number (n : Int)
  | missing
  deriving Repr, DecidableEq

/-- What is to be done. -/
inductive Command
  | audit (file : Text) (json : Bool) (failUnder : Option LeastScore)
  | verify (file : Text) (activity : Activity.Request) (json : Bool)
  | contrast (foreground background : Value) (json : Bool)
  deriving Repr, DecidableEq

structure Arguments where
  verbose : Bool := false
  quiet : Bool := false
  /-- The file to which records are appended; an empty name stands for none. -/
  logFile : Text := []
  command : Option Command := none
  /-- Words that the command did not take. -/
  leftOver : List Text := []

namespace Arguments

/-- The least weight of the records that are let through. -/
def threshold (a : Arguments) : Int :=
  if a.verbose then Journal.Level.debug.weight
  else if a.quiet then Journal.Level.warning.weight
  else Journal.Level.info.weight

end Arguments

variable {σ : Type}

/-- The option that every command has. -/
def helpOption : OptionRule σ where
  names := ["-h".toList, "--help".toList]
  effect := .help

def flagOption (names : List String) (set : σ → σ) : OptionRule σ where
  names := names.map String.toList
  effect := .flag set

def jsonOption (set : σ → σ) : OptionRule σ :=
  flagOption ["--json"] set

/-- A positional argument of one word. -/
def wordPositional (name : String) (set : Text → σ → σ) : PositionalRule σ where
  name := name.toList
  set := fun words st => .ok (set (words.head?.getD []) st)

/-- How a value that is missing is shown. -/
def missingShown : String := "[]"

/-- A positional argument that a value is made of. The word that separates makes it a missing one. -/
def valuePositional (name : String) (set : Value → σ → σ) : PositionalRule σ where
  name := name.toList
  set := fun words st => .ok (set (words.head?.elim (.other missingShown) .text) st)

structure AuditArguments where
  file : Text := []
  json : Bool := false
  failUnder : Option LeastScore := none

def readLeastScore (value : Option Text) (a : AuditArguments) : Except Complaint AuditArguments :=
  match value with
  | none => .ok { a with failUnder := some .missing }
  | some numeral =>
    match Numeral.read? 10 numeral with
    | some n => .ok { a with failUnder := some (.number n) }
    | none => .error (.invalidInteger "--fail-under".toList numeral)

def auditGrammar : Grammar AuditArguments where
  program := "accessiquest audit"
  options := [
    helpOption,
    jsonOption fun a => { a with json := true },
    { names := ["--fail-under".toList], effect := .value readLeastScore }]
  positionals := [wordPositional "file" fun file a => { a with file }]

structure VerifyArguments where
  file : Text := []
  activity : Activity.Request := .unknown missingShown
  json : Bool := false

def readActivity (value : Option Text) (a : VerifyArguments) : Except Complaint VerifyArguments :=
  match value with
  | none => .ok { a with activity := .unknown missingShown }
  | some tag =>
    match Activity.ofTag? tag with
    | some activity => .ok { a with activity := .known activity }
    | none => .error (.invalidChoice "--activity/-a".toList tag (Activity.all.map (·.tag.toList)))

def verifyGrammar : Grammar VerifyArguments where
  program := "accessiquest verify"
  options := [
    helpOption,
    { names := ["--activity".toList, "-a".toList], effect := .value readActivity, isRequired := true },
    jsonOption fun a => { a with json := true }]
  positionals := [wordPositional "file" fun file a => { a with file }]

structure ContrastArguments where
  foreground : Value := .text []
  background : Value := .text []
  json : Bool := false

def contrastGrammar : Grammar ContrastArguments where
  program := "accessiquest contrast"
  options := [helpOption, jsonOption fun a => { a with json := true }]
  positionals := [
    valuePositional "foreground" fun foreground a => { a with foreground },
    valuePositional "background" fun background a => { a with background }]

/-- The names of the commands. -/
def commandNames : List Text := ["audit".toList, "verify".toList, "contrast".toList]

/-- The name of the program, before those of its commands. -/
def programName : String := "accessiquest"

def unknownCommand (name : Text) : Refusal :=
  .usage programName (.invalidChoice "command".toList name commandNames)

/-- Reads the name of a command and its arguments. -/
def readCommand (words : List Text) : Except Refusal (Command × List Text) :=
  match words with
  | [] => .error (unknownCommand [])
  | name :: rest =>
    if name = "audit".toList then
      (auditGrammar.read {} rest).map fun (a, extras) => (.audit a.file a.json a.failUnder, extras)
    else if name = "verify".toList then
      (verifyGrammar.read {} rest).map fun (a, extras) => (.verify a.file a.activity a.json, extras)
    else if name = "contrast".toList then
      (contrastGrammar.read {} rest).map fun (a, extras) => (.contrast a.foreground a.background a.json, extras)
    else .error (unknownCommand name)

def grammar : Grammar Arguments where
  program := programName
  options := [
    helpOption,
    flagOption ["--verbose", "-v"] fun a => { a with verbose := true },
    flagOption ["--quiet", "-q"] fun a => { a with quiet := true },
    { names := ["--log-file".toList], effect := .value fun name a => .ok { a with logFile := name.getD [] } }]
  positionals := [{
    name := "command".toList
    takesRest := true
    set := fun words a =>
      (readCommand words).map fun (command, leftOver) => { a with command := some command, leftOver } }]

/-- The arguments with the command, or why there is none. -/
def readArguments (words : List Text) : Except Refusal (Arguments × Command) := do
  let (a, extras) ← grammar.read {} words
  let extras := extras ++ a.leftOver
  if !extras.isEmpty then throw (.usage programName (.unrecognized extras))
  match a.command with
  | some command => return (a, command)
  | none => throw (.usage programName (.required ["command".toList]))

end Accessibility.CommandLine
