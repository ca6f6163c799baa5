import Accessibility.CommandLine.Run

/-! # The program -/

namespace Accessibility.CommandLine

/-- An event as lines for the terminal. -/
def showEvent : Console.Event → String
  | .print text => text
  | .log level message => level.name ++ " " ++ message
  | .table title columns rows => "\n".intercalate (title :: (columns :: rows).map (" | ".intercalate ·))

/-- The number that the system gives to the reading of a directory. -/
def directoryCode : UInt32 := 21

/-- Reads a file; what is wrong with its name is an answer, and any other failure ends the program. -/
def readFile (file : Text) : IO (Except FileFault (List UInt8)) := do
  if '\x00' ∈ file then return .error .nulInName
  try
    return .ok (← IO.FS.readBinFile (String.ofList file)).toList
  catch
    | .noFileOrDirectory .. => return .error .notFound
    | .inappropriateType _ code _ =>
      return .error (if code = directoryCode then .isDirectory else .notDirectory)
    | .invalidArgument .. => return .error .nameTooLong
    | e => throw e

/-- The source that a file name stands for. -/
def readSource (file : Text) : IO (Except SourceFault Text) := do
  if file = ['-'] then
    let bytes ← (← IO.getStdin).readBinToEnd
    return ({ input := some (Utf8.decode bytes.toList) } : World).source file
  else
    match ← readFile file with
    | .ok bytes => return .ok (Text.unifyNewlines (Utf8.decode bytes))
    | .error f => return .error (.unreadable file f)

def perform (a : Arguments) (command : Command) : IO Performance := do
  match command.file? with
  | none => return command.perform a.quiet []
  | some file =>
    match ← readSource file with
    | .ok source => return command.perform a.quiet source
    | .error f => return f.performance

end Accessibility.CommandLine

open Accessibility.CommandLine in
def main (arguments : List String) : IO UInt32 := do
  match readArguments (arguments.map String.toList) with
  | .error .help =>
    IO.println "usage: accessiquest [-h] [--verbose] [--quiet] [--log-file LOG_FILE] [audit|verify|contrast] ..."
    return 0
  | .error (.usage program complaint) =>
    IO.eprintln (Refusal.line program complaint)
    return 2
  | .ok (a, command) =>
    let log ← if a.logFile.isEmpty then pure none else some <$> IO.FS.Handle.mk (String.ofList a.logFile) .append
    let p := (← perform a command).shownTo .literal a.threshold
    if let some log := log then
      log.putStr (String.join (p.records.map logLine))
    for event in Accessibility.Console.ofRecords p.records ++ p.events do
      IO.println (showEvent event)
    IO.print p.printed
    if let some fault := p.fault then IO.eprintln fault.message
    return p.exit.toUInt32
