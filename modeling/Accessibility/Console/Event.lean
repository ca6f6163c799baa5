import Accessibility.Console.Escape
import Accessibility.Journal.Record

/-! # What is handed to the console -/

namespace Accessibility.Console

inductive Event
  | print (text : String)
  | table (title : String) (columns : List String) (rows : List (List String))
  | log (level : Journal.Level) (message : String)
  deriving Repr, DecidableEq

/-- The escaped text of a cell. -/
def cell (s : String) : String :=
  String.ofList (escape s.toList)

/-- A message in a style. The message is escaped, so the only tags are those of the style. -/
def styled (style message : String) : String :=
  "[" ++ style ++ "]" ++ cell message ++ "[/" ++ style ++ "]"

/-- The kinds of messages, each with a sign and a style of its own. -/
inductive Kind
  | status
  | error
  | success
  | warning
  | info
  deriving Repr, DecidableEq

namespace Kind

def sign : Kind → String
  | status => ""
  | error => "❌ "
  | success => "✅ "
  | warning => "⚠️ "
  | info => "ℹ️ "

def style : Kind → String
  | status => "bold blue"
  | error => "bold red"
  | success => "bold green"
  | warning => "bold yellow"
  | info => "bold cyan"

end Kind

def status (style message : String) : Event :=
  .print (styled style message)

def tell (kind : Kind) (message : String) : Event :=
  status kind.style (kind.sign ++ message)

/-! ## Records -/

/-- A text in which no word can be taken for a tag. -/
def Untagged (t : Text) : Prop :=
  t.occurrences backslashedTag = []

instance (t : Text) : Decidable (Untagged t) :=
  inferInstanceAs (Decidable (t.occurrences backslashedTag = []))

/-- How the console reads messages that are not escaped. It complains of a message if it can make no sense of a word
that it takes for a tag. -/
structure Reader where
  complaint? : String → Option String
  /-- Nothing but a tag is complained of. -/
  complaint?_of_untagged {message : String} (h : Untagged message.toList) : complaint? message = none

namespace Reader

/-- The reader that takes no word for a tag. -/
def literal : Reader where
  complaint? _ := none
  complaint?_of_untagged _ := rfl

/-- The complaint about the first record that cannot be read. -/
def firstComplaint? (reader : Reader) (records : List Journal.Record) : Option String :=
  records.findSome? fun r => reader.complaint? r.message

/-- The records before the first that cannot be read. -/
def readable (reader : Reader) (records : List Journal.Record) : List Journal.Record :=
  records.takeWhile fun r => (reader.complaint? r.message).isNone

end Reader

def ofRecords (records : List Journal.Record) : List Event :=
  records.map fun r => .log r.level r.message

end Accessibility.Console
