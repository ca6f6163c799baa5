/-! # The registry of loggers

Loggers are asked for by a key and kept under it. A logger has a full name of its own, and two keys may lead to the
same logger. Only the main logger and those that are set up have a level and a handler. -/

namespace Accessibility.Journal

structure Logger where
  name : String
  level : Int := 0
  handlers : Nat := 0
  deriving Repr, DecidableEq

/-- The loggers that have been set up, and the full names that keys lead to. -/
structure Registry where
  configured : List Logger := []
  keys : List (String × String) := []

namespace Registry

def mainName : String := "accessiquest"

def mainLevel : Int := 20

/-- The full name of a logger that is set up under a key. -/
def setupName (key : String) : String :=
  if key = "" then "root" else key

/-- The full name of a logger that is asked for under a key: a child of the main logger. -/
def childName (key : String) : String :=
  mainName ++ "." ++ key

inductive Step
  | get (key : String)
  | setup (key : String) (level : Int)

/-- The full name that a key leads to. -/
def name? (r : Registry) (key : String) : Option String :=
  (r.keys.find? (·.1 == key)).map (·.2)

/-- The logger of a full name. -/
def logger (r : Registry) (name : String) : Logger :=
  (r.configured.find? (·.name == name)).getD { name }

/-- Lets a key lead to a full name, whatever it led to before. -/
def bind (r : Registry) (key name : String) : Registry :=
  { r with keys := (key, name) :: r.keys.filter (·.1 != key) }

/-- Gives a logger a level and a handler in place of all that it had. -/
def configure (r : Registry) (name : String) (level : Int) : Registry :=
  { r with configured := { name, level, handlers := 1 } :: r.configured.filter (·.name != name) }

def setup (r : Registry) (key : String) (level : Int) : Registry :=
  (r.configure (setupName key) level).bind key (setupName key)

/-- The registry after a step. -/
def step (r : Registry) : Step → Registry
  | .setup key level => r.setup key level
  | .get key =>
    match r.name? key with
    | some _ => r
    | none => if key = mainName then r.setup key mainLevel else r.bind key (childName key)

def Step.key : Step → String
  | .get key => key
  | .setup key _ => key

/-- The logger that a step answers with, given the registry after it. -/
def answer (r : Registry) (s : Step) : Logger :=
  r.logger ((r.name? s.key).getD s.key)

/-- The keys in alphabetical order. -/
def sortedKeys (r : Registry) : List String :=
  (r.keys.map (·.1)).mergeSort fun a b => decide (a ≤ b)

/-- The answers to a list of steps, each with the registry after it. -/
def run (r : Registry) : List Step → List (Logger × Registry)
  | [] => []
  | s :: rest => ((r.step s).answer s, r.step s) :: (r.step s).run rest

end Registry

end Accessibility.Journal
