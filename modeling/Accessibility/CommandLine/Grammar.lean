import Accessibility.Text.Basic
import Accessibility.Text.Digit
import Accessibility.Text.Quoted

/-! # Reading the arguments of a command

A command has options, which start with a hyphen, and positional arguments. Long options may be shortened as long
as they stay unique, and short ones may be joined. After a separator of two hyphens everything is positional. -/

namespace Accessibility.CommandLine

/-- What is wrong with the arguments of a command. -/
inductive Complaint
  | required (names : List Text)
  | unrecognized (arguments : List Text)
  | ambiguous (argument : Text) (names : List Text)
  | argumentExpected (name : Text)
  | argumentIgnored (name argument : Text)
  | invalidChoice (name value : Text) (choices : List Text)
  | invalidInteger (name value : Text)
  deriving Repr, DecidableEq

namespace Complaint

def join (separator : String) (ts : List Text) : String :=
  separator.intercalate (ts.map String.ofList)

def message : Complaint → String
  | required names => "the following arguments are required: " ++ join ", " names
  | unrecognized arguments => "unrecognized arguments: " ++ join " " arguments
  | ambiguous argument names =>
    "ambiguous option: " ++ String.ofList argument ++ " could match " ++ join ", " names
  | argumentExpected name => about name "expected one argument"
  | argumentIgnored name argument => about name ("ignored explicit argument " ++ join "" [argument.quoted])
  | invalidChoice name value choices =>
    about name ("invalid choice: " ++ join "" [value.quoted] ++
      " (choose from " ++ join ", " (choices.map Text.quoted) ++ ")")
  | invalidInteger name value => about name ("invalid int value: " ++ join "" [value.quoted])
where
  about (name : Text) (what : String) : String :=
    "argument " ++ String.ofList name ++ ": " ++ what

end Complaint

/-- Why a command is not carried out: help is asked for, or its arguments are wrong. -/
inductive Refusal
  | help
  | usage (program : String) (complaint : Complaint)
  deriving Repr, DecidableEq

/-- The last line of the message about wrong arguments. -/
def Refusal.line (program : String) (complaint : Complaint) : String :=
  let t := (program ++ ": error: " ++ complaint.message).toList
  let kept := (t.reverse.dropWhile (· == '\n')).takeWhile (· != '\n')
  String.ofList kept.reverse

/-- What an option does to the settings. The value of an option may be missing although an argument stands there. -/
inductive Effect (σ : Type)
  | help
  | flag (set : σ → σ)
  | value (set : Option Text → σ → Except Complaint σ)

structure OptionRule (σ : Type) where
  names : List Text
  effect : Effect σ
  isRequired : Bool := false

namespace OptionRule

variable {σ : Type}

def takesValue (rule : OptionRule σ) : Bool :=
  match rule.effect with
  | .value _ => true
  | _ => false

/-- All names of the option, as messages give them. -/
def title (rule : OptionRule σ) : Text :=
  ['/'].intercalate rule.names

end OptionRule

structure PositionalRule (σ : Type) where
  name : Text
  /-- Whether it takes all that is left. -/
  takesRest : Bool := false
  set : List Text → σ → Except Refusal σ

structure Grammar (σ : Type) where
  program : String
  options : List (OptionRule σ)
  positionals : List (PositionalRule σ)

/-- The word after which everything is positional. -/
def separatorWord : Text := ['-', '-']

/-- A word of the arguments, as it is read before anything is done. An option may have its argument in the same
word. -/
inductive Word (σ : Type)
  | plain (written : Text)
  | separator
  | unknown (written : Text)
  | option (written : Text) (rule : OptionRule σ) (name : Text) (argument : Option Text)

namespace Word

variable {σ : Type}

def written : Word σ → Text
  | plain w | unknown w | option w _ _ _ => w
  | separator => separatorWord

def isOption : Word σ → Bool
  | plain _ | separator => false
  | _ => true

def isSeparator : Word σ → Bool
  | separator => true
  | _ => false

end Word

/-- A hyphen and a number; a line feed may follow. -/
def isNegativeNumber : Text → Bool
  | '-' :: t =>
    let t := if t.getLast? = some '\n' then t.dropLast else t
    let fraction := (t.dropWhile Text.isDigit).drop 1
    (!t.isEmpty && t.all Text.isDigit) ||
      ((t.dropWhile Text.isDigit).head? == some '.' && !fraction.isEmpty && fraction.all Text.isDigit)
  | _ => false

namespace Grammar

variable {σ : Type}

/-- Every name of an option with its rule. -/
def named (g : Grammar σ) : List (Text × OptionRule σ) :=
  g.options.flatMap fun rule => rule.names.map (·, rule)

def find? (g : Grammar σ) (name : Text) : Option (OptionRule σ) :=
  (g.named.find? (·.1 == name)).map (·.2)

/-- An option before an equals sign, and what stands after it. -/
def splitEquals (t : Text) : Text × Option Text :=
  (t.upTo '=', t.after? '=')

/-- The options that a word may stand for, short of being the name of one. -/
def candidates (g : Grammar σ) (w : Text) : List (Word σ) :=
  if ['-', '-'].isPrefixOf w then
    let (front, argument) := splitEquals w
    (g.named.filter fun (name, _) => front.isPrefixOf name).map fun (name, rule) => .option w rule name argument
  else
    g.named.filterMap fun (name, rule) =>
      if name = w.take 2 then some (.option w rule name (some (w.drop 2)))
      else if w.isPrefixOf name then some (.option w rule name none)
      else none

/-- How a word before the separator is read. -/
def readWord (g : Grammar σ) (w : Text) : Except Complaint (Word σ) :=
  if w.head? ≠ some '-' then .ok (.plain w)
  else
    match g.find? w with
    | some rule => .ok (.option w rule w none)
    | none =>
      if w.length = 1 then .ok (.plain w)
      else
        let (front, argument) := splitEquals w
        match argument, g.find? front with
        | some argument, some rule => .ok (.option w rule front (some argument))
        | _, _ =>
          match g.candidates w with
          | [one] => .ok one
          | [] => .ok (if isNegativeNumber w || w.contains ' ' then .plain w else .unknown w)
          | many =>
            .error (.ambiguous w (many.filterMap fun
              | .option _ _ name _ => some name
              | _ => none))

def readWords (g : Grammar σ) : List Text → Except Complaint (List (Word σ))
  | [] => .ok []
  | w :: rest =>
    if w = separatorWord then .ok (.separator :: rest.map .plain)
    else do return (← g.readWord w) :: (← g.readWords rest)

/-- What the word of an option comes to: the options in it that are settled, and one that may take its argument from
the next word. -/
structure Unfolded (σ : Type) where
  settled : List (OptionRule σ × Text) := []
  last : Option (OptionRule σ) := none

def Unfolded.after (rule : OptionRule σ) (u : Unfolded σ) : Unfolded σ :=
  { u with settled := (rule, []) :: u.settled }

/-- Unfolds a short option and what is joined to it. That is the argument of an option with a value; otherwise it
starts with the letter of another option. -/
def unfoldJoined (g : Grammar σ) (rule : OptionRule σ) : Text → Except Complaint (Unfolded σ)
  | [] => .ok { last := some rule }
  | c :: rest =>
    if rule.takesValue then .ok { settled := [(rule, c :: rest)] }
    else
      match g.find? ['-', c] with
      | none => .error (.argumentIgnored rule.title (c :: rest))
      | some next => (g.unfoldJoined next rest).map (.after rule)

/-- Unfolds the word of an option with its name and the argument in it. An argument that is empty is still one. -/
def unfold (g : Grammar σ) (rule : OptionRule σ) (name : Text) : Option Text → Except Complaint (Unfolded σ)
  | none => .ok { last := some rule }
  | some argument =>
    if rule.takesValue then .ok { settled := [(rule, argument)] }
    else if separatorWord.isPrefixOf name || argument.isEmpty then .error (.argumentIgnored rule.title argument)
    else g.unfoldJoined rule argument

/-- The settings so far, the options seen, and the words that nothing takes. -/
structure State (σ : Type) where
  settings : σ
  seen : List Text := []
  extras : List Text := []

/-- The value that an argument gives. The word that separates gives none, wherever it stands. -/
def value? (argument : Text) : Option Text :=
  if argument = separatorWord then none else some argument

/-- Carries out an option. -/
def apply (g : Grammar σ) (st : State σ) : OptionRule σ × Text → Except Refusal (State σ)
  | (rule, argument) =>
    let st := { st with seen := rule.title :: st.seen }
    match rule.effect with
    | .help => .error .help
    | .flag set => .ok { st with settings := set st.settings }
    | .value set =>
      match set (value? argument) st.settings with
      | .ok settings => .ok { st with settings }
      | .error complaint => .error (.usage g.program complaint)

/-- Carries out all options of an unfolded word; the answer tells whether the next word was taken. -/
def applyUnfolded (g : Grammar σ) (st : State σ) (u : Unfolded σ) (next : Option (Word σ)) :
    Except Refusal (State σ × Bool) := do
  match u.last with
  | none => return (← u.settled.foldlM g.apply st, false)
  | some rule =>
    if rule.takesValue then
      match next with
      | some (.plain argument) => return (← (u.settled ++ [(rule, argument)]).foldlM g.apply st, true)
      | _ => throw (.usage g.program (.argumentExpected rule.title))
    else return (← (u.settled ++ [(rule, [])]).foldlM g.apply st, false)

/-- The words that one positional argument takes, with separators around its word, and the words after them. -/
def takePositional (takesRest : Bool) (words : List (Word σ)) : Option (List (Word σ) × List (Word σ)) :=
  match words.dropWhile Word.isSeparator with
  | .plain w :: rest =>
    let front := words.takeWhile Word.isSeparator ++ [.plain w]
    if takesRest then some (front ++ rest, [])
    else some (front ++ rest.takeWhile Word.isSeparator, rest.dropWhile Word.isSeparator)
  | _ => none

/-- Lets as many positional arguments as possible take words. The separator itself is no argument, except for one
that takes all that is left. -/
def takePositionals : List (PositionalRule σ) → State σ → List (Word σ) →
    Except Refusal (List (PositionalRule σ) × State σ × List (Word σ))
  | [], st, words => .ok ([], st, words)
  | rule :: pending, st, words =>
    match takePositional rule.takesRest words with
    | none => .ok (rule :: pending, st, words)
    | some (taken, rest) =>
      let written := taken.map Word.written
      match rule.set (if rule.takesRest then written else written.erase separatorWord) st.settings with
      | .error refusal => .error refusal
      | .ok settings => takePositionals pending { st with settings } rest

/-- Reads the words in turn. Each step takes at least one word; the first argument bounds the number of steps. -/
def readAll (g : Grammar σ) : Nat → List (PositionalRule σ) → State σ → List (Word σ) →
    Except Refusal (List (PositionalRule σ) × State σ)
  | 0, pending, st, _ => .ok (pending, st)
  | _, pending, st, [] => .ok (pending, st)
  | fuel + 1, pending, st, .unknown w :: rest => g.readAll fuel pending { st with extras := st.extras ++ [w] } rest
  | fuel + 1, pending, st, .option _ rule name inline :: rest =>
    match g.unfold rule name inline with
    | .error complaint => .error (.usage g.program complaint)
    | .ok u =>
      match g.applyUnfolded st u rest.head? with
      | .error refusal => .error refusal
      | .ok (st, taken) => g.readAll fuel pending st (if taken then rest.drop 1 else rest)
  | fuel + 1, pending, st, words =>
    match takePositionals pending st words with
    | .error refusal => .error refusal
    | .ok (pending, st, rest) =>
      if rest.length < words.length then g.readAll fuel pending st rest
      else
        let extras := words.takeWhile (!·.isOption)
        g.readAll fuel pending { st with extras := st.extras ++ extras.map Word.written }
          (words.dropWhile (!·.isOption))

/-- The settings that the arguments lead to, and the words that nothing takes. -/
def read (g : Grammar σ) (settings : σ) (arguments : List Text) : Except Refusal (σ × List Text) :=
  match g.readWords arguments with
  | .error complaint => .error (.usage g.program complaint)
  | .ok words =>
    match g.readAll words.length g.positionals { settings } words with
    | .error refusal => .error refusal
    | .ok (pending, st) =>
      let options := g.options.filter fun rule => rule.isRequired && !st.seen.contains rule.title
      let missing := pending.map (·.name) ++ options.map (·.title)
      if missing.isEmpty then .ok (st.settings, st.extras)
      else .error (.usage g.program (.required missing))

end Grammar

end Accessibility.CommandLine
