import Accessibility.Json.Basic
import Accessibility.Text.Basic

/-! # Reading the data format -/

namespace Accessibility.Json

def isSpace (c : Char) : Bool :=
  c == ' ' || c == '\n' || c == '\r' || c == '\t'

def skipSpace (t : Text) : Text :=
  t.dropWhile isSpace

def hexValue? (c : Char) : Option Nat :=
  if '0' ≤ c ∧ c ≤ '9' then some (c.toNat - '0'.toNat)
  else if 'a' ≤ c ∧ c ≤ 'f' then some (c.toNat - 'a'.toNat + 10)
  else if 'A' ≤ c ∧ c ≤ 'F' then some (c.toNat - 'A'.toNat + 10)
  else none

/-- The unit of sixteen bits that four hexadecimal digits denote. -/
def unit? (a b c d : Char) : Option Nat :=
  (hexValue? a).bind fun a => (hexValue? b).bind fun b => (hexValue? c).bind fun c => (hexValue? d).map fun d =>
    ((a * 16 + b) * 16 + c) * 16 + d

/-- The character that a pair of units denotes. -/
def pair? (high low : Nat) : Option Char :=
  if 0xD800 ≤ high ∧ high < 0xDC00 ∧ 0xDC00 ≤ low ∧ low < 0xE000 then
    some (Char.ofNat (0x10000 + (high - 0xD800) * 0x400 + (low - 0xDC00)))
  else none

/-- The character that a unit denotes alone. -/
def single? (n : Nat) : Option Char :=
  if 0xD800 ≤ n ∧ n < 0xE000 then none else some (Char.ofNat n)

/-- The character of an escape of one letter. -/
def escaped? (c : Char) : Option Char :=
  if c = '"' ∨ c = '\\' ∨ c = '/' then some c
  else if c = 'n' then some '\n'
  else if c = 'r' then some '\r'
  else if c = 't' then some '\t'
  else if c = 'b' then some '\x08'
  else if c = 'f' then some '\x0c'
  else none

/-- Reads the inside of a quoted text and the quote that ends it. -/
def readInside : Text → Option (Text × Text)
  | [] => none
  | '"' :: rest => some ([], rest)
  | '\\' :: 'u' :: a :: b :: c :: d :: '\\' :: 'u' :: e :: f :: g :: h :: rest =>
    match unit? a b c d with
    | none => none
    | some n =>
      match single? n with
      | some x => (readInside ('\\' :: 'u' :: e :: f :: g :: h :: rest)).map fun (t, after) => (x :: t, after)
      | none =>
        ((unit? e f g h).bind (pair? n)).bind fun x => (readInside rest).map fun (t, after) => (x :: t, after)
  | '\\' :: 'u' :: a :: b :: c :: d :: rest =>
    ((unit? a b c d).bind single?).bind fun x => (readInside rest).map fun (t, after) => (x :: t, after)
  | '\\' :: c :: rest =>
    (escaped? c).bind fun x => (readInside rest).map fun (t, after) => (x :: t, after)
  | c :: rest => (readInside rest).map fun (t, after) => (c :: t, after)

def digits (t : Text) : Text :=
  t.takeWhile Char.isDigit

def ofDigits (digits : Text) : Nat :=
  digits.foldl (fun n d => 10 * n + (d.toNat - '0'.toNat)) 0

/-- The exponent at the front of a text: its sign and digits. -/
def exponent? : Text → Option (Int × Text)
  | e :: rest =>
    if e = 'e' ∨ e = 'E' then
      let (negative, rest) :=
        match rest with
        | '-' :: rest => (true, rest)
        | '+' :: rest => (false, rest)
        | rest => (false, rest)
      let run := digits rest
      if run.isEmpty then none
      else some (if negative then -ofDigits run else ofDigits run, rest.drop run.length)
    else none
  | [] => none

/-- The digits after a point at the front of a text. -/
def fraction? : Text → Option (Text × Text)
  | '.' :: rest =>
    let run := digits rest
    if run.isEmpty then none else some (run, rest.drop run.length)
  | _ => none

/-- Reads a number. With a fraction or an exponent it is no integer, whatever its value. -/
def readNumber (t : Text) : Option (Json × Text) :=
  let (negative, rest) :=
    match t with
    | '-' :: rest => (true, rest)
    | rest => (false, rest)
  let run := digits rest
  let rest := rest.drop run.length
  if run.isEmpty then none
  else
    match fraction? rest, exponent? rest with
    | none, none => some (integer (if negative then -ofDigits run else ofDigits run), rest)
    | none, some (e, rest) => some (decimal ⟨negative, ofDigits run, e⟩, rest)
    | some (fraction, rest), _ =>
      let (e, rest) := (exponent? rest).getD (0, rest)
      some (decimal ⟨negative, ofDigits (run ++ fraction), e - fraction.length⟩, rest)

mutual

/-- Reads a value. The first argument bounds the number of nested steps. -/
def readValue : Nat → Text → Option (Json × Text)
  | 0, _ => none
  | fuel + 1, t =>
    match skipSpace t with
    | '"' :: rest => (readInside rest).map fun (s, after) => (text (String.ofList s), after)
    | '[' :: rest =>
      match skipSpace rest with
      | ']' :: after => some (array [], after)
      | rest => (readItems fuel rest).map fun (items, after) => (array items, after)
    | '\x7b' :: rest =>
      match skipSpace rest with
      | '\x7d' :: after => some (object [], after)
      | rest => (readMembers fuel rest).map fun (members, after) => (object members, after)
    | 'n' :: rest => (Text.dropWord? "ull".toList rest).map fun after => (null, after)
    | 't' :: rest => (Text.dropWord? "rue".toList rest).map fun after => (bool true, after)
    | 'f' :: rest => (Text.dropWord? "alse".toList rest).map fun after => (bool false, after)
    | t => readNumber t

def readItems : Nat → Text → Option (List Json × Text)
  | 0, _ => none
  | fuel + 1, t =>
    match readValue fuel t with
    | none => none
    | some (item, rest) =>
      match skipSpace rest with
      | ']' :: after => some ([item], after)
      | ',' :: rest => (readItems fuel rest).map fun (items, after) => (item :: items, after)
      | _ => none

def readMembers : Nat → Text → Option (List (String × Json) × Text)
  | 0, _ => none
  | fuel + 1, t =>
    match skipSpace t with
    | '"' :: rest =>
      match readInside rest with
      | none => none
      | some (name, rest) =>
        match skipSpace rest with
        | ':' :: rest =>
          match readValue fuel rest with
          | none => none
          | some (value, rest) =>
            match skipSpace rest with
            | '\x7d' :: after => some ([(String.ofList name, value)], after)
            | ',' :: rest =>
              (readMembers fuel rest).map fun (members, after) => ((String.ofList name, value) :: members, after)
            | _ => none
        | _ => none
    | _ => none

end

/-- Reads a text that holds one value and nothing else. -/
def read? (t : Text) : Option Json :=
  match readValue (t.length + 1) t with
  | some (value, rest) => if (skipSpace rest).isEmpty then some value else none
  | none => none

end Accessibility.Json
