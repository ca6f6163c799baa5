import Accessibility.Json.Basic
import Accessibility.Number.Shortest
import Accessibility.Text.Quoted

/-! # How messages show values

A message shows a value on one line: texts in quotes, lists in square and objects in curly brackets, and floating-point
numbers by the shortest decimal that is read as the number. -/

namespace Accessibility.Shown

/-- Digits with the point after the first `whole` of them, and at least one digit on either side of it. -/
def pointed (digits : Text) (whole : Int) : Text :=
  if whole ≤ 0 then '0' :: '.' :: List.replicate (-whole).toNat '0' ++ digits
  else
    let digits := digits ++ List.replicate (whole.toNat - digits.length) '0'
    let fraction := digits.drop whole.toNat
    digits.take whole.toNat ++ '.' :: (if fraction.isEmpty then ['0'] else fraction)

/-- Digits with the point after the first and an exponent of at least two digits. -/
def scientific (digits : Text) (exponent : Int) : Text :=
  let sign := if exponent < 0 then '-' else '+'
  let size := (toString exponent.natAbs).toList
  let size := if size.length < 2 then '0' :: size else size
  digits.take 1 ++ (if digits.length = 1 then [] else '.' :: digits.drop 1) ++ 'e' :: sign :: size

/-- The shortest decimal that is read as the number. Numbers below a ten-thousandth and from ten quadrillion on
have an exponent. -/
def ofReal (x : Float) : String :=
  match Binary64.read x with
  | .nan => "nan"
  | .infinite negative => if negative then "-inf" else "inf"
  | .finite negative size =>
    let sign := if negative then "-" else ""
    if size.mantissa = 0 then sign ++ "0.0"
    else
      let d := Shortest.ofMagnitude size
      let digits := (toString d.digits).toList
      let digits := (digits.reverse.dropWhile (· == '0')).reverse
      let first := d.exponent + (toString d.digits).length - 1
      let shown := if -4 ≤ first ∧ first < 16 then pointed digits (first + 1) else scientific digits first
      sign ++ String.ofList shown

mutual

/-- How a message shows a value. -/
def ofJson : Json → String
  | .null => "None"
  | .bool b => if b then "True" else "False"
  | .integer n => toString n
  | .decimal d => ofReal d.toFloat
  | .text s => String.ofList (Text.quoted s.toList)
  | .array items => "[" ++ ", ".intercalate (ofItems items) ++ "]"
  | .object members => "\x7b" ++ ", ".intercalate (ofMembers members) ++ "\x7d"

def ofItems : List Json → List String
  | [] => []
  | item :: rest => ofJson item :: ofItems rest

def ofMembers : List (String × Json) → List String
  | [] => []
  | (name, value) :: rest =>
    (String.ofList (Text.quoted name.toList) ++ ": " ++ ofJson value) :: ofMembers rest

end

end Accessibility.Shown
