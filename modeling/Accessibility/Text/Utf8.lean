import Accessibility.Text.Basic

/-! # UTF-8

Decoding never fails: each longest part that begins like a character but does not go on like one, and each byte
that begins none, becomes one replacement character. -/

namespace Accessibility.Utf8

def replacement : Char := '\ufffd'

/-- A character whose first bytes are read: the bits so far, how many bytes are missing, and the range in which the
next of them lies. -/
structure Pending where
  bits : Nat
  missing : Nat
  low : Nat := 0x80
  high : Nat := 0xBF

/-- What a first byte amounts to. -/
inductive Lead
  | whole (c : Char)
  | start (p : Pending)
  | wrong

/-- The bounds on the second byte keep out overlong forms, surrogates and what lies beyond the last code point. -/
def lead (b : UInt8) : Lead :=
  let n := b.toNat
  if n < 0x80 then .whole (Char.ofNat n)
  else if n < 0xC2 then .wrong
  else if n < 0xE0 then .start { bits := n - 0xC0, missing := 1 }
  else if n = 0xE0 then .start { bits := 0, missing := 2, low := 0xA0 }
  else if n = 0xED then .start { bits := 13, missing := 2, high := 0x9F }
  else if n < 0xF0 then .start { bits := n - 0xE0, missing := 2 }
  else if n = 0xF0 then .start { bits := 0, missing := 3, low := 0x90 }
  else if n < 0xF4 then .start { bits := n - 0xF0, missing := 3 }
  else if n = 0xF4 then .start { bits := 4, missing := 3, high := 0x8F }
  else .wrong

/-- The character that a first byte settles, and what it leaves pending. -/
def begin (b : UInt8) : Text × Option Pending :=
  match lead b with
  | .whole c => ([c], none)
  | .start p => ([], some p)
  | .wrong => ([replacement], none)

/-- The same for the next byte of a pending character. A byte that does not continue it is read again as a first
byte. -/
def resume (p : Pending) (b : UInt8) : Text × Option Pending :=
  if p.low ≤ b.toNat ∧ b.toNat ≤ p.high then
    let bits := p.bits * 64 + (b.toNat - 0x80)
    if p.missing = 1 then ([Char.ofNat bits], none) else ([], some { bits, missing := p.missing - 1 })
  else
    let (front, next) := begin b
    (replacement :: front, next)

def decodeFrom : Option Pending → List UInt8 → Text
  | none, [] => []
  | some _, [] => [replacement]
  | none, b :: rest => (begin b).1 ++ decodeFrom (begin b).2 rest
  | some p, b :: rest => (resume p b).1 ++ decodeFrom (resume p b).2 rest

def decode (bytes : List UInt8) : Text :=
  decodeFrom none bytes

def encodeChar (c : Char) : List UInt8 :=
  let n := c.toNat
  let tail (unit : Nat) := UInt8.ofNat (0x80 + n / unit % 0x40)
  if n < 0x80 then [UInt8.ofNat n]
  else if n < 0x800 then [UInt8.ofNat (0xC0 + n / 0x40), tail 1]
  else if n < 0x10000 then [UInt8.ofNat (0xE0 + n / 0x1000), tail 0x40, tail 1]
  else [UInt8.ofNat (0xF0 + n / 0x40000), tail 0x1000, tail 0x40, tail 1]

def encode (t : Text) : List UInt8 :=
  t.flatMap encodeChar

end Accessibility.Utf8
