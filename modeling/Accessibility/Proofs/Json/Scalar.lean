import Accessibility.Json.Printer
import Accessibility.Json.Reader
import Accessibility.Proofs.Number.Numeral
import Accessibility.Proofs.Text.Utf8

/-! # Reading the texts and integers that are printed

Each printed character is read back as itself whatever stands behind it, a pair of units included. A text ends at its
quote, and an integer at the first character that does not continue a number. -/

namespace Accessibility.Json

open Text (hexDigit)

/-! ## Units -/

theorem hexValue?_hexDigit : ∀ d < 16, hexValue? (hexDigit d) = some d := by
  decide

/-- The four digits of a unit. -/
theorem escapeUnit_eq (n : Nat) :
    escapeUnit n = ['\\', 'u', hexDigit (n / 16 / 16 / 16 % 16), hexDigit (n / 16 / 16 % 16), hexDigit (n / 16 % 16),
      hexDigit (n % 16)] := rfl

theorem unit?_hexDigits {n : Nat} (h : n < 0x10000) :
    unit? (hexDigit (n / 16 / 16 / 16 % 16)) (hexDigit (n / 16 / 16 % 16)) (hexDigit (n / 16 % 16))
      (hexDigit (n % 16)) = some n := by
  have hdigit : ∀ m : Nat, hexValue? (hexDigit (m % 16)) = some (m % 16) :=
    fun m => hexValue?_hexDigit _ (Nat.mod_lt m (by decide))
  simp only [unit?, hdigit, Option.bind_some, Option.map_some, Option.some.injEq]
  omega

/-- A unit that denotes a character alone, also where another unit follows. -/
theorem readInside_single {a b c d x : Char} {n : Nat} (hunit : unit? a b c d = some n) (hsingle : single? n = some x)
    (rest : Text) :
    readInside ('\\' :: 'u' :: a :: b :: c :: d :: rest) = (readInside rest).map fun (t, after) => (x :: t, after) := by
  rw [readInside.eq_def]
  split <;> grind

theorem readInside_pair {a b c d e f g h x : Char} {high low : Nat} (hhigh : unit? a b c d = some high)
    (hnone : single? high = none) (hlow : unit? e f g h = some low) (hpair : pair? high low = some x) (rest : Text) :
    readInside ('\\' :: 'u' :: a :: b :: c :: d :: '\\' :: 'u' :: e :: f :: g :: h :: rest) =
      (readInside rest).map fun (t, after) => (x :: t, after) := by
  simp only [readInside, hhigh, hnone, hlow, Option.bind_some, hpair]

theorem readInside_escaped {c x : Char} (hc : c ≠ 'u') (hescaped : escaped? c = some x) (rest : Text) :
    readInside ('\\' :: c :: rest) = (readInside rest).map fun (t, after) => (x :: t, after) := by
  rw [readInside.eq_def]
  split <;> grind

theorem readInside_cons {c : Char} (hquote : c ≠ '"') (hslash : c ≠ '\\') (rest : Text) :
    readInside (c :: rest) = (readInside rest).map fun (t, after) => (c :: t, after) := by
  rw [readInside.eq_def]
  split <;> grind

/-! ## Texts -/

theorem single?_toNat (c : Char) : single? c.toNat = some c := by
  have hbounds := Utf8.toNat_bounds c
  rw [single?, if_neg (by omega), Char.ofNat_toNat]

/-- The pair of units of a character beyond the sixteen-bit range. -/
theorem pair?_toNat {c : Char} (h : 0x10000 ≤ c.toNat) :
    pair? (0xD800 + (c.toNat - 0x10000) / 0x400) (0xDC00 + (c.toNat - 0x10000) % 0x400) = some c := by
  have hbounds := Utf8.toNat_bounds c
  have hsum : 0x10000 + (0xD800 + (c.toNat - 0x10000) / 0x400 - 0xD800) * 0x400 +
      (0xDC00 + (c.toNat - 0x10000) % 0x400 - 0xDC00) = c.toNat := by omega
  rw [pair?, if_pos (by omega), hsum, Char.ofNat_toNat]

/-- A character is printed behind a backslash as its letter, as itself, as its unit, or as its pair of units. -/
theorem printChar_cases (c : Char) :
    (∃ letter, printChar c = ['\\', letter] ∧ escaped? letter = some c ∧ letter ≠ 'u' ∧ ' ' ≤ letter ∧ letter ≤ '~') ∨
    (printChar c = [c] ∧ c ≠ '"' ∧ c ≠ '\\' ∧ ' ' ≤ c ∧ c ≤ '~') ∨
    (printChar c = escapeUnit c.toNat ∧ c.toNat < 0x10000) ∨
    printChar c = escapeUnit (0xD800 + (c.toNat - 0x10000) / 0x400) ++
        escapeUnit (0xDC00 + (c.toNat - 0x10000) % 0x400) ∧ 0x10000 ≤ c.toNat := by
  by_cases hletter : c ∈ ['"', '\\', '\n', '\r', '\t', '\x08', '\x0c']
  · simp only [List.mem_cons, List.not_mem_nil, or_false] at hletter
    rcases hletter with rfl | rfl | rfl | rfl | rfl | rfl | rfl <;> exact .inl ⟨_, rfl, rfl, by decide⟩
  · simp only [List.mem_cons, List.not_mem_nil, or_false, not_or] at hletter
    obtain ⟨hquote, hslash, hothers⟩ := hletter
    simp only [printChar, hquote, hslash, hothers, or_self, if_false]
    by_cases hplain : ' ' ≤ c ∧ c ≤ '~'
    · exact .inr (.inl ⟨if_pos hplain, hquote, hslash, hplain⟩)
    rw [if_neg hplain]
    by_cases hsmall : c.toNat < 0x10000
    · exact .inr (.inr (.inl ⟨if_pos hsmall, hsmall⟩))
    · exact .inr (.inr (.inr ⟨if_neg hsmall, Nat.le_of_not_lt hsmall⟩))

/-- What is printed for a character is read as that character. -/
theorem readInside_printChar (c : Char) (rest : Text) :
    readInside (printChar c ++ rest) = (readInside rest).map fun (t, after) => (c :: t, after) := by
  obtain ⟨letter, hprint, hescaped, hu, -⟩ | ⟨hprint, hquote, hslash, -⟩ | ⟨hprint, hsmall⟩ | ⟨hprint, hlarge⟩ :=
    printChar_cases c
  · rw [hprint]
    exact readInside_escaped hu hescaped rest
  · rw [hprint]
    exact readInside_cons hquote hslash rest
  · rw [hprint]
    exact readInside_single (unit?_hexDigits hsmall) (single?_toNat c) rest
  · rw [hprint]
    have hbounds := Utf8.toNat_bounds c
    have hhigh : 0xD800 ≤ 0xD800 + (c.toNat - 0x10000) / 0x400 ∧ 0xD800 + (c.toNat - 0x10000) / 0x400 < 0xE000 := by
      omega
    exact readInside_pair (unit?_hexDigits (by omega)) (if_pos hhigh) (unit?_hexDigits (by omega))
      (pair?_toNat hlarge) rest

/-- A printed text ends at its quote. -/
theorem readInside_flatMap_printChar (t rest : Text) :
    readInside (t.flatMap printChar ++ '"' :: rest) = some (t, rest) := by
  induction t with
  | nil => simp [readInside]
  | cons c t ih =>
      rw [List.flatMap_cons, List.append_assoc, readInside_printChar, ih]
      rfl

/-! ## Integers -/

/-- What may stand behind a number that is printed. -/
def Delimited (rest : Text) : Prop :=
  ∀ c ∈ rest.head?, c = ',' ∨ c = '\n'

theorem digits_append {run rest : Text} (hrun : ∀ c ∈ run, c.isDigit = true) (hrest : Delimited rest) :
    digits (run ++ rest) = run := by
  have hnone : rest.takeWhile Char.isDigit = [] := by
    cases rest with
    | nil => rfl
    | cons c rest =>
        refine List.takeWhile_cons_of_neg ?_
        rcases hrest c rfl with rfl | rfl <;> decide
  rw [digits, List.takeWhile_append_of_pos hrun, hnone, List.append_nil]

theorem fraction?_of_delimited {rest : Text} (h : Delimited rest) : fraction? rest = none := by
  unfold fraction?
  split
  · exact absurd (h '.' rfl) (by decide)
  · rfl

theorem exponent?_of_delimited {rest : Text} (h : Delimited rest) : exponent? rest = none := by
  unfold exponent?
  split
  · rename_i c rest
    refine if_neg ?_
    rcases h c rfl with rfl | rfl <;> decide
  · rfl

theorem ofDigits_toDigits (n : Nat) : ofDigits (Nat.toDigits 10 n) = n :=
  Nat.ofDigitChars_ten_toDigits

/-- Digits are read as an integer up to a character that continues no number. -/
theorem readNumber_digits {run rest : Text} (hne : run ≠ []) (hrun : ∀ c ∈ run, c.isDigit = true)
    (h : Delimited rest) : readNumber (run ++ rest) = some (integer (ofDigits run), rest) := by
  have hdigits := digits_append hrun h
  cases run with
  | nil => contradiction
  | cons d run =>
      have hd : d ≠ '-' := by
        rintro rfl
        exact absurd (hrun '-' List.mem_cons_self) (by decide)
      rw [readNumber.eq_def]
      split
      rename_i hsplit
      split at hsplit
      · rename_i hminus
        exact absurd (List.cons.inj hminus).1 hd
      · obtain ⟨rfl, rfl⟩ := Prod.mk.inj hsplit
        simp only [hdigits, List.drop_left, List.isEmpty_cons, fraction?_of_delimited h, exponent?_of_delimited h,
          Bool.false_eq_true, if_false]

theorem readNumber_minus_digits {run rest : Text} (hne : run ≠ []) (hrun : ∀ c ∈ run, c.isDigit = true)
    (h : Delimited rest) : readNumber ('-' :: run ++ rest) = some (integer (-ofDigits run), rest) := by
  have hempty : run.isEmpty = false := List.isEmpty_eq_false_iff.mpr hne
  simp only [List.cons_append, readNumber, digits_append hrun h, List.drop_left, hempty, fraction?_of_delimited h,
    exponent?_of_delimited h, Bool.false_eq_true, if_false, if_true]

/-- A printed integer is read up to a character that continues no number. -/
theorem readNumber_printInteger (n : Int) {rest : Text} (h : Delimited rest) :
    readNumber (printInteger n ++ rest) = some (integer n, rest) := by
  have hdigits := Numeral.isDigit_of_mem_toDigits (n := n.natAbs)
  rw [printInteger, Numeral.toList_toString]
  by_cases hn : n < 0
  · have hvalue : -(n.natAbs : Int) = n := by omega
    rw [if_pos hn, List.singleton_append, readNumber_minus_digits Nat.toDigits_ne_nil hdigits h, ofDigits_toDigits,
      hvalue]
  · have hvalue : (n.natAbs : Int) = n := by omega
    rw [if_neg hn, List.nil_append, readNumber_digits Nat.toDigits_ne_nil hdigits h, ofDigits_toDigits, hvalue]

end Accessibility.Json
