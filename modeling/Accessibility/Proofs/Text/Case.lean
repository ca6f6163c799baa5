import Accessibility.Proofs.Text.Ascii
import Accessibility.Proofs.Text.Occurrences
import Accessibility.Text.Digit

/-! # Texts without regard to case

Making the ASCII capitals of a text small is a map over its characters. A reader that does not tell a capital from its
small letter commutes with that map, and so does a search with a recogniser that is made of such readers. -/

namespace Accessibility

namespace Text

/-! ## Classes of characters -/

/-- A class of characters that holds an ASCII capital exactly when it holds the small letter. -/
def CaseBlind (p : Char → Bool) : Prop :=
  ∀ c : Char, p c.toLower = p c

/-- Only the capitals of ASCII are changed by making them small, so what holds of every character and itself, and of
the 26 small letters and their capitals, holds of every character and its small letter. -/
theorem forall_toLower {p : Char → Char → Prop} (hself : ∀ c, p c c)
    (hletters : ∀ n < 26, p (Char.ofNat (97 + n)) (Char.ofNat (65 + n))) (c : Char) : p c.toLower c := by
  by_cases hcapital : c.val ≥ 'A'.val ∧ c.val ≤ 'Z'.val
  · have hsmall : ∀ n < 26, (Char.ofNat (65 + n)).toLower = Char.ofNat (97 + n) := by decide
    obtain ⟨n, hn, hc⟩ : ∃ n < 26, c.toNat = 65 + n := by
      have hlow : 65 ≤ c.toNat := UInt32.le_iff_toNat_le.mp hcapital.1
      have hhigh : c.toNat ≤ 90 := UInt32.le_iff_toNat_le.mp hcapital.2
      exact ⟨c.toNat - 65, by omega, by omega⟩
    obtain rfl : c = Char.ofNat (65 + n) := by rw [← hc, Char.ofNat_toNat]
    rw [hsmall n hn]
    exact hletters n hn
  · have hsame : c.toLower = c := dif_neg hcapital
    rw [hsame]
    exact hself c

theorem caseBlind_of_letters {p : Char → Bool} (h : ∀ n < 26, p (Char.ofNat (97 + n)) = p (Char.ofNat (65 + n))) :
    CaseBlind p :=
  forall_toLower (p := fun d c => p d = p c) (fun _ => rfl) h

/-- Nothing that is asked of a character tells a capital from its small letter. -/
theorem letters_alike : ∀ n < 26,
    isBlank (Char.ofNat (97 + n)) = isBlank (Char.ofNat (65 + n)) ∧
      isName (Char.ofNat (97 + n)) = isName (Char.ofNat (65 + n)) ∧
      isCased (Char.ofNat (97 + n)) = isCased (Char.ofNat (65 + n)) ∧
      isCaseIgnored (Char.ofNat (97 + n)) = isCaseIgnored (Char.ofNat (65 + n)) ∧
      digitValue? (Char.ofNat (97 + n)) = digitValue? (Char.ofNat (65 + n)) ∧
      loose (Char.ofNat (97 + n)) = loose (Char.ofNat (65 + n)) ∧
      (Char.ofNat (97 + n)).isAlpha = true ∧ (Char.ofNat (65 + n)).isAlpha = true := by
  decide

theorem caseBlind_isBlank : CaseBlind isBlank :=
  caseBlind_of_letters fun n hn => (letters_alike n hn).1

theorem caseBlind_isName : CaseBlind isName :=
  caseBlind_of_letters fun n hn => (letters_alike n hn).2.1

theorem caseBlind_isCased : CaseBlind isCased :=
  caseBlind_of_letters fun n hn => (letters_alike n hn).2.2.1

theorem caseBlind_isCaseIgnored : CaseBlind isCaseIgnored :=
  caseBlind_of_letters fun n hn => (letters_alike n hn).2.2.2.1

theorem digitValue?_toLower (c : Char) : digitValue? c.toLower = digitValue? c :=
  forall_toLower (p := fun d c => digitValue? d = digitValue? c) (fun _ => rfl)
    (fun n hn => (letters_alike n hn).2.2.2.2.1) c

theorem caseBlind_isDigit : CaseBlind isDigit := by
  intro c
  rw [isDigit, digitValue?_toLower, isDigit]

theorem loose_toLower (c : Char) : loose c.toLower = loose c :=
  forall_toLower (p := fun d c => loose d = loose c) (fun _ => rfl)
    (fun n hn => (letters_alike n hn).2.2.2.2.2.1) c

theorem smallLetter_toLower (c : Char) : smallLetter c.toLower = smallLetter c := by
  refine forall_toLower (p := fun d c => smallLetter d = smallLetter c) (fun _ => rfl) (fun n hn => ?_) c
  have hletters : ∀ n < 26, (Char.ofNat (97 + n)).toNat < 128 ∧ (Char.ofNat (65 + n)).toNat < 128 ∧
      (Char.ofNat (97 + n)).toLower = (Char.ofNat (65 + n)).toLower := by decide
  obtain ⟨hsmall, hcapital, hsame⟩ := hletters n hn
  rw [smallLetter_of_ascii hsmall, smallLetter_of_ascii hcapital, hsame]

theorem isAlpha_of_toLower_ne {c : Char} : c.toLower ≠ c → c.isAlpha = true ∧ c.toLower.isAlpha = true :=
  forall_toLower (p := fun d c => d ≠ c → c.isAlpha = true ∧ d.isAlpha = true) (fun _ h => absurd rfl h)
    (fun n hn _ => (letters_alike n hn).2.2.2.2.2.2.symm) c

/-- A character that is no letter is not got by making a capital small. -/
theorem toLower_eq_iff {mark : Char} (h : mark.isAlpha = false) {c : Char} : c.toLower = mark ↔ c = mark := by
  by_cases hc : c.toLower = c
  · rw [hc]
  · obtain ⟨hcapital, hsmall⟩ := isAlpha_of_toLower_ne hc
    constructor
    · rintro rfl
      exact absurd (hsmall.symm.trans h) (by decide)
    · rintro rfl
      exact absurd (hcapital.symm.trans h) (by decide)

theorem caseBlind_bne {mark : Char} (h : mark.isAlpha = false) : CaseBlind (· != mark) := by
  intro c
  have hiff := toLower_eq_iff h (c := c)
  rw [Bool.eq_iff_iff, bne_iff_ne, bne_iff_ne, ne_eq, ne_eq, hiff]

/-! ## Making the capitals small -/

/-- The text with its ASCII capitals made small. Two texts of which this is the same are equally long and differ in
nothing but the case of ASCII letters. -/
def foldCase (t : Text) : Text :=
  t.map Char.toLower

@[simp] theorem foldCase_nil : foldCase [] = [] := rfl

@[simp] theorem foldCase_cons (c : Char) (t : Text) : foldCase (c :: t) = c.toLower :: foldCase t := rfl

@[simp] theorem foldCase_append (front rest : Text) : foldCase (front ++ rest) = foldCase front ++ foldCase rest :=
  List.map_append

@[simp] theorem length_foldCase (t : Text) : (foldCase t).length = t.length :=
  List.length_map _

@[simp] theorem foldCase_eq_nil_iff {t : Text} : foldCase t = [] ↔ t = [] :=
  List.map_eq_nil_iff

@[simp] theorem isEmpty_foldCase (t : Text) : (foldCase t).isEmpty = t.isEmpty :=
  List.isEmpty_map

theorem reverse_foldCase (t : Text) : (foldCase t).reverse = foldCase t.reverse :=
  List.map_reverse.symm

section Class

variable {p : Char → Bool} (h : CaseBlind p)

include h

theorem CaseBlind.comp : p ∘ Char.toLower = p :=
  funext h

theorem CaseBlind.any_option (before : Option Char) : (before.map Char.toLower).any p = before.any p := by
  cases before with
  | none => rfl
  | some c => exact h c

theorem CaseBlind.head? (t : Text) : (foldCase t).head?.any p = t.head?.any p := by
  rw [foldCase, List.head?_map, h.any_option]

theorem CaseBlind.all (t : Text) : (foldCase t).all p = t.all p := by
  rw [foldCase, List.all_map, h.comp]

theorem CaseBlind.any (t : Text) : (foldCase t).any p = t.any p := by
  rw [foldCase, List.any_map, h.comp]

theorem CaseBlind.takeWhile (t : Text) : (foldCase t).takeWhile p = foldCase (t.takeWhile p) := by
  rw [foldCase, List.takeWhile_map, h.comp, foldCase]

theorem CaseBlind.dropWhile (t : Text) : (foldCase t).dropWhile p = foldCase (t.dropWhile p) := by
  rw [foldCase, List.dropWhile_map, h.comp, foldCase]

theorem CaseBlind.trim (t : Text) : (foldCase t).trim p = foldCase (t.trim p) := by
  rw [Text.trim, h.dropWhile, reverse_foldCase, h.dropWhile, reverse_foldCase, Text.trim]

end Class

theorem strip_foldCase (t : Text) : strip (foldCase t) = foldCase (strip t) :=
  caseBlind_isBlank.trim t

/-! ## Lower case -/

theorem nextIsCased_foldCase (t : Text) : nextIsCased (foldCase t) = nextIsCased t := by
  rw [nextIsCased, nextIsCased, caseBlind_isCaseIgnored.dropWhile]
  cases t.dropWhile isCaseIgnored with
  | nil => rfl
  | cons c rest => exact caseBlind_isCased c

theorem lowerOne_foldCase (cased : Bool) (c : Char) (rest : Text) :
    lowerOne cased c.toLower (foldCase rest) = lowerOne cased c rest := by
  have hsigma : c.toLower = 'Σ' ↔ c = 'Σ' := toLower_eq_iff (by decide)
  have hdotted : c.toLower = 'İ' ↔ c = 'İ' := toLower_eq_iff (by decide)
  simp only [lowerOne, hsigma, hdotted, nextIsCased_foldCase, smallLetter_toLower]

/-- Lower case does not depend on the case of ASCII letters, not even where it looks at neighbours. -/
theorem lower_foldCase (t : Text) : lower (foldCase t) = lower t := by
  have hfrom : ∀ cased, lowerFrom cased (foldCase t) = lowerFrom cased t := by
    induction t with
    | nil => intro cased; rfl
    | cons c rest ih =>
        intro cased
        rw [foldCase_cons, lowerFrom, lowerFrom, lowerOne_foldCase, caseBlind_isCaseIgnored c, caseBlind_isCased c, ih]
  exact hfrom false

/-! ## Reading up to a mark -/

section Mark

variable {mark : Char} (h : mark.isAlpha = false)

include h

theorem upTo_foldCase (t : Text) : upTo mark (foldCase t) = foldCase (upTo mark t) :=
  (caseBlind_bne h).takeWhile t

theorem after?_foldCase (t : Text) : after? mark (foldCase t) = (after? mark t).map foldCase := by
  induction t with
  | nil => rfl
  | cons c t ih =>
      have hc := toLower_eq_iff h (c := c)
      by_cases heq : c = mark
      · rw [foldCase_cons, after?, after?, if_pos (hc.mpr heq), if_pos heq, Option.map_some]
      · rw [foldCase_cons, after?, after?, if_neg (mt hc.mp heq), if_neg heq, ih]

end Mark

/-! ## Loose comparison -/

theorem take?_foldCase (name t : Text) :
    take? name (foldCase t) = (take? name t).map (Prod.map foldCase foldCase) := by
  induction name generalizing t with
  | nil => rfl
  | cons n name ih =>
      cases t with
      | nil => rfl
      | cons c t =>
          have hc : agrees n c.toLower = agrees n c := by rw [agrees, agrees, loose_toLower]
          rw [foldCase_cons, take?, take?, hc, ih]
          by_cases hagrees : agrees n c = true
          · simp only [hagrees, if_true, Option.map_map]
            rfl
          · simp [hagrees]

end Text

/-! ## Searches -/

variable {α : Type}

/-- A recogniser that reads a text with small letters for capitals as it reads the text. The value that it answers with
changes by `fold`. -/
def Recognizer.IgnoresCase (r : Recognizer α) (fold : α → α) : Prop :=
  ∀ before t, r (before.map Char.toLower) (Text.foldCase t) = (r before t).map (Prod.map fold Text.foldCase)

/-- The find in the text whose capitals are made small. -/
def Occurrence.foldCase (fold : α → α) (o : Occurrence α) : Occurrence α :=
  { value := fold o.value, raw := Text.foldCase o.raw, start := o.start }

namespace Text

variable {r : Recognizer α} {fold : α → α}

theorem occurrencesFrom_foldCase (h : r.IgnoresCase fold) (covered : Nat) (before : Option Char) (place : Nat)
    (t : Text) :
    occurrencesFrom r covered (before.map Char.toLower) place (foldCase t) =
      (occurrencesFrom r covered before place t).map (Occurrence.foldCase fold) := by
  induction t generalizing covered before place with
  | nil => simp
  | cons c t ih =>
      rw [foldCase_cons]
      cases covered with
      | succ covered => exact ih covered (some c) (place + 1)
      | zero =>
          have hhead := h before (c :: t)
          rw [foldCase_cons] at hhead
          cases hr : r before (c :: t) with
          | none =>
              rw [hr, Option.map_none] at hhead
              rw [occurrencesFrom_of_none hhead, occurrencesFrom_of_none hr]
              exact ih 0 (some c) (place + 1)
          | some found =>
              obtain ⟨value, raw⟩ := found
              rw [hr, Option.map_some, Prod.map_apply] at hhead
              rw [occurrencesFrom_of_some hhead, occurrencesFrom_of_some hr, List.map_cons, length_foldCase]
              exact congrArg _ (ih (raw.length - 1) (some c) (place + 1))

/-- Both searches find at the same places. -/
theorem occurrences_foldCase (h : r.IgnoresCase fold) (t : Text) :
    occurrences r (foldCase t) = (occurrences r t).map (Occurrence.foldCase fold) :=
  occurrencesFrom_foldCase h 0 none 0 t

theorem first?_foldCase (h : r.IgnoresCase fold) (t : Text) :
    first? r (foldCase t) = (first? r t).map (Occurrence.foldCase fold) := by
  rw [first?, first?, occurrences_foldCase h, List.head?_map]

end Text

end Accessibility
