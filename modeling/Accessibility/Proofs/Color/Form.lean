import Accessibility.Color.Basic
import Accessibility.Proofs.Text.Ascii
import Accessibility.Proofs.Text.Blank

/-! # Colours as written

A colour with three numbers is described as a text that is put together of its parts, and read exactly where it is
written so. Nothing else that is read as a colour looks like it, and every colour is read back from its canonical
form. -/

namespace Accessibility

namespace Text

def IsBlanks (t : Text) : Prop :=
  ∀ c ∈ t, isBlank c = true

/-- At least one character, and all of a kind. -/
def IsRun (kind : Char → Bool) (t : Text) : Prop :=
  t ≠ [] ∧ ∀ c ∈ t, kind c = true

/-- A sign with blanks before and behind it. -/
def IsSpaced (sign : Char) (t : Text) : Prop :=
  ∃ before behind, IsBlanks before ∧ IsBlanks behind ∧ t = before ++ sign :: behind

theorem skipBlanks_append {blanks rest : Text} (hblanks : IsBlanks blanks)
    (hrest : ∀ c ∈ rest.head?, isBlank c = false) : skipBlanks (blanks ++ rest) = rest := by
  rw [skipBlanks, List.dropWhile_append_of_pos hblanks, dropWhile_eq_self hrest]

theorem exists_skipBlanks (t : Text) : ∃ blanks, IsBlanks blanks ∧ t = blanks ++ skipBlanks t :=
  ⟨t.takeWhile isBlank, List.all_eq_true.mp List.all_takeWhile, List.takeWhile_append_dropWhile.symm⟩

end Text

namespace Color

open Text (IsBlanks IsRun IsSpaced)

/-! ## The parts of a colour -/

/-- The characters that an opacity is made of. -/
def isOpacity (c : Char) : Bool :=
  Text.isDigit c || c == '.'

/-- A colour such as `rgb(1, 2, 3)` or `rgba(1, 2, 3, 0.5)` in its parts: what may follow the three letters, the opening
bracket and the two commas with their blanks, and what stands behind the third number. -/
structure Form where
  alpha : Text
  opening : Text
  red : Text
  first : Text
  green : Text
  second : Text
  blue : Text
  tail : Text
  alpha_eq : alpha = [] ∨ alpha = ['a']
  opening_spaced : IsSpaced '(' opening
  red_run : IsRun Text.isDigit red
  first_spaced : IsSpaced ',' first
  green_run : IsRun Text.isDigit green
  second_spaced : IsSpaced ',' second
  blue_run : IsRun Text.isDigit blue
  tail_eq : IsBlanks tail ∨
    ∃ comma opacity gap, IsSpaced ',' comma ∧ IsRun isOpacity opacity ∧ IsBlanks gap ∧ tail = comma ++ opacity ++ gap

namespace Form

/-- The colour as it is written. -/
def raw (f : Form) : Text :=
  "rgb".toList ++ f.alpha ++ f.opening ++ f.red ++ f.first ++ f.green ++ f.second ++ f.blue ++ f.tail ++ [')']

def channels (f : Form) : Text × Text × Text :=
  (f.red, f.green, f.blue)

theorem raw_eq (f : Form) : f.raw = "rgb".toList ++ (f.alpha ++ (f.opening ++ (f.red ++ (f.first ++ (f.green ++
    (f.second ++ (f.blue ++ (f.tail ++ [')'])))))))) := by
  -- Which letters stand in front does not matter.
  unfold raw
  generalize "rgb".toList = letters
  simp only [List.append_assoc]

end Form

/-! ## Reading the parts -/

theorem exists_of_run? {kind : Char → Bool} {t run rest : Text} (h : run? kind t = some (run, rest)) :
    IsRun kind run ∧ ∃ blanks, IsBlanks blanks ∧ t = run ++ blanks ++ rest := by
  unfold run? at h
  dsimp only at h
  split at h
  · simp at h
  · rename_i hne
    simp only [Option.some.injEq, Prod.mk.injEq] at h
    obtain ⟨rfl, rfl⟩ := h
    obtain ⟨blanks, hblanks, hsplit⟩ := Text.exists_skipBlanks (t.dropWhile kind)
    refine ⟨⟨by simpa using hne, List.all_eq_true.mp List.all_takeWhile⟩, blanks, hblanks, ?_⟩
    rw [List.append_assoc, ← hsplit, List.takeWhile_append_dropWhile]

theorem run?_append {kind : Char → Bool} {run blanks rest : Text} (hrun : IsRun kind run) (hblanks : IsBlanks blanks)
    (hkind : ∀ c, Text.isBlank c = true → kind c = false)
    (hrest : ∀ c ∈ rest.head?, kind c = false ∧ Text.isBlank c = false) :
    run? kind (run ++ (blanks ++ rest)) = some (run, rest) := by
  have hhead : ∀ c ∈ (blanks ++ rest).head?, kind c = false := by
    intro c hc
    cases blanks with
    | nil => exact (hrest c hc).1
    | cons d blanks =>
        obtain rfl : d = c := by simpa using hc
        exact hkind d (hblanks d List.mem_cons_self)
  have hne : run.isEmpty = false := by simpa using hrun.1
  have htake : (run ++ (blanks ++ rest)).takeWhile kind = run := by
    rw [List.takeWhile_append_of_pos hrun.2, Text.takeWhile_eq_nil hhead, List.append_nil]
  have hdrop : (run ++ (blanks ++ rest)).dropWhile kind = blanks ++ rest := by
    rw [List.dropWhile_append_of_pos hrun.2, Text.dropWhile_eq_self hhead]
  simp only [run?, htake, hdrop, hne, Bool.false_eq_true, if_false,
    Text.skipBlanks_append hblanks fun c hc => (hrest c hc).2]

theorem exists_of_sign? {sign : Char} {t rest : Text} (h : sign? sign t = some rest) :
    ∃ blanks, IsBlanks blanks ∧ t = sign :: (blanks ++ rest) := by
  cases t with
  | nil => simp [sign?] at h
  | cons c t =>
      by_cases hc : c = sign
      · subst hc
        obtain rfl : Text.skipBlanks t = rest := by simpa [sign?] using h
        obtain ⟨blanks, hblanks, hsplit⟩ := Text.exists_skipBlanks t
        exact ⟨blanks, hblanks, by rw [← hsplit]⟩
      · simp [sign?, hc] at h

theorem sign?_cons {sign : Char} {blanks rest : Text} (hblanks : IsBlanks blanks)
    (hrest : ∀ c ∈ rest.head?, Text.isBlank c = false) : sign? sign (sign :: (blanks ++ rest)) = some rest := by
  rw [sign?, if_pos rfl, Text.skipBlanks_append hblanks hrest]

/-- Numbers are separated by commas with blanks around them. -/
theorem run?_comma {run comma rest : Text} (hrun : IsRun Text.isDigit run) (hcomma : IsSpaced ',' comma)
    (hrest : ∀ c ∈ rest.head?, Text.isBlank c = false) :
    ∃ behind, run? Text.isDigit (run ++ (comma ++ rest)) = some (run, behind) ∧ sign? ',' behind = some rest := by
  obtain ⟨before, behind, hbefore, hbehind, rfl⟩ := hcomma
  refine ⟨',' :: (behind ++ rest), ?_, sign?_cons hbehind hrest⟩
  have hsign : Text.isDigit ',' = false ∧ Text.isBlank ',' = false := by decide
  rw [List.append_assoc, List.cons_append]
  refine run?_append hrun hbefore (fun _ => Text.isDigit_of_isBlank) fun c hc => ?_
  obtain rfl : ',' = c := by simpa using hc
  exact hsign

theorem not_isBlank_head_of_run {kind : Char → Bool} (hkind : ∀ c, Text.isBlank c = true → kind c = false)
    {run : Text} (h : IsRun kind run) (rest : Text) : ∀ c ∈ (run ++ rest).head?, Text.isBlank c = false := by
  intro c hc
  obtain ⟨d, run, rfl⟩ := List.exists_cons_of_ne_nil h.1
  obtain rfl : d = c := by simpa using hc
  cases hblank : Text.isBlank d with
  | false => rfl
  | true =>
      have hd := h.2 d List.mem_cons_self
      rw [hkind d hblank] at hd
      contradiction

theorem dropWord?_append (word rest : Text) : Text.dropWord? word (word ++ rest) = some rest := by
  rw [Text.dropWord?, if_pos (by simp), List.drop_left]

theorem eq_append_of_dropWord? {word t rest : Text} (h : Text.dropWord? word t = some rest) : t = word ++ rest := by
  unfold Text.dropWord? at h
  split at h
  · rename_i hprefix
    obtain rfl := Option.some.inj h
    exact (List.prefix_iff_eq_append.mp (List.isPrefixOf_iff_prefix.mp hprefix)).symm
  · simp at h

theorem exists_comma {t run behind rest : Text} (hrun : run? Text.isDigit t = some (run, behind))
    (hsign : sign? ',' behind = some rest) :
    IsRun Text.isDigit run ∧ ∃ comma, IsSpaced ',' comma ∧ t = run ++ (comma ++ rest) := by
  obtain ⟨hdigits, before, hbefore, rfl⟩ := exists_of_run? hrun
  obtain ⟨blanks, hblanks, rfl⟩ := exists_of_sign? hsign
  exact ⟨hdigits, before ++ ',' :: blanks, ⟨before, blanks, hbefore, hblanks, rfl⟩, by simp⟩

/-! ## Reading a form -/

/-- What follows the third number: at most an opacity, and the closing bracket. -/
def closes (t : Text) : Prop :=
  ((sign? ',' t).bind (run? isOpacity)).elim t (·.2) = [')']

theorem exists_tail {t blue behind : Text} (hrun : run? Text.isDigit t = some (blue, behind)) (hclose : closes behind) :
    IsRun Text.isDigit blue ∧ ∃ tail, t = blue ++ (tail ++ [')']) ∧ (IsBlanks tail ∨ ∃ comma opacity gap,
      IsSpaced ',' comma ∧ IsRun isOpacity opacity ∧ IsBlanks gap ∧ tail = comma ++ opacity ++ gap) := by
  unfold closes at hclose
  cases hopacity : (sign? ',' behind).bind (run? isOpacity) with
  | none =>
      rw [hopacity] at hclose
      obtain rfl : behind = [')'] := hclose
      obtain ⟨hdigits, blanks, hblanks, rfl⟩ := exists_of_run? hrun
      exact ⟨hdigits, blanks, by simp, .inl hblanks⟩
  | some found =>
      obtain ⟨opacity, rest⟩ := found
      rw [hopacity] at hclose
      obtain rfl : rest = [')'] := hclose
      obtain ⟨afterComma, hsign, hopacity⟩ := Option.bind_eq_some_iff.mp hopacity
      obtain ⟨hdigits, comma, hcomma, rfl⟩ := exists_comma hrun hsign
      obtain ⟨hcharacters, gap, hgap, rfl⟩ := exists_of_run? hopacity
      exact ⟨hdigits, comma ++ opacity ++ gap, by simp, .inr ⟨comma, opacity, gap, hcomma, hcharacters, hgap, rfl⟩⟩

theorem exists_alpha (t : Text) :
    ∃ alpha, (alpha = [] ∨ alpha = ['a']) ∧ t = alpha ++ (Text.dropWord? ['a'] t).getD t := by
  cases h : Text.dropWord? ['a'] t with
  | none => exact ⟨[], .inl rfl, rfl⟩
  | some rest => exact ⟨['a'], .inr rfl, eq_append_of_dropWord? h⟩

theorem exists_form_of_numbers? {t r g b : Text} (h : numbers? t = some (r, g, b)) :
    ∃ f : Form, f.raw = t ∧ f.channels = (r, g, b) := by
  unfold numbers? at h
  simp only [Option.bind_eq_bind, Option.bind_eq_some_iff, Option.ite_none_right_eq_some, Option.some.injEq,
    Prod.mk.injEq] at h
  obtain ⟨afterName, hname, afterOpening, hopening, ⟨red, afterRed⟩, hred, afterFirst, hfirst, ⟨green, afterGreen⟩,
    hgreen, afterSecond, hsecond, ⟨blue, afterBlue⟩, hblue, hclose, rfl, rfl, rfl⟩ := h
  obtain ⟨alpha, halpha, hafterName⟩ := exists_alpha afterName
  obtain ⟨before, hbefore, hskipped⟩ := Text.exists_skipBlanks ((Text.dropWord? ['a'] afterName).getD afterName)
  obtain ⟨behind, hbehind, hbracket⟩ := exists_of_sign? hopening
  obtain ⟨hredRun, first, hfirstSpaced, hafterOpening⟩ := exists_comma hred hfirst
  obtain ⟨hgreenRun, second, hsecondSpaced, hafterFirst⟩ := exists_comma hgreen hsecond
  obtain ⟨hblueRun, tail, hafterSecond, htail⟩ := exists_tail hblue hclose
  refine ⟨⟨alpha, before ++ '(' :: behind, red, first, green, second, blue, tail, halpha,
    ⟨before, behind, hbefore, hbehind, rfl⟩, hredRun, hfirstSpaced, hgreenRun, hsecondSpaced, hblueRun, htail⟩, ?_, rfl⟩
  rw [eq_append_of_dropWord? hname, hafterName, hskipped, hbracket, hafterOpening, hafterFirst, hafterSecond,
    Form.raw_eq]
  simp only [List.append_assoc, List.cons_append]

theorem Form.exists_closes (f : Form) :
    ∃ behind, run? Text.isDigit (f.blue ++ (f.tail ++ [')'])) = some (f.blue, behind) ∧ closes behind := by
  have hbracket : Text.isDigit ')' = false ∧ isOpacity ')' = false ∧ Text.isBlank ')' = false := by decide
  have hopacityBlank : ∀ c, Text.isBlank c = true → isOpacity c = false := by
    intro c hc
    have hpoint : c ≠ '.' := fun heq => absurd (heq ▸ hc) (by decide)
    rw [isOpacity, Text.isDigit_of_isBlank hc, Bool.false_or, beq_eq_false_iff_ne]
    exact hpoint
  rcases f.tail_eq with hblanks | ⟨comma, opacity, gap, hcomma, hopacity, hgap, htail⟩
  · refine ⟨[')'], run?_append f.blue_run hblanks (fun _ => Text.isDigit_of_isBlank) fun c hc => ?_, rfl⟩
    obtain rfl : ')' = c := by simpa using hc
    exact ⟨hbracket.1, hbracket.2.2⟩
  · have hread : run? isOpacity (opacity ++ (gap ++ [')'])) = some (opacity, [')']) := by
      refine run?_append hopacity hgap hopacityBlank fun c hc => ?_
      obtain rfl : ')' = c := by simpa using hc
      exact hbracket.2
    obtain ⟨behind, hblue, hsign⟩ :=
      run?_comma f.blue_run hcomma (not_isBlank_head_of_run hopacityBlank hopacity (gap ++ [')']))
    refine ⟨behind, ?_, ?_⟩
    · rw [htail, List.append_assoc, List.append_assoc, hblue]
    · rw [closes, hsign, Option.bind_some, hread]
      rfl

theorem Form.alpha_read (f : Form) (rest : Text) :
    (Text.dropWord? ['a'] (f.alpha ++ (f.opening ++ rest))).getD (f.alpha ++ (f.opening ++ rest)) =
      f.opening ++ rest := by
  rcases f.alpha_eq with halpha | halpha
  · have hhead : ¬['a'].isPrefixOf (f.opening ++ rest) = true := by
      obtain ⟨before, behind, hbefore, -, hopening⟩ := f.opening_spaced
      rw [hopening]
      cases before with
      | nil => simp
      | cons c before =>
          intro hprefix
          obtain rfl : 'a' = c := by simpa using hprefix
          exact absurd (hbefore 'a' List.mem_cons_self) (by decide)
    rw [halpha, List.nil_append, Text.dropWord?, if_neg hhead, Option.getD_none]
  · rw [halpha, dropWord?_append, Option.getD_some]

theorem sign?_spaced {sign : Char} {t rest : Text} (ht : IsSpaced sign t) (hsign : Text.isBlank sign = false)
    (hrest : ∀ c ∈ rest.head?, Text.isBlank c = false) : sign? sign (Text.skipBlanks (t ++ rest)) = some rest := by
  obtain ⟨before, behind, hbefore, hbehind, rfl⟩ := ht
  have hskip : Text.skipBlanks (before ++ (sign :: (behind ++ rest))) = sign :: (behind ++ rest) := by
    refine Text.skipBlanks_append hbefore fun c hc => ?_
    obtain rfl : sign = c := by simpa using hc
    exact hsign
  rw [List.append_assoc, List.cons_append, hskip, sign?_cons hbehind hrest]

/-- A form is read as the three numbers that stand in it. -/
theorem numbers?_raw (f : Form) : numbers? f.raw = some f.channels := by
  have hdigitBlank : ∀ c, Text.isBlank c = true → Text.isDigit c = false := fun _ => Text.isDigit_of_isBlank
  obtain ⟨behind, hblue, hclose⟩ := f.exists_closes
  obtain ⟨afterGreen, hgreen, hsecond⟩ := run?_comma f.green_run f.second_spaced
    (not_isBlank_head_of_run hdigitBlank f.blue_run (f.tail ++ [')']))
  obtain ⟨afterRed, hred, hfirst⟩ := run?_comma f.red_run f.first_spaced
    (not_isBlank_head_of_run hdigitBlank f.green_run (f.second ++ (f.blue ++ (f.tail ++ [')']))))
  have hopening := sign?_spaced f.opening_spaced (by decide) (not_isBlank_head_of_run hdigitBlank f.red_run
    (f.first ++ (f.green ++ (f.second ++ (f.blue ++ (f.tail ++ [')']))))))
  rw [f.raw_eq, numbers?, dropWord?_append]
  simp only [Option.bind_eq_bind, Option.bind_some, f.alpha_read, hopening, hred, hfirst, hgreen, hsecond, hblue]
  exact if_pos hclose

theorem numbers?_eq_some_iff {t : Text} {runs : Text × Text × Text} :
    numbers? t = some runs ↔ ∃ f : Form, f.raw = t ∧ f.channels = runs := by
  constructor
  · intro h
    exact exists_form_of_numbers? h
  · rintro ⟨f, rfl, rfl⟩
    exact numbers?_raw f

end Color

end Accessibility
