import Accessibility.Console.Event
import Accessibility.Proofs.Console.Mark

/-! # Messages cannot be taken for markup

An escaped text has an odd number of backslashes before each of its words in brackets, so that the console takes none of
them for a tag. What stands behind the text is safe as long as the backslashes at its end are even in number. -/

namespace Accessibility.Console

/-! ## Runs of backslashes at the end -/

/-- The number of backslashes that a text ends in. -/
def trailing (t : Text) : Nat :=
  (t.reverse.takeWhile isBackslash).length

theorem trailing_slashes (n : Nat) : trailing (slashes n) = n := by
  simp [trailing, slashes, isBackslash]

theorem trailing_append {s : Text} (h : trailing s = 0) (t : Text) : trailing (s ++ t) = trailing t := by
  rw [trailing, List.length_eq_zero_iff] at h
  rw [trailing, trailing, List.reverse_append, List.takeWhile_append, h, List.append_nil]
  split
  · rename_i hall
    rw [hall]
  · rfl

theorem trailing_append_cons {c : Char} (hc : c ≠ '\\') (s t : Text) : trailing (s ++ c :: t) = trailing t := by
  have hstop : trailing (s ++ [c]) = 0 := by simp [trailing, isBackslash, hc]
  rw [List.append_cons, trailing_append hstop]

theorem IsTag.trailing {tag : Text} (h : IsTag tag) (s rest : Text) :
    trailing (s ++ tag ++ rest) = Console.trailing rest := by
  obtain ⟨c, inner, rfl, -⟩ := h
  have hclosing : s ++ ('[' :: c :: inner ++ [']']) ++ rest = (s ++ '[' :: c :: inner) ++ ']' :: rest := by
    simp
  rw [hclosing, trailing_append_cons (by decide)]

theorem endsInBackslash_iff {t : Text} : endsInBackslash t = true ↔ trailing t = 1 := by
  rw [trailing, endsInBackslash, List.isSuffixOf, List.isSuffixOf]
  cases t.reverse with
  | nil => simp
  | cons c u =>
      by_cases hc : c = '\\'
      · cases u with
        | nil => simp [hc, isBackslash]
        | cons d v =>
            by_cases hd : d = '\\'
            · simp [hc, hd, isBackslash]
            · simp [hc, hd, isBackslash, List.isPrefixOf, Ne.symm hd]
      · simp [hc, isBackslash, List.isPrefixOf, Ne.symm hc]

/-! ## How a text is escaped -/

/-- A text and the same text with its words escaped. The text is read as runs of backslashes, each of which is followed
by a word, by another character or by nothing. -/
inductive Escapes : Text → Text → Prop
  | run (n : Nat) : Escapes (slashes n) (slashes n)
  | word (n : Nat) {tag rest rest' : Text} (his : IsTag tag) (hrest : Escapes rest rest') :
      Escapes (slashes n ++ tag ++ rest) (slashes (2 * n + 1) ++ tag ++ rest')
  | other (n : Nat) {c : Char} {rest rest' : Text} (hc : c ≠ '\\') (hnone : tag? (c :: rest) = none)
      (hrest : Escapes rest rest') : Escapes (slashes n ++ c :: rest) (slashes n ++ c :: rest')

/-- A word and the backslashes before it, escaped. -/
def escapeWord : Text × Text → Text :=
  fun (slashes, tag) => slashes ++ slashes ++ '\\' :: tag

/-- The text with its words escaped, whatever it ends in. -/
def escapeWords (t : Text) : Text :=
  t.replaceEach backslashedTag escapeWord

theorem escape_eq (t : Text) :
    escape t = if endsInBackslash (escapeWords t) then escapeWords t ++ ['\\'] else escapeWords t := rfl

theorem escapeWord_slashes (n : Nat) (tag : Text) : escapeWord (slashes n, tag) = slashes (2 * n + 1) ++ tag := by
  rw [escapeWord, slashes_append_slashes, List.append_cons, ← slashes_one, slashes_append_slashes, Nat.two_mul]

/-- Nothing is found in a run of backslashes without a word behind it. -/
theorem quiet_slashes {rest : Text} (hrest : rest.head? ≠ some '\\') (h : tag? rest = none) (n : Nat)
    (before : Option Char) : Text.Quiet backslashedTag before (slashes n) rest := by
  induction n generalizing before with
  | zero => exact Text.quiet_nil _ _ _
  | succ n ih =>
      refine Text.quiet_cons_iff.mpr ⟨?_, ih (some '\\')⟩
      rw [← List.replicate_succ, ← slashes, backslashedTag_slashes before (n + 1) hrest, h]
      rfl

theorem quiet_slashes_concat {c : Char} {rest : Text} (hc : c ≠ '\\') (h : tag? (c :: rest) = none) (n : Nat)
    (before : Option Char) : Text.Quiet backslashedTag before (slashes n ++ [c]) rest := by
  have hhead : (c :: rest).head? ≠ some '\\' := by simpa using hc
  refine (quiet_slashes hhead h n before).append (Text.quiet_cons_iff.mpr ⟨?_, Text.quiet_nil _ _ _⟩)
  simpa [h, slashes] using backslashedTag_slashes (Text.lastBefore before (slashes n)) 0 hhead

theorem escapes_escapeWords (t : Text) : Escapes t (escapeWords t) := by
  suffices hall : ∀ (k : Nat) (t : Text) (before : Option Char), t.length = k →
      Escapes t (t.replaceFrom backslashedTag escapeWord 0 before) from hall t.length t none rfl
  intro k
  -- By induction on the length: one round takes a run of backslashes and what stands behind it.
  induction k using Nat.strong_induction_on with
  | h k ih =>
      rintro t before rfl
      obtain ⟨n, rest, rfl, hrest⟩ := exists_slashes t
      cases htag : tag? rest with
      | some tag =>
          obtain ⟨his, rest, rfl⟩ := tag?_eq_some_iff.mp htag
          have hne : slashes n ++ tag ≠ [] := by simp [his.ne_nil]
          rw [← List.append_assoc, Text.replaceFrom_of_front (backslashedTag_of_isTag before n his rest) hne,
            escapeWord_slashes]
          have hlt := List.length_pos_iff.mpr hne
          refine .word n his (ih _ ?_ rest _ rfl)
          simp only [List.length_append] at hlt ⊢
          omega
      | none =>
          cases rest with
          | nil =>
              rw [Text.replaceFrom_of_quiet (quiet_slashes hrest htag n before), Text.replaceFrom_nil, List.append_nil]
              exact .run n
          | cons c rest =>
              have hc : c ≠ '\\' := by simpa using hrest
              rw [List.append_cons, Text.replaceFrom_of_quiet (quiet_slashes_concat hc htag n before),
                ← List.append_cons, ← List.append_cons]
              exact .other n hc htag (ih _ (by simp; omega) rest _ rfl)

/-! ## What escaping keeps -/

/-- What is put behind an escaped text: it neither ends an open word nor gives a bracket what may start one. -/
structure Inert (tail : Text) : Prop where
  closes_eq : closes tail = false
  head : ∀ c ∈ tail.head?, isTagStart c = false

theorem inert_slashes (n : Nat) (rest : Text) : Inert (slashes n ++ '[' :: rest) where
  closes_eq := closes_slashes_append n _
  head := by
    intro c hc
    cases n with
    | zero =>
        obtain rfl : '[' = c := Option.some.inj hc
        decide
    | succ n =>
        obtain rfl : '\\' = c := Option.some.inj hc
        decide

namespace Escapes

variable {t u tail : Text}

theorem trailing_eq (h : Escapes t u) : trailing u = trailing t := by
  induction h with
  | run n => rfl
  | word n his _ ih => rw [his.trailing, his.trailing, ih]
  | other n hc _ _ ih => rw [trailing_append_cons hc, trailing_append_cons hc, ih]

/-- Escaping closes no word that is not closed before. -/
theorem closes_append (h : Escapes t u) (htail : closes tail = false) (ht : closes t = false) :
    closes (u ++ tail) = false := by
  induction h with
  | run n => rw [closes_slashes_append, htail]
  | word n his _ _ =>
      obtain ⟨c, inner, rfl, -⟩ := his
      rw [List.append_assoc, List.append_assoc, closes_slashes_append]
      rfl
  | @other n c rest rest' _ _ _ ih =>
      rw [closes_slashes_append] at ht
      rw [List.append_assoc, closes_slashes_append]
      simp only [List.cons_append, closes, Bool.or_eq_false_iff] at ht ⊢
      refine ⟨ht.1, ?_⟩
      cases hopening : c != '[' with
      | false => rfl
      | true => exact ih (by simpa [hopening] using ht.2)

/-- Escaping makes no word of a bracket that opens none. -/
theorem tag?_append_eq_none (h : Escapes t u) (htail : Inert tail) (ht : tag? ('[' :: t) = none) :
    tag? ('[' :: (u ++ tail)) = none := by
  rw [tag?_bracket_eq_none_iff] at ht ⊢
  intro d v hd hstart
  -- What escaping adds comes first only as a backslash, and a backslash starts no word.
  have hslash : ∀ {w : Text}, '\\' :: w ≠ d :: v := by
    intro w heq
    obtain ⟨rfl, -⟩ := List.cons.inj heq
    exact absurd hstart (by decide)
  cases h with
  | run n =>
      cases n with
      | zero =>
          have hinert := htail.head d (by rw [show tail = d :: v from hd]; rfl)
          rw [hstart] at hinert
          contradiction
      | succ n => exact absurd hd hslash
  | word n his hrest => exact absurd hd hslash
  | other n hc hnone hrest =>
      cases n with
      | zero =>
          obtain ⟨rfl, rfl⟩ := List.cons.inj hd
          exact hrest.closes_append htail.closes_eq (ht _ _ rfl hstart)
      | succ n => exact absurd hd hslash

end Escapes

/-! ## The tags of an escaped text -/

/-- The finds in a text from a place on that are taken for tags. -/
def activeFrom (before : Option Char) (place : Nat) (t : Text) : List Mark :=
  ((t.occurrencesFrom backslashedTag 0 before place).map Mark.ofOccurrence).filter Mark.isActive

theorem activeFrom_of_quiet {before : Option Char} {front rest : Text}
    (h : Text.Quiet backslashedTag before front rest) (place : Nat) :
    activeFrom before place (front ++ rest) =
      activeFrom (Text.lastBefore before front) (place + front.length) rest := by
  rw [activeFrom, Text.occurrencesFrom_of_quiet h, activeFrom]

theorem activeFrom_of_isTag {tag : Text} (h : IsTag tag) (n : Nat) (before : Option Char) (place : Nat) (rest : Text) :
    activeFrom before place (slashes n ++ tag ++ rest) =
      (if n % 2 = 0 then [⟨n, tag, place⟩] else []) ++
        activeFrom (Text.lastBefore before (slashes n ++ tag)) (place + (slashes n ++ tag).length) rest := by
  have hne : slashes n ++ tag ≠ [] := by simp [h.ne_nil]
  rw [activeFrom, Text.occurrencesFrom_of_front (backslashedTag_of_isTag before n h rest) hne, activeFrom,
    List.map_cons, List.filter_cons]
  by_cases heven : n % 2 = 0 <;> simp [Mark.isActive, Mark.ofOccurrence, heven]

theorem activeFrom_slashes_append {tag : Text} (h : IsTag tag) (n : Nat) (before : Option Char) (place : Nat) :
    activeFrom before place (slashes n ++ tag) = if n % 2 = 0 then [⟨n, tag, place⟩] else [] := by
  rw [← List.append_nil (slashes n ++ tag), activeFrom_of_isTag h]
  exact List.append_nil _

/-- An escaped text has no tags. Only the backslashes at its end may belong to a word behind it. -/
theorem Escapes.activeFrom_append {t u tail : Text} (h : Escapes t u) (htail : Inert tail) (before : Option Char)
    (place : Nat) :
    ∃ body, u = body ++ slashes (trailing t) ∧ activeFrom before place (u ++ tail) =
      activeFrom (Text.lastBefore before body) (place + body.length) (slashes (trailing t) ++ tail) := by
  -- The backslashes at the end are left over: only what follows decides whether they stand before a word.
  induction h generalizing before place with
  | run n => exact ⟨[], by rw [trailing_slashes, List.nil_append], by rw [trailing_slashes]; rfl⟩
  | @word n tag rest rest' his _ ih =>
      obtain ⟨body, hu, hactive⟩ := ih (Text.lastBefore before (slashes (2 * n + 1) ++ tag))
        (place + (slashes (2 * n + 1) ++ tag).length)
      refine ⟨slashes (2 * n + 1) ++ tag ++ body, ?_, ?_⟩
      · rw [his.trailing, List.append_assoc _ body, ← hu]
      · have hodd : ¬ (2 * n + 1) % 2 = 0 := by omega
        rw [his.trailing, List.append_assoc _ rest', activeFrom_of_isTag his, if_neg hodd, List.nil_append, hactive,
          Text.lastBefore_append _ _ body, @List.length_append _ _ body, Nat.add_assoc place]
  | @other n c rest rest' hc hnone hrest ih =>
      obtain ⟨body, hu, hactive⟩ := ih (Text.lastBefore before (slashes n ++ [c])) (place + (slashes n ++ [c]).length)
      have hnone' : tag? (c :: (rest' ++ tail)) = none := by
        by_cases hopening : c = '['
        · subst hopening
          exact hrest.tag?_append_eq_none htail hnone
        · exact tag?_of_head (by simpa using hopening)
      refine ⟨slashes n ++ [c] ++ body, ?_, ?_⟩
      · rw [trailing_append_cons hc, List.append_assoc _ body, ← hu, ← List.append_cons]
      · rw [trailing_append_cons hc, List.append_cons, List.append_assoc _ rest',
          activeFrom_of_quiet (quiet_slashes_concat hc hnone' n before), hactive,
          Text.lastBefore_append _ _ body, @List.length_append _ _ body, Nat.add_assoc place]

/-- How many backslashes stand at the end of an escaped text, if there are `n` at the end of the text. -/
def escapedTrailing (n : Nat) : Nat :=
  if n = 1 then 2 else n

theorem escapedTrailing_even_iff {n : Nat} : escapedTrailing n % 2 = 0 ↔ ¬ (3 ≤ n ∧ n % 2 = 1) := by
  unfold escapedTrailing
  split <;> omega

theorem exists_escapes_escape (t : Text) :
    ∃ u n, Escapes t u ∧ escape t = u ++ slashes n ∧ trailing t + n = escapedTrailing (trailing t) := by
  have h := escapes_escapeWords t
  rw [escape_eq, escapedTrailing]
  by_cases hone : trailing t = 1
  · exact ⟨_, 1, h, if_pos (endsInBackslash_iff.mpr (h.trailing_eq.trans hone)), by rw [if_pos hone, hone]⟩
  · refine ⟨_, 0, h, ?_, by rw [if_neg hone, Nat.add_zero]⟩
    rw [if_neg (mt endsInBackslash_iff.mp (h.trailing_eq.symm ▸ hone))]
    exact (List.append_nil _).symm

/-! ## Messages in a style -/

/-- The tag that starts a style. -/
def opening (style : String) : Text :=
  '[' :: style.toList ++ [']']

/-- The tag that ends a style. -/
def closing (style : String) : Text :=
  '[' :: '/' :: style.toList ++ [']']

theorem isTag_closing {style : String} (h : IsTag (opening style)) : IsTag (closing style) := by
  obtain ⟨c, inner, heq, hstart, hopening, hclosing⟩ := h
  have hstyle : style.toList = c :: inner := List.append_cancel_right (List.cons.inj heq).2
  have hc : c ≠ '[' ∧ c ≠ ']' := by
    constructor <;> rintro rfl <;> revert hstart <;> decide
  refine ⟨'/', style.toList, rfl, by decide, ?_, ?_⟩ <;> rw [hstyle, List.mem_cons, not_or]
  · exact ⟨Ne.symm hc.1, hopening⟩
  · exact ⟨Ne.symm hc.2, hclosing⟩

theorem toList_styled (style message : String) :
    (styled style message).toList = opening style ++ (escape message.toList ++ closing style) := by
  simp [styled, cell, opening, closing]

/-- In a message in a style, the tag that starts the style is a tag, the one that ends it is a tag if the backslashes
before it are even in number, and nothing else is one. -/
theorem active_styled {style : String} (h : IsTag (opening style)) (message : String) :
    ∃ start, start + escapedTrailing (trailing message.toList) + (closing style).length =
        (styled style message).toList.length ∧
      (Mark.findAll (styled style message).toList).filter Mark.isActive = ⟨0, opening style, 0⟩ ::
        if escapedTrailing (trailing message.toList) % 2 = 0 then
          [⟨escapedTrailing (trailing message.toList), closing style, start⟩] else [] := by
  obtain ⟨u, n, hescapes, hescape, hn⟩ := exists_escapes_escape message.toList
  obtain ⟨body, hu, hactive⟩ := hescapes.activeFrom_append (inert_slashes n ('/' :: style.toList ++ [']']))
    (Text.lastBefore none (opening style)) (opening style).length
  have hclosing : slashes n ++ '[' :: ('/' :: style.toList ++ [']']) = slashes n ++ closing style := rfl
  rw [hclosing, ← List.append_assoc (slashes _), slashes_append_slashes, hn] at hactive
  have htext : (styled style message).toList = slashes 0 ++ opening style ++ (u ++ (slashes n ++ closing style)) := by
    rw [toList_styled, hescape, List.append_assoc]
    rfl
  refine ⟨(opening style).length + body.length, ?_, ?_⟩
  · rw [htext, hu, ← hn]
    simp only [List.length_append, length_slashes]
    omega
  · calc
      (Mark.findAll (styled style message).toList).filter Mark.isActive
          = activeFrom none 0 (slashes 0 ++ opening style ++ (u ++ (slashes n ++ closing style))) := by rw [htext]; rfl
      _ = ⟨0, opening style, 0⟩ :: activeFrom (Text.lastBefore none (opening style)) (opening style).length
            (u ++ (slashes n ++ closing style)) := by
          rw [activeFrom_of_isTag h, if_pos rfl, Nat.zero_add]
          rfl
      _ = _ := by rw [hactive, activeFrom_slashes_append (isTag_closing h)]

/-- The only words of a text that are taken for tags are those of a style: the one at the very start and the other at
the very end. -/
def OnlyStyle (style : String) (text : Text) (marks : List Mark) : Prop :=
  ∃ first last, marks.filter Mark.isActive = [first, last] ∧ first.start = 0 ∧ first.raw = opening style ∧
    last.tag = closing style ∧ last.stop = text.length

theorem onlyStyle_styled_iff {style : String} (h : IsTag (opening style)) (message : String) :
    OnlyStyle style (styled style message).toList (Mark.findAll (styled style message).toList) ↔
      ¬ (3 ≤ trailing message.toList ∧ trailing message.toList % 2 = 1) := by
  obtain ⟨start, hstart, hactive⟩ := active_styled h message
  rw [← escapedTrailing_even_iff, OnlyStyle, hactive]
  constructor
  · rintro ⟨first, last, htwo, -⟩
    by_contra hodd
    rw [if_neg hodd] at htwo
    simp at htwo
  · intro heven
    rw [if_pos heven]
    refine ⟨_, _, rfl, rfl, rfl, rfl, ?_⟩
    rw [← hstart, Mark.stop, Mark.raw, List.length_append, length_slashes, Nat.add_assoc]

namespace Kind

theorem isTag_opening (kind : Kind) : IsTag (opening kind.style) := by
  have hread : tag? (opening kind.style) = some (opening kind.style) := by cases kind <;> decide
  exact (tag?_eq_some_iff.mp hread).1

theorem trailing_sign (kind : Kind) : trailing kind.sign.toList = 0 := by
  cases kind <;> decide

end Kind

/-- A message is printed so that the console finds no tag in it. From left to right, the words with an even number of
backslashes before them are the two tags of the style, at the very start and at the very end, except where the message
ends in three or more backslashes whose number is odd: these take the tag at the end away. -/
theorem only_tags_of_style_iff (kind : Kind) (message : String) :
    ∃ (text : String) (marks : List Mark), tell kind message = .print text ∧ Mark.Scan text.toList marks ∧
      (∀ marks', Mark.Scan text.toList marks' → marks' = marks) ∧
      (OnlyStyle kind.style text.toList marks ↔
        ¬ (3 ≤ trailing message.toList ∧ trailing message.toList % 2 = 1)) := by
  refine ⟨styled kind.style (kind.sign ++ message), _, rfl, Mark.findAll_scan _, fun _ h => h.eq_findAll, ?_⟩
  rw [onlyStyle_styled_iff kind.isTag_opening, String.toList_append, trailing_append kind.trailing_sign]

/-- A word, an open bracket behind three backslashes and another backslash at the end. -/
example : (Mark.findAll (styled "bold red" "\\[b]\\\\\\[x\\").toList).map (·.slashes) = [0, 3, 2] := by decide +kernel

end Accessibility.Console
