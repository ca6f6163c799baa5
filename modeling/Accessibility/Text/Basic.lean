/-! # Texts

A page, a style sheet or any other piece of source is read character by character, and positions in it
count characters. Texts are therefore lists of characters; finished messages are strings. -/

namespace Accessibility

abbrev Text := List Char

namespace Text

/-- Whether `word` stands somewhere in the text. -/
def mentions (word : Text) : Text → Bool
  | [] => word.isEmpty
  | c :: rest => word.isPrefixOf (c :: rest) || mentions word rest

/-- The text without its longest front part all of whose characters are `dropped`, and likewise at its end. -/
def trim (dropped : Char → Bool) (t : Text) : Text :=
  ((t.dropWhile dropped).reverse.dropWhile dropped).reverse

/-- What stands before the first `stop`, or all of the text. -/
def upTo (stop : Char) (t : Text) : Text :=
  t.takeWhile (· != stop)

/-- What stands after the first `stop`, if there is one. -/
def after? (stop : Char) : Text → Option Text
  | [] => none
  | c :: rest => if c = stop then some rest else after? stop rest

/-- What follows a word at the front of a text. -/
def dropWord? (word t : Text) : Option Text :=
  if word.isPrefixOf t then some (t.drop word.length) else none

theorem mentions_iff (word t : Text) : mentions word t = true ↔ word <:+: t := by
  induction t with
  | nil => cases word <;> simp [mentions]
  | cons c rest ih => simp [mentions, ih, List.infix_cons_iff]

theorem eq_upTo_of_after? {stop : Char} {t rest : Text} (h : after? stop t = some rest) :
    t = upTo stop t ++ stop :: rest := by
  induction t with
  | nil => simp [after?] at h
  | cons c u ih =>
    by_cases hc : c = stop
    · simp [after?, hc] at h
      simp [upTo, hc, h]
    · simp only [after?, hc, if_false] at h
      simpa [upTo, List.takeWhile_cons, hc] using ih h

theorem not_mem_upTo (stop : Char) (t : Text) : stop ∉ upTo stop t := by
  intro h
  have := List.all_eq_true.mp (List.all_takeWhile (p := (· != stop)) (l := t)) stop h
  simp at this

theorem upTo_append_drop (stop : Char) (t : Text) : upTo stop t ++ t.drop (upTo stop t).length = t :=
  List.prefix_iff_eq_append.mp (List.takeWhile_prefix _)

theorem upTo_append {stop : Char} {front : Text} (h : stop ∉ front) (rest : Text) :
    upTo stop (front ++ rest) = front ++ upTo stop rest := by
  apply List.takeWhile_append_of_pos
  intro c hc
  simpa using fun heq : c = stop => h (heq ▸ hc)

theorem upTo_append_cons {stop : Char} {front : Text} (h : stop ∉ front) (rest : Text) :
    upTo stop (front ++ stop :: rest) = front := by
  rw [upTo_append h]
  simp [upTo]

theorem mem_upTo_append {stop c : Char} {front rest : Text} (h : c ∈ upTo stop (front ++ rest)) :
    c ∈ front ∨ c ∈ upTo stop rest := by
  induction front with
  | nil => exact Or.inr h
  | cons d u ih =>
    simp only [upTo, List.cons_append, List.takeWhile_cons] at h
    split at h
    · rcases List.mem_cons.mp h with rfl | h
      · exact Or.inl List.mem_cons_self
      · exact (ih h).imp_left (List.mem_cons_of_mem d)
    · simp at h

theorem after?_append_cons {stop : Char} {front : Text} (h : stop ∉ front) (rest : Text) :
    after? stop (front ++ stop :: rest) = some rest := by
  induction front with
  | nil => simp [after?]
  | cons c u ih =>
    rw [List.mem_cons, not_or] at h
    simpa [after?, Ne.symm h.1] using ih h.2

theorem after?_eq_none {stop : Char} {t : Text} (h : stop ∉ t) : after? stop t = none := by
  induction t with
  | nil => rfl
  | cons c u ih =>
    rw [List.mem_cons, not_or] at h
    simpa [after?, Ne.symm h.1] using ih h.2

/-- A text has only one first `stop`. -/
theorem append_cons_inj {stop : Char} {front front' rest rest' : Text} (h : stop ∉ front) (h' : stop ∉ front')
    (heq : front ++ stop :: rest = front' ++ stop :: rest') : front = front' ∧ rest = rest' := by
  have hfront := congrArg (upTo stop) heq
  have hrest := congrArg (after? stop) heq
  rw [upTo_append_cons h, upTo_append_cons h'] at hfront
  rw [after?_append_cons h, after?_append_cons h'] at hrest
  exact ⟨hfront, Option.some.inj hrest⟩

end Text

end Accessibility
