import Accessibility.Proofs.Json.Scalar

/-! # Reading what is printed

A value without decimals is printed in printable ASCII and line feeds, and reading the print gives the value. The bound
on nested steps is never reached, for every step takes a character of the text. -/

namespace Accessibility

namespace Json

open Text (hexDigit)

/-- No number in the value has a fraction or an exponent. -/
inductive IsWhole : Json → Prop
  | null : IsWhole null
  | bool (b : Bool) : IsWhole (bool b)
  | integer (n : Int) : IsWhole (integer n)
  | text (s : String) : IsWhole (text s)
  | array {items : List Json} : (∀ item ∈ items, IsWhole item) → IsWhole (array items)
  | object {members : List (String × Json)} : (∀ m ∈ members, IsWhole m.2) → IsWhole (object members)

/-! ## Blanks -/

theorem skipSpace_newLine (level : Nat) (t : Text) : skipSpace (newLine level ++ t) = skipSpace t := by
  have hblank : ∀ c ∈ newLine level, isSpace c = true := by
    intro c hc
    rcases List.mem_cons.mp hc with rfl | hc
    · decide
    · rw [List.eq_of_mem_replicate hc]
      decide
  exact List.dropWhile_append_of_pos hblank

theorem skipSpace_cons {c : Char} (h : isSpace c = false) (t : Text) : skipSpace (c :: t) = c :: t :=
  List.dropWhile_cons_of_neg (Bool.eq_false_iff.mp h)

theorem readValue_newLine (fuel level : Nat) (t : Text) : readValue fuel (newLine level ++ t) = readValue fuel t := by
  cases fuel with
  | zero => rfl
  | succ fuel => rw [readValue, readValue, skipSpace_newLine]

theorem readItems_newLine (fuel level : Nat) (t : Text) : readItems fuel (newLine level ++ t) = readItems fuel t := by
  cases fuel with
  | zero => rfl
  | succ fuel => rw [readItems, readItems, readValue_newLine]

theorem readMembers_newLine (fuel level : Nat) (t : Text) :
    readMembers fuel (newLine level ++ t) = readMembers fuel t := by
  cases fuel with
  | zero => rfl
  | succ fuel => rw [readMembers, readMembers, skipSpace_newLine]

/-! ## Reading -/

/-- However deep the value stands and whatever follows, its print is read up to its end. -/
def IsReadBack (j : Json) : Prop :=
  ∀ (level fuel : Nat) (rest : Text), (print level j).length ≤ fuel → Delimited rest →
    readValue fuel (print level j ++ rest) = some (j, rest)

theorem delimited_newLine (level : Nat) (t : Text) : Delimited (newLine level ++ t) := by
  rintro c ⟨⟩
  exact .inr rfl

theorem delimited_comma (t : Text) : Delimited (',' :: t) := by
  rintro c ⟨⟩
  exact .inl rfl

theorem readItems_print (below : Nat) {level : Nat} {items : List Json} {item : Json} {fuel : Nat}
    (h : ∀ j ∈ item :: items, IsReadBack j)
    (hfuel : (print level item).length + (printItems level items).length < fuel) (rest : Text) :
    readItems fuel (print level item ++ (printItems level items ++ (newLine below ++ ']' :: rest))) =
      some (item :: items, rest) := by
  induction items generalizing item fuel with
  | nil =>
      obtain ⟨fuel, rfl⟩ := Nat.exists_eq_add_one_of_ne_zero (Nat.ne_zero_of_lt hfuel)
      rw [printItems, List.nil_append, readItems,
        h item List.mem_cons_self level fuel _ (by omega) (delimited_newLine below _)]
      simp only [skipSpace_newLine, skipSpace_cons (show isSpace ']' = false by decide)]
  | cons next items ih =>
      obtain ⟨fuel, rfl⟩ := Nat.exists_eq_add_one_of_ne_zero (Nat.ne_zero_of_lt hfuel)
      simp only [printItems, List.length_cons, List.length_append] at hfuel
      have hfit : (print level next).length + (printItems level items).length < fuel := by omega
      have hnext := ih (fun j hj => h j (List.mem_cons_of_mem item hj)) hfit
      simp only [printItems, List.cons_append, List.append_assoc]
      rw [readItems, h item List.mem_cons_self level fuel _ (by omega) (delimited_comma _)]
      simp only [skipSpace_cons (show isSpace ',' = false by decide), readItems_newLine, hnext, Option.map_some]

theorem readValue_blank (fuel : Nat) (t : Text) : readValue fuel (' ' :: t) = readValue fuel t := by
  cases fuel with
  | zero => rfl
  | succ fuel => rw [readValue, readValue, skipSpace, List.dropWhile_cons_of_pos (by decide), ← skipSpace]

theorem skipSpace_printText (s : String) (t : Text) : skipSpace (printText s ++ t) = printText s ++ t :=
  skipSpace_cons (by decide) _

/-- A member is read up to what follows its value, which tells whether there are more. -/
theorem readMembers_succ {value : Json} (h : IsReadBack value) (name : String) {level fuel : Nat} {rest after : Text}
    (hfuel : (print level value).length ≤ fuel) (hrest : Delimited rest) :
    (skipSpace rest = '\x7d' :: after →
      readMembers (fuel + 1) (printText name ++ ':' :: ' ' :: (print level value ++ rest)) =
        some ([(name, value)], after)) ∧
    (skipSpace rest = ',' :: after →
      readMembers (fuel + 1) (printText name ++ ':' :: ' ' :: (print level value ++ rest)) =
        (readMembers fuel after).map fun (members, left) => ((name, value) :: members, left)) := by
  have hcolon : isSpace ':' = false := by decide
  rw [readMembers, skipSpace_printText]
  simp only [printText, List.cons_append, List.append_assoc, List.nil_append, readInside_flatMap_printChar,
    skipSpace_cons hcolon, readValue_blank, h level fuel rest hfuel hrest, String.ofList_toList]
  refine ⟨fun hafter => ?_, fun hafter => ?_⟩ <;> simp only [hafter]

theorem readMembers_print (below : Nat) {level : Nat} {members : List (String × Json)} {name : String}
    {value : Json} {fuel : Nat} (h : ∀ m ∈ (name, value) :: members, IsReadBack m.2)
    (hfuel : (print level value).length + (printMembers level members).length < fuel) (rest : Text) :
    readMembers fuel (printText name ++ ':' :: ' ' ::
        (print level value ++ (printMembers level members ++ (newLine below ++ '\x7d' :: rest)))) =
      some ((name, value) :: members, rest) := by
  have hvalue : IsReadBack value := h (name, value) List.mem_cons_self
  induction members generalizing name value fuel with
  | nil =>
      obtain ⟨fuel, rfl⟩ := Nat.exists_eq_add_one_of_ne_zero (Nat.ne_zero_of_lt hfuel)
      have hbrace : isSpace '\x7d' = false := by decide
      rw [printMembers, List.nil_append]
      refine (readMembers_succ hvalue name (by omega) (delimited_newLine below _)).1 ?_
      rw [skipSpace_newLine, skipSpace_cons hbrace]
  | cons next members ih =>
      obtain ⟨fuel, rfl⟩ := Nat.exists_eq_add_one_of_ne_zero (Nat.ne_zero_of_lt hfuel)
      simp only [printMembers, List.length_cons, List.length_append] at hfuel
      have hcomma : isSpace ',' = false := by decide
      have hrest : ∀ m ∈ next :: members, IsReadBack m.2 := fun m hm => h m (List.mem_cons_of_mem _ hm)
      have hfit : (print level next.2).length + (printMembers level members).length < fuel := by omega
      have hnext := ih hrest hfit (hrest next List.mem_cons_self)
      simp only [printMembers, List.cons_append, List.append_assoc]
      rw [(readMembers_succ hvalue name (by omega) (delimited_comma _)).2 (skipSpace_cons hcomma _)]
      simp only [readMembers_newLine, hnext, Option.map_some]

/-! ## Values -/

/-- A printed integer starts with a minus or a digit. -/
theorem exists_printInteger_eq_cons (n : Int) :
    ∃ c t, printInteger n = c :: t ∧ (c = '-' ∨ c.isDigit = true) := by
  rw [printInteger, Numeral.toList_toString]
  by_cases hn : n < 0
  · rw [if_pos hn]
    exact ⟨'-', _, rfl, .inl rfl⟩
  · rw [if_neg hn, List.nil_append]
    obtain ⟨d, t, ht⟩ := List.exists_cons_of_ne_nil (Nat.toDigits_ne_nil (b := 10) (n := n.natAbs))
    exact ⟨d, t, ht, .inr (Numeral.isDigit_of_mem_toDigits d (ht ▸ List.mem_cons_self))⟩

theorem isSpace_of_isNumeric {c : Char} (h : c = '-' ∨ c.isDigit = true) : isSpace c = false := by
  refine Bool.eq_false_iff.mpr fun hspace => ?_
  simp only [isSpace, Bool.or_eq_true, beq_iff_eq] at hspace
  rcases hspace with ((rfl | rfl) | rfl) | rfl <;> exact absurd h (by decide)

theorem readValue_eq_readNumber {c : Char} (h : c = '-' ∨ c.isDigit = true) (fuel : Nat) (t : Text) :
    readValue (fuel + 1) (c :: t) = readNumber (c :: t) := by
  rw [readValue, skipSpace_cons (isSpace_of_isNumeric h)]
  split <;> first
    | rename_i heq
      obtain ⟨rfl, -⟩ := List.cons.inj heq
      exact absurd h (by decide)
    | rfl

theorem readValue_printInteger (n : Int) (fuel : Nat) {rest : Text} (hrest : Delimited rest) :
    readValue (fuel + 1) (printInteger n ++ rest) = some (integer n, rest) := by
  obtain ⟨c, t, ht, hc⟩ := exists_printInteger_eq_cons n
  rw [← readNumber_printInteger n hrest, ht, List.cons_append, readValue_eq_readNumber hc]

theorem readValue_printText (s : String) (fuel : Nat) (rest : Text) :
    readValue (fuel + 1) (printText s ++ rest) = some (text s, rest) := by
  rw [readValue, skipSpace_printText]
  simp only [printText, List.cons_append, List.append_assoc, List.nil_append, readInside_flatMap_printChar,
    Option.map_some, String.ofList_toList]

/-- The print of a value without decimals starts with no blank, and not as a list ends. -/
theorem exists_print_eq_cons {j : Json} (h : j.IsWhole) (level : Nat) :
    ∃ c t, print level j = c :: t ∧ isSpace c = false ∧ c ≠ ']' := by
  cases h with
  | null => exact ⟨_, _, rfl, by decide⟩
  | bool b => cases b <;> exact ⟨_, _, rfl, by decide⟩
  | integer n =>
      obtain ⟨c, t, ht, hc⟩ := exists_printInteger_eq_cons n
      refine ⟨c, t, ht, isSpace_of_isNumeric hc, ?_⟩
      rintro rfl
      exact absurd hc (by decide)
  | text s => exact ⟨_, _, rfl, by decide⟩
  | @array items h => cases items <;> exact ⟨_, _, rfl, by decide⟩
  | @object members h => cases members <;> exact ⟨_, _, rfl, by decide⟩

theorem readValue_printArray {item : Json} {items : List Json} (hitem : item.IsWhole)
    (h : ∀ j ∈ item :: items, IsReadBack j) {level fuel : Nat}
    (hfuel : (print level (array (item :: items))).length ≤ fuel + 1) (rest : Text) :
    readValue (fuel + 1) (print level (array (item :: items)) ++ rest) = some (array (item :: items), rest) := by
  obtain ⟨c, t, ht, hspace, hc⟩ := exists_print_eq_cons hitem (level + 1)
  simp only [print, List.length_cons, List.length_append, List.cons_append, List.append_assoc,
    List.nil_append] at hfuel ⊢
  have hfit : (print (level + 1) item).length + (printItems (level + 1) items).length < fuel := by omega
  have hitems := readItems_print level h hfit rest
  rw [readValue, skipSpace_cons (by decide)]
  simp only [skipSpace_newLine]
  rw [ht, List.cons_append] at hitems ⊢
  rw [skipSpace_cons hspace]
  split
  · rename_i heq
    exact absurd (List.cons.inj heq).1 hc
  · rw [hitems]
    rfl

theorem readValue_printObject {name : String} {value : Json} {members : List (String × Json)}
    (h : ∀ m ∈ (name, value) :: members, IsReadBack m.2) {level fuel : Nat}
    (hfuel : (print level (object ((name, value) :: members))).length ≤ fuel + 1) (rest : Text) :
    readValue (fuel + 1) (print level (object ((name, value) :: members)) ++ rest) =
      some (object ((name, value) :: members), rest) := by
  simp only [print, List.length_cons, List.length_append, List.cons_append, List.append_assoc,
    List.nil_append] at hfuel ⊢
  have hfit : (print (level + 1) value).length + (printMembers (level + 1) members).length < fuel := by omega
  have hmembers := readMembers_print level h hfit rest
  rw [readValue, skipSpace_cons (by decide)]
  simp only [skipSpace_newLine, skipSpace_printText]
  obtain ⟨t, ht⟩ : ∃ t, printText name = '"' :: t := ⟨_, rfl⟩
  rw [ht, List.cons_append] at hmembers ⊢
  split
  · rename_i heq
    exact absurd (List.cons.inj heq).1 (by decide)
  · rw [hmembers]
    rfl

theorem IsWhole.isReadBack_of_succ {j : Json} (h : j.IsWhole)
    (hread : ∀ (level fuel : Nat) (rest : Text), (print level j).length ≤ fuel + 1 → Delimited rest →
      readValue (fuel + 1) (print level j ++ rest) = some (j, rest)) : IsReadBack j := by
  intro level fuel rest hfuel hrest
  obtain ⟨c, t, ht, -⟩ := exists_print_eq_cons h level
  cases fuel with
  | zero =>
      rw [ht] at hfuel
      contradiction
  | succ fuel => exact hread level fuel rest hfuel hrest

theorem IsWhole.isReadBack {j : Json} (h : j.IsWhole) : IsReadBack j := by
  induction h with
  | null => exact IsWhole.null.isReadBack_of_succ fun _ _ _ _ _ => rfl
  | bool b => cases b <;> exact (IsWhole.bool _).isReadBack_of_succ fun _ _ _ _ _ => rfl
  | integer n =>
      exact (IsWhole.integer n).isReadBack_of_succ fun _ fuel _ _ hrest => readValue_printInteger n fuel hrest
  | text s => exact (IsWhole.text s).isReadBack_of_succ fun _ fuel rest _ _ => readValue_printText s fuel rest
  | @array items hitems ih =>
      refine (IsWhole.array hitems).isReadBack_of_succ fun level fuel rest hfuel _ => ?_
      cases items with
      | nil => rfl
      | cons item items => exact readValue_printArray (hitems item List.mem_cons_self) ih hfuel rest
  | @object members hmembers ih =>
      refine (IsWhole.object hmembers).isReadBack_of_succ fun level fuel rest hfuel _ => ?_
      cases members with
      | nil => rfl
      | cons m members => exact readValue_printObject ih hfuel rest

/-- A line feed at the end of the print is passed over. -/
theorem IsWhole.read?_print {j : Json} (h : j.IsWhole) : read? (print 0 j ++ ['\n']) = some j := by
  have hread := h.isReadBack 0 ((print 0 j ++ ['\n']).length + 1) ['\n'] (by simp only [List.length_append]; omega)
    (delimited_newLine 0 [])
  rw [read?, hread]
  rfl

/-! ## Characters -/

/-- A line feed or a printable character of the ASCII range. -/
def IsPlain (c : Char) : Prop :=
  c = '\n' ∨ ' ' ≤ c ∧ c ≤ '~'

instance (c : Char) : Decidable (IsPlain c) :=
  inferInstanceAs (Decidable (_ ∨ _))

theorem isPlain_of_all {t : Text} (h : t.all (fun c => decide (IsPlain c)) = true) : ∀ c ∈ t, IsPlain c :=
  fun c hc => of_decide_eq_true (List.all_eq_true.mp h c hc)

theorem isPlain_of_isDigit {c : Char} (h : c.isDigit = true) : IsPlain c := by
  obtain ⟨hlow, hhigh⟩ := Char.isDigit_iff_toNat.mp h
  refine .inr ⟨?_, ?_⟩ <;> rw [Char.le_def, UInt32.le_iff_toNat_le]
  · exact Nat.le_trans (by decide) hlow
  · exact Nat.le_trans hhigh (by decide)

theorem isPlain_hexDigit : ∀ d < 16, IsPlain (hexDigit d) := by
  decide

theorem isPlain_escapeUnit (n : Nat) : ∀ c ∈ escapeUnit n, IsPlain c := by
  have hdigit : ∀ m : Nat, IsPlain (hexDigit (m % 16)) := fun m => isPlain_hexDigit _ (Nat.mod_lt m (by decide))
  rw [escapeUnit_eq]
  simp only [List.forall_mem_cons, hdigit, List.not_mem_nil, false_implies, implies_true, and_true]
  decide

theorem isPlain_printChar (c : Char) : ∀ d ∈ printChar c, IsPlain d := by
  obtain ⟨letter, hprint, -, -, hplain⟩ | ⟨hprint, -, -, hplain⟩ | ⟨hprint, -⟩ | ⟨hprint, -⟩ := printChar_cases c
  · rw [hprint, List.forall_mem_cons, List.forall_mem_singleton]
    exact ⟨by decide, .inr hplain⟩
  · rw [hprint, List.forall_mem_singleton]
    exact .inr hplain
  · rw [hprint]
    exact isPlain_escapeUnit _
  · rw [hprint]
    exact List.forall_mem_append.mpr ⟨isPlain_escapeUnit _, isPlain_escapeUnit _⟩

theorem isPlain_printText (s : String) : ∀ c ∈ printText s, IsPlain c := by
  have hinside : ∀ c ∈ s.toList.flatMap printChar, IsPlain c := by
    intro c hc
    obtain ⟨d, -, hd⟩ := List.mem_flatMap.mp hc
    exact isPlain_printChar d c hd
  have hquote : ∀ c ∈ ['"'], IsPlain c := isPlain_of_all (by decide)
  exact List.forall_mem_append.mpr ⟨List.forall_mem_append.mpr ⟨hquote, hinside⟩, hquote⟩

theorem isPlain_printInteger (n : Int) : ∀ c ∈ printInteger n, IsPlain c := by
  rw [printInteger, Numeral.toList_toString]
  refine List.forall_mem_append.mpr ⟨?_, fun c hc => isPlain_of_isDigit (Numeral.isDigit_of_mem_toDigits c hc)⟩
  split <;> exact isPlain_of_all (by decide)

theorem isPlain_newLine (level : Nat) : ∀ c ∈ newLine level, IsPlain c := by
  intro c hc
  rcases List.mem_cons.mp hc with rfl | hc
  · decide
  · rw [List.eq_of_mem_replicate hc]
    decide

theorem isPlain_printItems {level : Nat} {items : List Json}
    (h : ∀ item ∈ items, ∀ c ∈ print level item, IsPlain c) : ∀ c ∈ printItems level items, IsPlain c := by
  induction items with
  | nil => exact List.forall_mem_nil _
  | cons item items ih =>
      simp only [printItems, List.cons_append, List.append_assoc, List.forall_mem_cons, List.forall_mem_append]
      exact ⟨by decide, isPlain_newLine level, h item List.mem_cons_self,
        ih fun j hj => h j (List.mem_cons_of_mem item hj)⟩

theorem isPlain_printMembers {level : Nat} {members : List (String × Json)}
    (h : ∀ m ∈ members, ∀ c ∈ print level m.2, IsPlain c) : ∀ c ∈ printMembers level members, IsPlain c := by
  induction members with
  | nil => exact List.forall_mem_nil _
  | cons m members ih =>
      simp only [printMembers, List.cons_append, List.append_assoc, List.forall_mem_cons, List.forall_mem_append]
      exact ⟨by decide, isPlain_newLine level, isPlain_printText m.1, by decide, by decide, h m List.mem_cons_self,
        ih fun n hn => h n (List.mem_cons_of_mem m hn)⟩

theorem IsWhole.isPlain_print {j : Json} (h : j.IsWhole) (level : Nat) : ∀ c ∈ print level j, IsPlain c := by
  induction h generalizing level with
  | null => exact isPlain_of_all rfl
  | bool b => cases b <;> exact isPlain_of_all rfl
  | integer n => exact isPlain_printInteger n
  | text s => exact isPlain_printText s
  | @array items _ ih =>
      cases items with
      | nil => exact isPlain_of_all rfl
      | cons item items =>
          simp only [print, List.cons_append, List.append_assoc, List.forall_mem_cons, List.forall_mem_append]
          refine ⟨by decide, isPlain_newLine _, ih item List.mem_cons_self _, isPlain_printItems fun j hj => ?_,
            isPlain_newLine _, by decide, List.forall_mem_nil _⟩
          exact ih j (List.mem_cons_of_mem item hj) _
  | @object members _ ih =>
      cases members with
      | nil => exact isPlain_of_all rfl
      | cons m members =>
          simp only [print, List.cons_append, List.append_assoc, List.forall_mem_cons, List.forall_mem_append]
          refine ⟨by decide, isPlain_newLine _, isPlain_printText _, by decide, by decide, ih m List.mem_cons_self _,
            isPlain_printMembers fun n hn => ?_, isPlain_newLine _, by decide, List.forall_mem_nil _⟩
          exact ih n (List.mem_cons_of_mem m hn) _

end Json

end Accessibility
