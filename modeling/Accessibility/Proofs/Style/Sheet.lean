import Accessibility.Proofs.Text.Blank
import Accessibility.Proofs.Text.Concatenation
import Accessibility.Proofs.Text.Names
import Accessibility.Style.Declaration

/-! # Sheets of declarations

A sheet is a list of declarations that are written one after another. A declaration is found where it is written, and
nothing is found inside one: its property is a name that ends at the colon, and its value holds no other colon. So the
first declaration of a property that is found is the first one of the list. -/

namespace Accessibility.Style

/-! ## Sheets -/

/-- The characters that the values of a sheet are made of. -/
def isSheetChar (c : Char) : Bool :=
  !(c ∈ [';', '\x7b', '\x7d', '<', '>', ':', '!', '\x27', '"', '\n'])

/-- A property and its value. -/
structure Declaration where
  property : Text
  value : Text
  property_ne_nil : property ≠ []
  property_letters : ∀ c ∈ property, (c.isAlpha || c == '-') = true
  value_not_blank : ∃ c ∈ value, Text.isBlank c = false
  value_chars : ∀ c ∈ value, isSheetChar c = true

def Declaration.render (d : Declaration) : Text :=
  d.property ++ ':' :: ' ' :: d.value ++ [';', ' ']

def render (sheet : List Declaration) : Text :=
  sheet.flatMap Declaration.render

/-- What a property may be called. -/
def Property.names : Property → List Text
  | .color => ["color".toList]
  | .background => ["background".toList, "background-color".toList]

/-- The declaration names the property, without regard to the case of ASCII letters. -/
def Declaration.IsOf (p : Property) (d : Declaration) : Prop :=
  ∃ name ∈ p.names, Text.SameName d.property name

instance (p : Property) (d : Declaration) : Decidable (d.IsOf p) :=
  inferInstanceAs (Decidable (∃ name ∈ p.names, Text.SameName d.property name))

/-- The value of the first declaration of a property. -/
def firstValue? (p : Property) (sheet : List Declaration) : Option Text :=
  (sheet.find? fun d => d.IsOf p).map (·.value)

/-! ## Names of properties -/

theorem Property.isPlain_of_mem_names {p : Property} {name : Text} (h : name ∈ p.names) :
    ∀ c ∈ name, Text.isPlain c = true := by
  have hall : p.names.all (·.all Text.isPlain) = true := by cases p <;> decide
  exact List.all_eq_true.mp (List.all_eq_true.mp hall name h)

theorem Property.nil_not_mem_names (p : Property) : [] ∉ p.names := by
  cases p <;> decide

/-- What is split off stands for a name of the property. -/
theorem Property.exists_name_of_take? {p : Property} {t written rest : Text} (h : p.take? t = some (written, rest)) :
    t = written ++ rest ∧ ∃ name ∈ p.names, written.map Text.loose = name.map Text.loose := by
  cases p with
  | color =>
      obtain ⟨ht, hloose⟩ := Text.take?_eq_some_iff.mp h
      exact ⟨ht, _, List.mem_singleton_self _, hloose⟩
  | background =>
      rw [take?] at h
      cases hfront : Text.take? "background".toList t with
      | none =>
          rw [hfront] at h
          contradiction
      | some found =>
          obtain ⟨front, behind⟩ := found
          obtain ⟨rfl, hloose⟩ := Text.take?_eq_some_iff.mp hfront
          rw [hfront] at h
          cases hmore : Text.take? "-color".toList behind with
          | none =>
              simp only [hmore, Option.some.injEq, Prod.mk.injEq] at h
              obtain ⟨rfl, rfl⟩ := h
              exact ⟨rfl, _, List.mem_cons_self, hloose⟩
          | some found =>
              obtain ⟨more, behind'⟩ := found
              obtain ⟨rfl, hlooseMore⟩ := Text.take?_eq_some_iff.mp hmore
              simp only [hmore, Option.some.injEq, Prod.mk.injEq] at h
              obtain ⟨rfl, rfl⟩ := h
              refine ⟨(List.append_assoc _ _ _).symm, "background-color".toList, by decide, ?_⟩
              rw [List.map_append, hloose, hlooseMore]
              decide

/-- A name of the property is split off as a whole, since a colon continues none. -/
theorem Property.take?_of_name {p : Property} {name written : Text} (hname : name ∈ p.names)
    (h : written.map Text.loose = name.map Text.loose) (rest : Text) :
    p.take? (written ++ ':' :: rest) = some (written, ':' :: rest) := by
  cases p with
  | color =>
      obtain rfl := List.mem_singleton.mp hname
      exact Text.take?_eq_some_iff.mpr ⟨rfl, h⟩
  | background =>
      rw [take?]
      simp only [names, List.mem_cons, List.not_mem_nil, or_false] at hname
      rcases hname with rfl | rfl
      · have hfront : Text.take? "background".toList (written ++ ':' :: rest) = some (written, ':' :: rest) :=
          Text.take?_eq_some_iff.mpr ⟨rfl, h⟩
        have hmore : Text.take? "-color".toList (':' :: rest) = none := rfl
        simp only [hfront, hmore]
      · have hsplit : "background-color".toList = "background".toList ++ "-color".toList := by decide
        rw [hsplit, List.map_append] at h
        obtain ⟨front, more, rfl, hloose, hlooseMore⟩ := List.map_eq_append_iff.mp h
        have hfront : Text.take? "background".toList (front ++ more ++ ':' :: rest) =
            some (front, more ++ ':' :: rest) :=
          Text.take?_eq_some_iff.mpr ⟨List.append_assoc _ _ _, hloose⟩
        have hmore : Text.take? "-color".toList (more ++ ':' :: rest) = some (more, ':' :: rest) :=
          Text.take?_eq_some_iff.mpr ⟨rfl, hlooseMore⟩
        simp only [hfront, hmore]

/-! ## Where a declaration is read -/

theorem colon?_eq_some {t colon after : Text} (h : colon? t = some (colon, after)) :
    ∃ gap, t = gap ++ ':' :: after ∧ ∀ c ∈ gap, Text.isBlank c = true := by
  unfold colon? at h
  split at h
  · rename_i rest hrest
    obtain ⟨-, rfl⟩ := Prod.mk.inj (Option.some.inj h)
    refine ⟨t.takeWhile Text.isBlank, ?_, List.all_eq_true.mp List.all_takeWhile⟩
    rw [← hrest, List.takeWhile_append_dropWhile]
  · contradiction

theorem declared_readsNames (p : Property) : (declared p).ReadsNames p.names ':' where
  skips := by
    intro before t hbefore
    rw [declared, if_pos hbefore]
  leads := by
    intro before t found h
    unfold declared at h
    split at h
    · contradiction
    · cases htake : p.take? t with
      | none => simp [htake] at h
      | some taken =>
          obtain ⟨written, rest⟩ := taken
          obtain ⟨rfl, name, hname, hloose⟩ := Property.exists_name_of_take? htake
          simp only [htake] at h
          split at h
          · contradiction
          · rename_i colon after hcolon
            obtain ⟨gap, rfl, hgap⟩ := colon?_eq_some hcolon
            exact ⟨name, hname, written, gap, after, rfl, hloose, hgap⟩
  plain := fun _ => Property.isPlain_of_mem_names
  sign_isSign := by decide

namespace Declaration

theorem isPlain_property (d : Declaration) : ∀ c ∈ d.property, Text.isPlain c = true := by
  intro c hc
  have hletter := d.property_letters c hc
  simp only [Text.isPlain, Char.isAlphanum, Bool.or_eq_true] at hletter ⊢
  exact hletter.imp_left .inl

theorem not_mem_value (d : Declaration) {c : Char} (hc : isSheetChar c = false) : c ∉ d.value := by
  intro hmem
  rw [d.value_chars c hmem] at hc
  contradiction

theorem isValueChar_of_mem (d : Declaration) {c : Char} (hc : c ∈ d.value) : isValueChar c = true := by
  have hchar := d.value_chars c hc
  simp only [isSheetChar, List.mem_cons, List.not_mem_nil, or_false, Bool.not_eq_true', decide_eq_false_iff_not,
    not_or] at hchar
  simp [isValueChar, hchar]

/-- A value is read from its first character that is not blank up to the semicolon. -/
theorem value?_value (d : Declaration) (rest : Text) :
    value? (' ' :: d.value ++ ';' :: rest) = some (d.value.dropWhile Text.isBlank, ' ' :: d.value) := by
  obtain ⟨c, hc, hvisible⟩ := d.value_not_blank
  have hspace : Text.isBlank ' ' = true := by decide
  have hblanks : (' ' :: d.value ++ ';' :: rest).takeWhile Text.isBlank = ' ' :: d.value.takeWhile Text.isBlank := by
    rw [List.cons_append, List.takeWhile_cons_of_pos hspace, Text.takeWhile_append_of_mem hvisible hc]
  have hbehind : (' ' :: d.value ++ ';' :: rest).dropWhile Text.isBlank =
      d.value.dropWhile Text.isBlank ++ ';' :: rest := by
    rw [List.cons_append, List.dropWhile_cons_of_pos hspace, Text.dropWhile_append_of_mem hvisible hc]
  have hchars : ∀ e ∈ d.value.dropWhile Text.isBlank, isValueChar e = true :=
    fun e he => d.isValueChar_of_mem ((List.dropWhile_sublist _).mem he)
  have hvalue : (d.value.dropWhile Text.isBlank ++ ';' :: rest).takeWhile isValueChar =
      d.value.dropWhile Text.isBlank := by
    rw [List.takeWhile_append_of_pos hchars, List.takeWhile_cons_of_neg (by decide), List.append_nil]
  have hne : (d.value.dropWhile Text.isBlank).isEmpty = false :=
    List.isEmpty_eq_false_iff.mpr (List.ne_nil_of_mem (Text.mem_dropWhile_of_mem hvisible hc))
  simp only [value?, hblanks, hbehind, hvalue, hne, Bool.not_false, if_true]
  rw [List.cons_append, List.takeWhile_append_dropWhile]

/-- A declaration is read where it is written, if it is one of the property. -/
theorem declared_of_isOf {p : Property} {d : Declaration} (h : d.IsOf p) {before : Option Char}
    (hbefore : before.any Text.isName = false) (rest : Text) :
    declared p before (d.property ++ ':' :: (' ' :: d.value ++ ';' :: rest)) =
      some (d.value.dropWhile Text.isBlank, d.property ++ [':'] ++ (' ' :: d.value)) := by
  obtain ⟨name, hname, hsame⟩ := h
  have hloose := (Text.map_loose_eq_iff d.isPlain_property (Property.isPlain_of_mem_names hname)).mpr hsame
  have hcolon : colon? (':' :: (' ' :: d.value ++ ';' :: rest)) = some ([':'], ' ' :: d.value ++ ';' :: rest) := rfl
  simp only [declared, hbefore, Property.take?_of_name hname hloose, hcolon, d.value?_value, Bool.false_eq_true,
    if_false, Option.map_some]

/-- A declaration of another property has nothing of this one: not at its name, not inside its name, where the name goes
on, and not behind its name, where a semicolon stands before the next colon. -/
theorem quiet_of_not_isOf {p : Property} {d : Declaration} (h : ¬d.IsOf p) (before : Option Char) (rest : Text) :
    Text.Quiet (declared p) before d.render rest := by
  have hreads := declared_readsNames p
  obtain ⟨c, letters, hproperty⟩ := List.exists_cons_of_ne_nil d.property_ne_nil
  obtain ⟨hc, hletters⟩ : Text.isName c = true ∧ ∀ e ∈ letters, Text.isName e = true :=
    List.forall_mem_cons.mp fun e he => Text.isName_of_isPlain (d.isPlain_property e (hproperty ▸ he))
  have hbefore : (some c).any Text.isName = true := hc
  have hother : declared p before (d.property ++ ':' :: (' ' :: d.value ++ [';', ' '] ++ rest)) = none :=
    hreads.eq_none_of_name d.isPlain_property (fun name hname hsame => h ⟨name, hname, hsame⟩) _
  have hrender : d.render = c :: (letters ++ ([':'] ++ (' ' :: d.value ++ [';'] ++ [' ']))) := by
    simp [render, hproperty]
  have hsemicolon : Text.IsSign ';' := by decide
  have hvalue : ':' ∉ ' ' :: d.value := by
    simpa using d.not_mem_value (c := ':') (by decide)
  have hsingle : ∀ e, Text.isPlain (Text.loose e) = false → ∀ before rest, Text.Quiet (declared p) before [e] rest := by
    refine fun e he before rest => Text.quiet_of_heads (fun e' he' before t => ?_) rest
    rw [List.mem_singleton.mp he']
    exact hreads.eq_none_of_head p.nil_not_mem_names he t
  rw [hrender]
  refine Text.quiet_cons_iff.mpr ⟨by simpa [hproperty] using hother, ?_⟩
  refine (Text.quiet_of_isName hreads.skips hletters hbefore _).append ((hsingle ':' (by decide) _ _).append ?_)
  refine (hreads.quiet_up_to_mark hsemicolon (by decide) hvalue _).append ?_
  exact hsingle ' ' (by decide) _ _

end Declaration

/-! ## The first declaration -/

/-- The search comes to the first declaration of a property, since it finds nothing in those of others. -/
theorem head?_occurrencesFrom_render (p : Property) (sheet : List Declaration) {before : Option Char}
    (hbefore : before.any Text.isName = false) (place : Nat) :
    (Text.occurrencesFrom (declared p) 0 before place (render sheet)).head?.map (·.value) =
      (firstValue? p sheet).map (·.dropWhile Text.isBlank) := by
  induction sheet generalizing before place with
  | nil => rfl
  | cons d sheet ih =>
      rw [firstValue?, List.find?_cons, render, List.flatMap_cons]
      by_cases hd : d.IsOf p
      · have hfront := Declaration.declared_of_isOf hd hbefore (' ' :: sheet.flatMap Declaration.render)
        have hsplit : d.render ++ sheet.flatMap Declaration.render =
            d.property ++ [':'] ++ (' ' :: d.value) ++ ';' :: ' ' :: sheet.flatMap Declaration.render := by
          simp [Declaration.render]
        rw [hsplit, Text.occurrencesFrom_of_front (by simpa using hfront) (by simp)]
        simp [hd]
      · rw [Text.occurrencesFrom_of_quiet (Declaration.quiet_of_not_isOf hd before _)]
        have hlast : Text.lastBefore before d.render = some ' ' := by simp [Declaration.render]
        have hspace : (some ' ').any Text.isName = false := by decide
        rw [hlast, decide_eq_false hd]
        exact ih hspace _

theorem exists_of_firstValue? {p : Property} {sheet : List Declaration} {v : Text} (h : firstValue? p sheet = some v) :
    ∃ d ∈ sheet, d.value = v := by
  obtain ⟨d, hd, hvalue⟩ := Option.map_eq_some_iff.mp h
  exact ⟨d, List.mem_of_find?_eq_some hd, hvalue⟩

/-- What is declared is read without the blanks around it. No value of a sheet has a mark of importance. -/
theorem declaration?_render (p : Property) (sheet : List Declaration) :
    declaration? p (render sheet) = (firstValue? p sheet).map Text.strip := by
  have hfirst : (Text.first? (declared p) (render sheet)).map (·.value) =
      (firstValue? p sheet).map (·.dropWhile Text.isBlank) :=
    head?_occurrencesFrom_render p sheet rfl 0
  have hread : declaration? p (render sheet) =
      ((Text.first? (declared p) (render sheet)).map (·.value)).map fun v => Text.strip (Text.upTo '!' v) := by
    rw [declaration?, Option.map_map]
    rfl
  rw [hread, hfirst]
  cases hv : firstValue? p sheet with
  | none => rfl
  | some v =>
      obtain ⟨d, -, rfl⟩ := exists_of_firstValue? hv
      have hmark : '!' ∉ d.value.dropWhile Text.isBlank :=
        fun hmem => d.not_mem_value (by decide) ((List.dropWhile_sublist _).mem hmem)
      rw [Option.map_some, Option.map_some, Text.upTo_of_not_mem hmark, Text.strip, Text.trim_dropWhile]
      rfl

end Accessibility.Style
