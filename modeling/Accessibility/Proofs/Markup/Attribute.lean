import Accessibility.Markup.Attribute
import Accessibility.Proofs.Text.Blank
import Accessibility.Proofs.Text.Loose
import Accessibility.Proofs.Text.Names

/-! # Reading attributes

A quoted attribute begins with its name, and between the name and the equals sign there are only blanks. So whatever
else stands before the first equals sign keeps an attribute from being read there. Of the accessibility attributes only
the beginning of the name is given, and the name is read as far as it goes. -/

namespace Accessibility.Attribute

/-! ## Where an attribute is read -/

theorem equals?_eq_some_iff {t equals after : Text} :
    equals? t = some (equals, after) ↔
      ∃ gap, (∀ c ∈ gap, Text.isBlank c = true) ∧ t = gap ++ '=' :: after ∧ equals = gap ++ ['='] := by
  constructor
  · intro h
    unfold equals? at h
    split at h
    · rename_i rest hrest
      simp only [Option.some.injEq, Prod.mk.injEq] at h
      obtain ⟨rfl, rfl⟩ := h
      refine ⟨t.takeWhile Text.isBlank, List.all_eq_true.mp List.all_takeWhile, ?_, rfl⟩
      rw [← hrest, List.takeWhile_append_dropWhile]
    · simp at h
  · rintro ⟨gap, hgap, rfl, rfl⟩
    have hequals : ¬Text.isBlank '=' = true := by decide
    rw [equals?, List.dropWhile_append_of_pos hgap, List.dropWhile_cons_of_neg hequals,
      List.takeWhile_append_of_pos hgap, List.takeWhile_cons_of_neg hequals, List.append_nil]
    rfl

theorem valued_skipsNames (name : Text) : (valued name).SkipsNames := by
  intro before t hbefore
  rw [valued, if_pos hbefore]

theorem valued_readsNames {name : Text} (hname : ∀ c ∈ name, Text.isPlain c = true) :
    (valued name).ReadsNames [name] '=' where
  skips := valued_skipsNames name
  leads := by
    intro before t found h
    unfold valued at h
    split at h
    · contradiction
    · cases htake : Text.take? name t with
      | none => simp [htake] at h
      | some taken =>
          obtain ⟨written, rest⟩ := taken
          obtain ⟨rfl, hloose⟩ := Text.take?_eq_some_iff.mp htake
          simp only [htake] at h
          split at h
          · contradiction
          · rename_i equals after hequals
            obtain ⟨gap, hgap, rfl, -⟩ := equals?_eq_some_iff.mp hequals
            exact ⟨name, List.mem_singleton_self name, written, gap, after, rfl, hloose, hgap⟩
  plain := by simpa using hname
  sign_isSign := by decide

/-! ## Where none is read -/

/-- Characters that keep names and equals signs apart. -/
def isBar (c : Char) : Bool :=
  c == '<' || c == '>' || c == '"'

theorem isBar_spec {c : Char} (h : isBar c = true) : Text.IsSign c ∧ c ≠ '=' := by
  simp only [isBar, Bool.or_eq_true, beq_iff_eq] at h
  rcases h with (rfl | rfl) | rfl <;> decide

variable {name : Text} {before : Option Char}

/-- No attribute is read at an equals sign. -/
theorem valued_eq_none_of_equals (hname : ∀ c ∈ name, Text.isPlain c = true) (hne : name ≠ []) (rest : Text) :
    valued name before ('=' :: rest) = none :=
  (valued_readsNames hname).eq_none_of_head (by simpa using Ne.symm hne) (by decide) rest

/-- No attribute is read before the space in front of another name. -/
theorem valued_eq_none_of_space (hname : ∀ c ∈ name, Text.isPlain c = true) {front written : Text}
    (hfront : '=' ∉ front) (hwritten : ∀ c ∈ written, Text.isPlain c = true) (hne : written ≠ []) (rest : Text) :
    valued name before (front ++ ' ' :: written ++ '=' :: rest) = none := by
  refine (valued_readsNames hname).eq_none fun wanted hwanted hlead => ?_
  obtain rfl := List.mem_singleton.mp hwanted
  have htext : '=' ∉ front ++ ' ' :: written := by
    have : '=' ∉ written := fun hmem => absurd (hwritten _ hmem) (by decide)
    simp [hfront, this]
  have hlast : ∀ c ∈ (front ++ ' ' :: written).getLast?, Text.isPlain c = true := by
    intro c hc
    obtain ⟨start, last, rfl⟩ := (List.eq_nil_or_concat written).resolve_left hne
    have hlast : last = c := by simpa [List.getLast?_append, List.getLast?_cons] using hc
    exact hwritten c (by simp [hlast])
  have hloose := hlead.map_loose_eq hname (by decide) htext hlast
  have hspace : Text.loose ' ' ∈ wanted.map Text.loose := hloose ▸ List.mem_map_of_mem (by simp)
  obtain ⟨a, ha, heq⟩ := List.mem_map.mp hspace
  exact absurd (Text.isPlain_of_loose_eq (hname a ha) (by decide) heq.symm) (by decide)

/-! ## Stretches where none is read -/

theorem quiet_of_bar (hname : ∀ c ∈ name, Text.isPlain c = true) {bar : Char} (hbar : isBar bar = true)
    {front rest : Text} (hfront : '=' ∉ front) (hrest : '=' ∉ Text.upTo bar rest) :
    Text.Quiet (valued name) before front rest :=
  (valued_readsNames hname).quiet_of_mark (isBar_spec hbar).1 (isBar_spec hbar).2 hfront hrest

/-- Up to a bar without an equals sign, whatever stands behind the bar. -/
theorem quiet_up_to_bar (hname : ∀ c ∈ name, Text.isPlain c = true) {bar : Char} (hbar : isBar bar = true)
    {front : Text} (hfront : '=' ∉ front) (rest : Text) : Text.Quiet (valued name) before (front ++ [bar]) rest :=
  (valued_readsNames hname).quiet_up_to_mark (isBar_spec hbar).1 (isBar_spec hbar).2 hfront rest

theorem quiet_bar (hname : ∀ c ∈ name, Text.isPlain c = true) {bar : Char} (hbar : isBar bar = true) (rest : Text) :
    Text.Quiet (valued name) before [bar] rest :=
  quiet_up_to_bar hname hbar List.not_mem_nil rest

theorem quiet_of_space (hname : ∀ c ∈ name, Text.isPlain c = true) {front written : Text} (hfront : '=' ∉ front)
    (hwritten : ∀ c ∈ written, Text.isPlain c = true) (hne : written ≠ []) (rest : Text) :
    Text.Quiet (valued name) before front (' ' :: written ++ '=' :: rest) := by
  rintro passed coming rfl -
  have hcoming : '=' ∉ coming := fun hmem => hfront (List.mem_append_right passed hmem)
  simpa using valued_eq_none_of_space hname hcoming hwritten hne rest

/-! ## A quoted attribute -/

theorem equals?_cons (rest : Text) : equals? ('=' :: rest) = some (['='], rest) := by
  have hblank : Text.isBlank '=' = false := by decide
  simp [equals?, hblank]

theorem quotedValue?_quoted {value : Text} (h : '"' ∉ value) (rest : Text) :
    quotedValue? ('"' :: value ++ '"' :: rest) = some (value, '"' :: value ++ ['"']) := by
  have hblank : Text.isBlank '"' = false := by decide
  simp [quotedValue?, hblank, isQuote, Text.after?_append_cons h, Text.upTo_append_cons h]

/-- An attribute is read where it is written, if it has the looked-for name. -/
theorem valued_quoted (hname : ∀ c ∈ name, Text.isPlain c = true) (hbefore : before.any Text.isName = false)
    {written value : Text} (hwritten : ∀ c ∈ written, Text.isPlain c = true) (hvalue : '"' ∉ value) (rest : Text) :
    valued name before (written ++ '=' :: '"' :: value ++ ['"'] ++ rest) =
      if Text.SameName written name then some (value, written ++ '=' :: '"' :: value ++ ['"']) else none := by
  have htext : written ++ '=' :: '"' :: value ++ ['"'] ++ rest = written ++ '=' :: ('"' :: value ++ '"' :: rest) := by
    simp
  rw [htext]
  split
  · rename_i hsame
    have htake : Text.take? name (written ++ '=' :: ('"' :: value ++ '"' :: rest)) =
        some (written, '=' :: ('"' :: value ++ '"' :: rest)) :=
      Text.take?_eq_some_iff.mpr ⟨rfl, (Text.map_loose_eq_iff hwritten hname).mpr hsame⟩
    simp only [valued, hbefore, htake, equals?_cons, quotedValue?_quoted hvalue, Bool.false_eq_true, if_false,
      Option.map_some]
    simp
  · rename_i hother
    exact (valued_readsNames hname).eq_none_of_name hwritten (by simpa using hother) _

theorem value?_eq_head?_values (name text : Text) : value? name text = (values name text).head? := by
  rw [value?, values, Text.first?, List.head?_map]

/-! ## Names of accessibility attributes -/

theorem ariaFront_isPlain : ∀ c ∈ ariaFront, Text.isPlain c = true :=
  List.all_eq_true.mp (by decide)

/-- A name that begins, loosely, as those of accessibility attributes do, and goes on. -/
def IsAria (written : Text) : Prop :=
  ∃ front tail, written = front ++ tail ∧ front.map Text.loose = ariaFront.map Text.loose ∧ tail ≠ [] ∧
    ∀ c ∈ tail, Text.isName c = true

theorem IsAria.isName {written : Text} (h : IsAria written) : ∀ c ∈ written, Text.isName c = true := by
  obtain ⟨front, tail, rfl, hfront, -, htail⟩ := h
  have hname : ∀ c ∈ ariaFront, Text.isName c = true := fun c hc => Text.isName_of_isPlain (ariaFront_isPlain c hc)
  exact List.forall_mem_append.mpr ⟨Text.isName_of_map_loose hfront hname, htail⟩

theorem IsAria.ne_nil {written : Text} (h : IsAria written) : written ≠ [] := by
  obtain ⟨front, tail, rfl, -, hne, -⟩ := h
  exact List.append_ne_nil_of_right_ne_nil front hne

/-- An accessibility attribute is read exactly where one is written that does not continue a name. -/
theorem aria_eq_some_iff {before : Option Char} {t value raw : Text} :
    aria before t = some (value, raw) ↔ before.any Text.isName = false ∧ ∃ written gap,
      IsAria written ∧ (∀ c ∈ gap, Text.isBlank c = true) ∧
        value = Text.lower written ∧ raw = written ++ (gap ++ ['=']) ∧ raw <+: t := by
  constructor
  · intro h
    unfold aria at h
    split at h
    · contradiction
    · rename_i hbefore
      cases htake : Text.take? ariaFront t with
      | none => simp [htake] at h
      | some found =>
          obtain ⟨front, rest⟩ := found
          simp only [htake] at h
          split at h
          · contradiction
          · rename_i htail
            obtain ⟨⟨equals, after⟩, hequals, heq⟩ := Option.map_eq_some_iff.mp h
            obtain ⟨rfl, rfl⟩ := Prod.mk.inj heq
            obtain ⟨rfl, hfront⟩ := Text.take?_eq_some_iff.mp htake
            obtain ⟨gap, hgap, hrest, rfl⟩ := equals?_eq_some_iff.mp hequals
            refine ⟨by simpa using hbefore, front ++ rest.takeWhile Text.isName, gap, ?_, hgap, rfl, rfl, after, ?_⟩
            · exact ⟨front, _, rfl, hfront, by simpa using htail, List.all_eq_true.mp List.all_takeWhile⟩
            · have hsplit := List.takeWhile_append_dropWhile (p := Text.isName) (l := rest)
              rw [hrest] at hsplit
              simpa using congrArg (front ++ ·) hsplit
  · rintro ⟨hbefore, written, gap, ⟨front, tail, rfl, hfront, hne, htail⟩, hgap, rfl, rfl, rest, rfl⟩
    have htake : Text.take? ariaFront (front ++ tail ++ (gap ++ ['=']) ++ rest) =
        some (front, tail ++ (gap ++ '=' :: rest)) :=
      Text.take?_eq_some_iff.mpr ⟨by simp, hfront⟩
    -- Neither a blank nor the equals sign belongs to a name.
    have hends : ∀ c ∈ (gap ++ '=' :: rest).head?, Text.isName c = false := by
      intro c hc
      cases gap with
      | nil =>
          obtain rfl : '=' = c := by simpa using hc
          decide
      | cons d gap =>
          obtain rfl : d = c := by simpa using hc
          exact Text.isName_of_isBlank (hgap d List.mem_cons_self)
    have htaken : (tail ++ (gap ++ '=' :: rest)).takeWhile Text.isName = tail := by
      rw [List.takeWhile_append_of_pos htail, Text.takeWhile_eq_nil hends, List.append_nil]
    have hdropped : (tail ++ (gap ++ '=' :: rest)).dropWhile Text.isName = gap ++ '=' :: rest := by
      rw [List.dropWhile_append_of_pos htail, Text.dropWhile_eq_self hends]
    have hequals : equals? (gap ++ '=' :: rest) = some (gap ++ ['='], rest) :=
      equals?_eq_some_iff.mpr ⟨gap, hgap, rfl, rfl⟩
    simp only [aria, hbefore, htake, htaken, hdropped, hequals, List.isEmpty_iff, hne, Bool.false_eq_true, if_false,
      Option.map_some]

theorem aria_skipsNames : aria.SkipsNames := by
  intro before t hbefore
  rw [aria, if_pos hbefore]

theorem aria_isProper : aria.IsProper := by
  intro before t value raw h
  obtain ⟨-, written, gap, -, -, -, rfl, hprefix⟩ := aria_eq_some_iff.mp h
  exact ⟨by simp, hprefix⟩

end Accessibility.Attribute
