import Accessibility.Proofs.Markup.Attribute
import Accessibility.Proofs.Markup.Document

/-! # Scanning a rendered document

The scans for tags and for attributes give back what a document was rendered from. As with tags, each item yields its
own attributes whatever follows it, so that the finds of the whole are those of its items, each at its own place. -/

namespace Accessibility.Document

variable (wanted : AttributeWord)

/-! ## Attributes -/

/-- An attribute at `place` as a find. It starts behind its space. -/
def Setting.finds (setting : Setting) (place : Nat) : List (Occurrence Text) :=
  if Text.SameName setting.name.chars wanted.chars then
    [{ value := setting.value, raw := setting.quoted, start := place + 1 }]
  else []

theorem Setting.valued_quoted (setting : Setting) (rest : Text) :
    Attribute.valued wanted.chars (some ' ') (setting.quoted ++ rest) =
      if Text.SameName setting.name.chars wanted.chars then some (setting.value, setting.quoted) else none :=
  Attribute.valued_quoted wanted.plain (by decide) setting.name.plain setting.unquoted rest

/-- An attribute of another name has no finds: not at its name, not inside its name, where a name character stands
before, and not inside its value, where the closing quote stands before the next equals sign. -/
theorem Setting.quiet_quoted {setting : Setting} (h : ¬Text.SameName setting.name.chars wanted.chars) (rest : Text) :
    Text.Quiet (Attribute.valued wanted.chars) (some ' ') setting.quoted rest := by
  have hnone := setting.valued_quoted wanted rest
  rw [if_neg h] at hnone
  have hvalue : '=' ∉ '"' :: setting.value := by
    simpa using not_mem_of_unmarked setting.unmarked (by decide)
  obtain ⟨c, name, hname⟩ := List.exists_cons_of_ne_nil setting.name.nonempty
  have hplain : ∀ d ∈ c :: name, Text.isName d = true := by
    intro d hd
    exact Text.isName_of_isPlain (setting.name.plain d (hname ▸ hd))
  have hquoted : setting.quoted = c :: (name ++ '=' :: ('"' :: setting.value ++ ['"'])) := by
    simp [Setting.quoted, hname]
  rw [hquoted] at hnone ⊢
  refine Text.quiet_cons_iff.mpr ⟨hnone, Text.Quiet.append ?_ (Text.quiet_cons_iff.mpr ⟨?_, ?_⟩)⟩
  · have hc : (some c).any Text.isName = true := hplain c (by simp)
    exact Text.quiet_of_isName (Attribute.valued_skipsNames _) (fun d hd => hplain d (by simp [hd])) hc _
  · exact Attribute.valued_eq_none_of_equals wanted.plain wanted.nonempty _
  · exact Attribute.quiet_up_to_bar wanted.plain (by decide) hvalue rest

theorem Setting.yields (setting : Setting) (before : Option Char) (rest : Text) :
    Text.Yields (Attribute.valued wanted.chars) before setting.render rest (setting.finds wanted) := by
  have hspace : Text.Quiet (Attribute.valued wanted.chars) before [' '] (setting.quoted ++ rest) := by
    refine Text.quiet_cons_iff.mpr ⟨?_, Text.quiet_nil _ _ _⟩
    have hnone : Attribute.valued wanted.chars before
        ([] ++ ' ' :: setting.name.chars ++ '=' :: ('"' :: setting.value ++ '"' :: rest)) = none :=
      Attribute.valued_eq_none_of_space wanted.plain (by simp) setting.name.plain setting.name.nonempty _
    simpa [Setting.quoted] using hnone
  by_cases hsame : Text.SameName setting.name.chars wanted.chars
  · have hvalued := setting.valued_quoted wanted rest
    rw [if_pos hsame] at hvalued
    have hquoted := Text.yields_of_front hvalued (by simp [Setting.quoted])
    have hfinds : setting.finds wanted = fun place =>
        [{ value := setting.value, raw := setting.quoted, start := place + 1 }] := by
      funext place
      simp [Setting.finds, hsame]
    rw [hfinds]
    exact hspace.yields.append hquoted
  · have hquoted := setting.quiet_quoted wanted hsame rest
    have hfinds : setting.finds wanted = fun _ => [] := by
      funext place
      simp [Setting.finds, hsame]
    rw [hfinds]
    exact (hspace.append hquoted).yields

/-! ## Opening tags -/

/-- What an opening tag at `place` holds of the wanted attribute. -/
def OpeningTag.finds (tag : OpeningTag) (place : Nat) : List (Occurrence Text) :=
  (Text.placed Setting.render (place + ('<' :: tag.name.chars).length) tag.settings).flatMap fun p =>
    p.1.finds wanted p.2

/-- The name of a tag is no attribute, since a space or the closing bracket stands behind it. -/
theorem OpeningTag.quiet_name (tag : OpeningTag) (before : Option Char) (rest : Text) :
    Text.Quiet (Attribute.valued wanted.chars) before ('<' :: tag.name.chars) (tag.inner ++ '>' :: rest) := by
  have hfront : '=' ∉ '<' :: tag.name.chars := by
    simpa using not_mem_of_plain tag.name.plain (by decide)
  cases hsettings : tag.settings with
  | nil =>
      have hrest : '=' ∉ Text.upTo '>' (tag.inner ++ '>' :: rest) := by
        simp [OpeningTag.inner, hsettings, Text.upTo]
      exact Attribute.quiet_of_bar wanted.plain (by decide) hfront hrest
  | cons setting settings =>
      have hinner : tag.inner ++ '>' :: rest = ' ' :: setting.name.chars ++
          '=' :: ('"' :: setting.value ++ '"' :: (settings.flatMap Setting.render ++ '>' :: rest)) := by
        simp [OpeningTag.inner, hsettings, Setting.render, Setting.quoted]
      rw [hinner]
      exact Attribute.quiet_of_space wanted.plain hfront setting.name.plain setting.name.nonempty _

theorem OpeningTag.yields (tag : OpeningTag) (before : Option Char) (rest : Text) :
    Text.Yields (Attribute.valued wanted.chars) before tag.render rest (tag.finds wanted) := by
  have hname := (tag.quiet_name wanted before rest).yields
  have hinner : Text.Yields (Attribute.valued wanted.chars) (Text.lastBefore before ('<' :: tag.name.chars))
      tag.inner ('>' :: rest) fun place =>
        (Text.placed Setting.render place tag.settings).flatMap fun p => p.1.finds wanted p.2 :=
    Text.yields_flatMap (fun setting _ before => setting.yields wanted before _) tag.settings _
  have hlast : Text.Quiet (Attribute.valued wanted.chars)
      (Text.lastBefore before ('<' :: tag.name.chars ++ tag.inner)) ['>'] rest :=
    Attribute.quiet_bar wanted.plain (by decide) rest
  have hwhole := (hname.append hinner).append hlast.yields
  simp only [List.nil_append, List.append_nil] at hwhole
  exact hwhole

/-! ## Documents -/

/-- What an item at `place` holds of the wanted attribute. -/
def Item.finds : Item → Nat → List (Occurrence Text)
  | .opening tag => tag.finds wanted
  | _ => fun _ => []

/-- Before the first tag of a document stands no equals sign. -/
theorem not_mem_upTo_render (doc : List Item) : '=' ∉ Text.upTo '<' (doc.flatMap Item.render) := by
  induction doc with
  | nil => simp [Text.upTo]
  | cons item doc ih =>
      rw [List.flatMap_cons]
      cases item with
      | chunk text =>
          intro h
          rcases Text.mem_upTo_append h with hmem | hmem
          · exact not_mem_of_unmarked text.unmarked (by decide) hmem
          · exact ih hmem
      | closing name => simp [Item.render, Text.upTo]
      | opening tag => simp [Item.render, OpeningTag.render, Text.upTo]

theorem Item.yields (item : Item) (doc : List Item) (before : Option Char) :
    Text.Yields (Attribute.valued wanted.chars) before item.render (doc.flatMap Item.render ++ [])
      (item.finds wanted) := by
  rw [List.append_nil]
  cases item with
  | chunk text =>
      have htext : '=' ∉ text.chars := not_mem_of_unmarked text.unmarked (by decide)
      exact (Attribute.quiet_of_bar wanted.plain (by decide) htext (not_mem_upTo_render doc)).yields
  | closing name =>
      have hname : '=' ∉ '<' :: '/' :: name.chars := by
        simpa using not_mem_of_plain name.plain (by decide)
      exact (Attribute.quiet_up_to_bar wanted.plain (by decide) hname _).yields
  | opening tag => exact tag.yields wanted before _

/-- The wanted attributes of a document are found where they are written, and no others. -/
theorem occurrences_valued_render (doc : List Item) :
    Text.occurrences (Attribute.valued wanted.chars) (render doc) =
      (Text.placed Item.render 0 doc).flatMap fun p => p.1.finds wanted p.2 := by
  have hyields := Text.yields_flatMap (Item.yields wanted) doc none 0
  simpa [Text.occurrences, render] using hyields

/-! ## Values -/

variable {wanted}

theorem Setting.map_value_finds (setting : Setting) (place : Nat) :
    (setting.finds wanted place).map (·.value) =
      if Text.SameName setting.name.chars wanted.chars then [setting.value] else [] := by
  unfold Setting.finds
  split <;> rfl

theorem OpeningTag.flatMap_settings (tag : OpeningTag) :
    (tag.settings.flatMap fun setting =>
      if Text.SameName setting.name.chars wanted.chars then [setting.value] else []) = tag.values wanted := by
  unfold OpeningTag.values
  induction tag.settings with
  | nil => rfl
  | cons setting settings ih =>
      rw [List.flatMap_cons, ih, List.filter_cons]
      by_cases hsame : Text.SameName setting.name.chars wanted.chars
      · simp [hsame]
      · simp [hsame]

theorem OpeningTag.map_value_finds (tag : OpeningTag) (place : Nat) :
    (tag.finds wanted place).map (·.value) = tag.values wanted := by
  rw [OpeningTag.finds, Text.map_value_placed Setting.map_value_finds, tag.flatMap_settings]

theorem Item.map_value_finds (item : Item) (place : Nat) :
    (item.finds wanted place).map (·.value) = item.values wanted := by
  cases item with
  | chunk text => rfl
  | closing name => rfl
  | opening tag => exact tag.map_value_finds place

theorem values_render (doc : List Item) : Attribute.values wanted.chars (render doc) = values wanted doc := by
  rw [Attribute.values, occurrences_valued_render, Text.map_value_placed Item.map_value_finds, values]

theorem OpeningTag.value?_render (tag : OpeningTag) :
    Attribute.value? wanted.chars tag.render = tag.value? wanted := by
  have hrender : tag.render = Document.render [.opening tag] := by simp [Document.render, Item.render]
  have hvalues : Attribute.values wanted.chars tag.render = tag.values wanted := by
    rw [hrender, values_render]
    simp [Document.values, Item.values]
  rw [Attribute.value?_eq_head?_values, hvalues, OpeningTag.values, List.head?_map, List.head?_filter,
    OpeningTag.value?]

/-! ## The round trip -/

/-- A scan for a tag name finds the opening tags of that name, each with its name in lower case, as it was written and
from where to where. A scan for an attribute name finds the first value in a tag and all values in a document. -/
theorem scan_render (tagWord : TagWord) (attributeWord : AttributeWord) (doc : List Item) :
    (Tag.findAll (.literal tagWord.chars) (render doc)).map (fun tag => (tag, tag.stop)) = tags tagWord doc ∧
      (∀ tag : OpeningTag, Attribute.value? attributeWord.chars tag.render = tag.value? attributeWord) ∧
      Attribute.values attributeWord.chars (render doc) = values attributeWord doc :=
  ⟨findAll_render tagWord doc, fun tag => tag.value?_render, values_render doc⟩

example : Attribute.values "alt".toList "<imgx alt=\"a\"><IMG data-alt=\"b\" Alt=\"c alt\">".toList =
    ["a".toList, "c alt".toList] := by
  decide

end Accessibility.Document
