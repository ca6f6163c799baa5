import Accessibility.Proofs.Markup.Opening

/-! # Documents and their opening tags

A document is a list of texts, closing tags and opening tags with quoted attributes. Its scan for a tag name finds the
opening tags of that name, each as it was written and where it was written. -/

namespace Accessibility.Document

/-! ## Items -/

/-- The name of a tag: ASCII letters and digits. -/
structure TagWord where
  chars : Text
  nonempty : chars ≠ []
  alphanumeric : ∀ c ∈ chars, c.isAlphanum = true

/-- The name of an attribute: ASCII letters, digits and hyphens. -/
structure AttributeWord where
  chars : Text
  nonempty : chars ≠ []
  plain : ∀ c ∈ chars, Text.isPlain c = true

/-- Brackets open and close tags, and the equals sign gives an attribute its value. -/
def isMark (c : Char) : Bool :=
  c == '<' || c == '>' || c == '='

/-- An attribute with its value. -/
structure Setting where
  name : AttributeWord
  value : Text
  unmarked : ∀ c ∈ value, isMark c = false
  unquoted : '"' ∉ value

structure OpeningTag where
  name : TagWord
  settings : List Setting

/-- Text between tags. -/
structure Chunk where
  chars : Text
  unmarked : ∀ c ∈ chars, isMark c = false

inductive Item
  | chunk (text : Chunk)
  | closing (name : TagWord)
  | opening (tag : OpeningTag)

/-! ## Rendering -/

def Setting.quoted (setting : Setting) : Text :=
  setting.name.chars ++ '=' :: '"' :: setting.value ++ ['"']

def Setting.render (setting : Setting) : Text :=
  ' ' :: setting.quoted

/-- What stands between the name of an opening tag and its `>`. -/
def OpeningTag.inner (tag : OpeningTag) : Text :=
  tag.settings.flatMap Setting.render

def OpeningTag.render (tag : OpeningTag) : Text :=
  '<' :: tag.name.chars ++ tag.inner ++ ['>']

def Item.render : Item → Text
  | .chunk text => text.chars
  | .closing name => '<' :: '/' :: name.chars ++ ['>']
  | .opening tag => tag.render

def render (doc : List Item) : Text :=
  doc.flatMap Item.render

/-! ## What a scan is to find -/

/-- An item at `place` as an opening tag of the wanted name, with the place behind it. -/
def Item.tags (wanted : TagWord) (place : Nat) : Item → List (Tag × Nat)
  | .opening tag =>
    if Text.SameName tag.name.chars wanted.chars then
      [({ name := tag.name.chars.map Char.toLower, raw := tag.render, start := place }, place + tag.render.length)]
    else []
  | _ => []

/-- The opening tags of the wanted name in a document, in order, each with the place behind it. -/
def tags (wanted : TagWord) (doc : List Item) : List (Tag × Nat) :=
  (Text.placed Item.render 0 doc).flatMap fun p => p.1.tags wanted p.2

/-- The values of the attributes of the wanted name, in order. -/
def OpeningTag.values (wanted : AttributeWord) (tag : OpeningTag) : List Text :=
  (tag.settings.filter fun setting => Text.SameName setting.name.chars wanted.chars).map (·.value)

/-- The value of the first attribute of the wanted name. -/
def OpeningTag.value? (wanted : AttributeWord) (tag : OpeningTag) : Option Text :=
  (tag.settings.find? fun setting => Text.SameName setting.name.chars wanted.chars).map (·.value)

def Item.values (wanted : AttributeWord) : Item → List Text
  | .opening tag => tag.values wanted
  | _ => []

/-- The values of the attributes of the wanted name in a document, in order. -/
def values (wanted : AttributeWord) (doc : List Item) : List Text :=
  doc.flatMap (Item.values wanted)

/-! ## Characters of a rendered tag -/

theorem TagWord.plain (word : TagWord) : ∀ c ∈ word.chars, Text.isPlain c = true :=
  fun c hc => Text.isPlain_of_isAlphanum (word.alphanumeric c hc)

theorem TagWord.isPlain_literal (word : TagWord) : (TagName.literal word.chars).IsPlain :=
  ⟨word.nonempty, word.plain⟩

theorem not_mem_of_unmarked {c : Char} {t : Text} (h : ∀ d ∈ t, isMark d = false) (hc : isMark c = true) :
    c ∉ t := by
  intro hmem
  rw [h c hmem] at hc
  contradiction

theorem not_mem_of_plain {c : Char} {t : Text} (h : ∀ d ∈ t, Text.isPlain d = true) (hc : Text.isPlain c = false) :
    c ∉ t := by
  intro hmem
  rw [h c hmem] at hc
  contradiction

/-- The only characters of an attribute that no value holds are its space, quotes and equals sign. -/
theorem Setting.not_mem_render {c : Char} (hmark : isMark c = true) (hne : c ≠ '=') (setting : Setting) :
    c ∉ setting.render := by
  have hplain : Text.isPlain c = false ∧ c ≠ ' ' ∧ c ≠ '"' := by
    simp only [isMark, Bool.or_eq_true, beq_iff_eq] at hmark
    rcases hmark with (rfl | rfl) | rfl <;> decide
  have hname := not_mem_of_plain setting.name.plain hplain.1
  have hvalue := not_mem_of_unmarked setting.unmarked hmark
  simp [Setting.render, Setting.quoted, hname, hvalue, hne, hplain.2]

theorem OpeningTag.not_mem_inner {c : Char} (hmark : isMark c = true) (hne : c ≠ '=') (tag : OpeningTag) :
    c ∉ tag.inner := by
  intro h
  obtain ⟨setting, -, hmem⟩ := List.mem_flatMap.mp h
  exact setting.not_mem_render hmark hne hmem

/-- The name of an opening tag ends at a space or at its closing bracket. -/
theorem OpeningTag.eq_or_eq_of_inner_append {tag : OpeningTag} {c : Char} {rest u : Text}
    (h : tag.inner ++ '>' :: rest = c :: u) : c = ' ' ∨ c = '>' := by
  cases hsettings : tag.settings with
  | nil =>
      rw [inner, hsettings] at h
      exact Or.inr (List.cons.inj h).1.symm
  | cons setting settings =>
      rw [inner, hsettings] at h
      exact Or.inl (List.cons.inj h).1.symm

/-! ## Tags are found where they are written -/

/-- No tag begins where no `<` stands. -/
theorem quiet_recognize_of_not_mem {front : Text} (h : '<' ∉ front) (name : TagName) (before : Option Char)
    (rest : Text) : Text.Quiet (Tag.recognize name) before front rest := by
  rintro passed coming rfl hne
  cases coming with
  | nil => exact absurd rfl hne
  | cons c coming =>
      have hc : c ≠ '<' := by
        rintro rfl
        simp at h
      simp only [Tag.recognize, Opening.read?, List.cons_append, Option.map_eq_none_iff]
      split
      · rename_i heq
        exact absurd (List.cons.inj heq).1 hc
      · rfl

/-- What is read of an opening tag has its whole name: a shorter name would go on behind what is taken of it, and a
longer one would hold a space or a bracket. -/
theorem written_of_read? {wanted : TagWord} {tag : OpeningTag} {rest : Text} {o : Opening}
    (h : Opening.read? (.literal wanted.chars) (tag.render ++ rest) = some o) : o.written = tag.name.chars := by
  obtain ⟨u, hu, htake, -, hhead⟩ := Opening.read?_eq_some_iff.mp h
  have hplain : ∀ c ∈ o.written, c.toNat < 128 → Text.isPlain c = true :=
    fun c hc => TagName.isPlain_of_mem_take? wanted.isPlain_literal htake hc
  have htext : tag.name.chars ++ (tag.inner ++ '>' :: rest) = o.written ++ (o.inner ++ '>' :: o.rest) := by
    rw [← TagName.eq_append_of_take? htake]
    simpa [OpeningTag.render] using hu
  rcases List.append_eq_append_iff.mp htext with ⟨x, hwritten, hinner⟩ | ⟨x, hname, hinner⟩
  · cases x with
    | nil => simpa using hwritten
    | cons c x =>
        have hc := hplain c (by simp [hwritten])
        rcases OpeningTag.eq_or_eq_of_inner_append hinner with rfl | rfl
        · exact absurd (hc (by decide)) (by decide)
        · exact absurd (hc (by decide)) (by decide)
  · cases x with
    | nil => simpa using hname.symm
    | cons c x =>
        have hc : Text.isName c = true := Text.isName_of_isPlain (tag.name.plain c (by simp [hname]))
        rw [← Opening.head?_any_isName_append o.inner o.rest, hinner] at hhead
        simp [hc] at hhead

/-- An opening tag is read as a whole when it has the looked-for name. -/
theorem read?_of_sameName {wanted : TagWord} {tag : OpeningTag}
    (h : Text.SameName tag.name.chars wanted.chars) (rest : Text) :
    Opening.read? (.literal wanted.chars) (tag.render ++ rest) =
      some { written := tag.name.chars, inner := tag.inner, rest } := by
  refine Opening.read?_eq_some_iff.mpr ⟨tag.name.chars ++ (tag.inner ++ '>' :: rest), ?_, ?_, ?_, ?_⟩
  · simp [OpeningTag.render]
  · exact Text.take?_eq_some_iff.mpr ⟨rfl, (Text.map_loose_eq_iff tag.name.plain wanted.plain).mpr h⟩
  · exact tag.not_mem_inner (by decide) (by decide)
  · cases hinner : tag.inner with
    | nil => rfl
    | cons c u =>
        have happend : tag.inner ++ '>' :: rest = c :: (u ++ '>' :: rest) := by
          rw [hinner]
          rfl
        rcases OpeningTag.eq_or_eq_of_inner_append happend with rfl | rfl
        · exact (by decide : Text.isName ' ' = false)
        · exact (by decide : Text.isName '>' = false)

theorem recognize_opening (wanted : TagWord) (tag : OpeningTag) (before : Option Char) (rest : Text) :
    Tag.recognize (.literal wanted.chars) before (tag.render ++ rest) =
      if Text.SameName tag.name.chars wanted.chars then some (tag.name.chars.map Char.toLower, tag.render)
      else none := by
  split
  · rename_i hsame
    refine Tag.recognize_eq_some_iff.mpr ⟨_, read?_of_sameName hsame rest, ?_, rfl⟩
    exact (Text.lower_of_isPlain tag.name.plain).symm
  · rename_i hother
    rw [Tag.recognize, Option.map_eq_none_iff, Option.eq_none_iff_forall_not_mem]
    intro o hread
    obtain ⟨u, -, htake, -, -⟩ := Opening.read?_eq_some_iff.mp hread
    obtain ⟨-, hloose⟩ := Text.take?_eq_some_iff.mp htake
    rw [written_of_read? hread] at hloose
    exact hother ((Text.map_loose_eq_iff tag.name.plain wanted.plain).mp hloose)

/-- No name begins with the slash of a closing tag. -/
theorem recognize_closing (wanted : TagWord) (before : Option Char) (t : Text) :
    Tag.recognize (.literal wanted.chars) before ('<' :: '/' :: t) = none := by
  rw [Tag.recognize, Option.map_eq_none_iff, Option.eq_none_iff_forall_not_mem]
  intro o hread
  obtain ⟨u, hu, htake, -, -⟩ := Opening.read?_eq_some_iff.mp hread
  have hslash := TagName.eq_append_of_take? htake
  rw [← (List.cons.inj hu).2] at hslash
  have hloose := (Text.take?_eq_some_iff.mp htake).2
  cases hwritten : o.written with
  | nil =>
      rw [hwritten] at hloose
      exact wanted.nonempty (List.map_eq_nil_iff.mp hloose.symm)
  | cons c written =>
      rw [hwritten] at hslash
      obtain rfl := (List.cons.inj hslash).1
      have hc : '/' ∈ o.written := by simp [hwritten]
      exact absurd (TagName.isPlain_of_mem_take? wanted.isPlain_literal htake hc (by decide)) (by decide)

/-- An item yields itself as a tag, whatever follows it. -/
theorem Item.yields_tags (wanted : TagWord) (item : Item) (before : Option Char) (rest : Text) :
    Text.Yields (Tag.recognize (.literal wanted.chars)) before item.render rest fun place =>
      (item.tags wanted place).map fun p => { value := p.1.name, raw := p.1.raw, start := p.1.start } := by
  cases item with
  | chunk text =>
      exact (quiet_recognize_of_not_mem (not_mem_of_unmarked text.unmarked (by decide)) _ before rest).yields
  | closing name =>
      have hname : '<' ∉ '/' :: name.chars ++ ['>'] := by
        simpa using not_mem_of_plain name.plain (by decide)
      refine Text.Quiet.yields (Text.quiet_cons_iff.mpr ⟨recognize_closing wanted before _, ?_⟩)
      exact quiet_recognize_of_not_mem hname _ _ rest
  | opening tag =>
      have hinner : '<' ∉ tag.inner := tag.not_mem_inner (by decide) (by decide)
      have hname : '<' ∉ tag.name.chars := not_mem_of_plain tag.name.plain (by decide)
      have hrecognize := recognize_opening wanted tag before rest
      by_cases hsame : Text.SameName tag.name.chars wanted.chars
      · rw [if_pos hsame] at hrecognize
        simpa [tags, render, hsame] using Text.yields_of_front hrecognize (by simp [OpeningTag.render])
      · rw [if_neg hsame] at hrecognize
        have hquiet : Text.Quiet (Tag.recognize (.literal wanted.chars)) before tag.render rest := by
          refine Text.quiet_cons_iff.mpr ⟨hrecognize, quiet_recognize_of_not_mem ?_ _ _ rest⟩
          simp [hname, hinner]
        simpa [tags, render, hsame] using hquiet.yields

/-- The opening tags of the wanted name in a document are found where they are written, and no others. -/
theorem occurrences_recognize_render (wanted : TagWord) (doc : List Item) :
    Text.occurrences (Tag.recognize (.literal wanted.chars)) (render doc) =
      (tags wanted doc).map fun p => { value := p.1.name, raw := p.1.raw, start := p.1.start } := by
  have hyields : Text.Yields (Tag.recognize (.literal wanted.chars)) none (doc.flatMap Item.render) [] _ :=
    Text.yields_flatMap (fun item _ before => item.yields_tags wanted before _) doc none
  rw [tags, List.map_flatMap]
  simpa [Text.occurrences, render] using hyields 0

/-- A tag that is found ends where the document says that it ends. -/
theorem Item.map_stop_tags (wanted : TagWord) (item : Item) (place : Nat) :
    (item.tags wanted place).map (fun p => (p.1, p.1.stop)) = item.tags wanted place := by
  cases item with
  | chunk text => rfl
  | closing name => rfl
  | opening tag =>
      simp only [tags]
      split <;> rfl

theorem findAll_render (wanted : TagWord) (doc : List Item) :
    (Tag.findAll (.literal wanted.chars) (render doc)).map (fun tag => (tag, tag.stop)) = tags wanted doc := by
  have hstop : (tags wanted doc).map (fun p => (p.1, p.1.stop)) = tags wanted doc := by
    rw [tags, List.map_flatMap]
    simp only [Item.map_stop_tags]
  rw [Tag.findAll, occurrences_recognize_render, List.map_map, List.map_map]
  exact hstop

end Accessibility.Document
