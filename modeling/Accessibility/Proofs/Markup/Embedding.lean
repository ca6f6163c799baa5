import Accessibility.Proofs.Markup.Opening
import Mathlib.Data.List.Sort

/-! # Elements are found among the opening tags

Opening tags and elements are two independent searches that go on at different places after a find. Still every
element starts where an opening tag is found: both read the same tag there, and no element can start inside a tag that
was found earlier, because that tag would have been the opening of the element. -/

namespace Accessibility

open List
open Text (occurrences lastBefore)

/-! ## Overlapping tags -/

/-- A tag that starts inside another one ends with it, and no bracket closes before it starts. -/
theorem Opening.rest_eq_of_overlap {name : TagName} (hname : name.IsPlain) {t : Text} {outer inner : Opening}
    (houter : Opening.read? name t = some outer) {passed coming : Text} (hraw : outer.raw = passed ++ coming)
    (hne : coming ≠ []) (hinner : Opening.read? name (coming ++ outer.rest) = some inner) :
    '>' ∉ passed ∧ inner.rest = outer.rest := by
  obtain ⟨body, last, rfl⟩ := (List.eq_nil_or_concat' coming).resolve_left hne
  rw [raw_eq_front_append, ← List.append_assoc] at hraw
  obtain ⟨hfront, hlast⟩ := List.append_inj' hraw rfl
  obtain rfl : '>' = last := by simpa using hlast
  have hclear : '>' ∉ passed ++ body := hfront ▸ not_mem_front_of_read? hname houter
  rw [List.mem_append, not_or] at hclear
  refine ⟨hclear.1, ?_⟩
  have hsame : body ++ '>' :: outer.rest = inner.front ++ '>' :: inner.rest := by
    simpa [raw_eq_front_append] using eq_raw_append_of_read? hinner
  exact (Text.append_cons_inj hclear.2 (not_mem_front_of_read? hname hinner) hsame).2.symm

/-- A text that is cut inside a part. -/
private theorem exists_split {front part behind front' rest : Text} (h : front' ++ rest = front ++ (part ++ behind))
    (hlt : front.length < front'.length) (hle : front'.length < front.length + part.length) :
    ∃ passed coming, front' = front ++ passed ∧ part = passed ++ coming ∧ rest = coming ++ behind := by
  rcases List.append_eq_append_iff.mp h with ⟨more, rfl, -⟩ | ⟨passed, rfl, hpart⟩
  · simp only [List.length_append] at hlt
    omega
  · rcases List.append_eq_append_iff.mp hpart with ⟨more, rfl, -⟩ | ⟨coming, rfl, rfl⟩
    · simp only [List.length_append] at hle
      omega
    · exact ⟨passed, coming, rfl, rfl, rfl⟩

/-- A character that stands in the range of a part belongs to the part. -/
private theorem mem_of_append_eq {front part behind front' behind' : Text} {c : Char}
    (h : front ++ (part ++ behind) = front' ++ c :: behind') (hle : front.length ≤ front'.length)
    (hlt : front'.length < front.length + part.length) : c ∈ part := by
  have hget := congrArg (fun t => t[front'.length]?) h
  simp only [List.getElem?_append_right hle, List.getElem?_append_right (Nat.le_refl _), Nat.sub_self,
    List.getElem?_cons_zero] at hget
  rw [List.getElem?_append_left (by omega)] at hget
  exact List.mem_of_getElem? hget

/-- An element that ends within a part of the page ends with a bracket of that part. -/
theorem Element.bracket_mem_of_stop {name : TagName} {page front part behind : Text} {e : Occurrence Element.Parts}
    (he : e ∈ occurrences (Element.recognize name) page) (hpage : page = front ++ (part ++ behind))
    (hlt : front.length < e.stop) (hle : e.stop ≤ front.length + part.length) : '>' ∈ part := by
  obtain ⟨before, rest, hsplit, hstart, hr⟩ := Text.exists_of_mem_occurrences he
  obtain ⟨body, hbody⟩ := List.getLast?_eq_some_iff.mp (Element.getLast?_raw_of_recognize hr)
  obtain ⟨-, after, hafter⟩ := Element.recognize_isProper name _ _ _ _ hr
  have hbracket : front ++ (part ++ behind) = (before ++ body) ++ '>' :: after := by
    rw [← hpage, hsplit, ← hafter, hbody]
    simp
  have hstop : e.stop = (before ++ body).length + 1 := by
    simp only [Occurrence.stop, hstart, hbody, List.length_append, List.length_singleton]
    omega
  exact mem_of_append_eq hbracket (by omega) (by omega)

/-! ## Every element starts at a found tag -/

theorem exists_tag_of_mem_elements {name : TagName} (hname : name.IsPlain) {page : Text}
    {e : Occurrence Element.Parts} (he : e ∈ occurrences (Element.recognize name) page) :
    ∃ tag ∈ occurrences (Tag.recognize name) page, tag.start = e.start := by
  obtain ⟨front, rest, hpage, hstart, hr⟩ := Text.exists_of_mem_occurrences he
  obtain ⟨inner, closing, hinner, hclosing, -, -⟩ := Element.recognize_eq_some_iff.mp hr
  have hr' : Tag.recognize name (lastBefore none front) rest = some (inner.name, inner.raw) :=
    Tag.recognize_eq_some_iff.mpr ⟨inner, hinner, rfl, rfl⟩
  obtain ⟨tag, htag, hle, hlt⟩ :=
    Text.exists_mem_occurrences_of_recognized (Tag.recognize_isProper name) hr'
  rw [← hpage] at htag
  rcases Nat.eq_or_lt_of_le hle with heq | hbefore
  · exact ⟨tag, htag, heq.trans hstart.symm⟩
  -- Otherwise a tag was found earlier and reaches over the start of the element.
  exfalso
  obtain ⟨front', rest', hpage', hstart', htr⟩ := Text.exists_of_mem_occurrences htag
  obtain ⟨outer, houter, -, hraw⟩ := Tag.recognize_eq_some_iff.mp htr
  simp only [Occurrence.stop, hstart', hraw] at hlt hbefore
  obtain ⟨passed, coming, rfl, hsplit, rfl⟩ : ∃ passed coming, front = front' ++ passed ∧
      outer.raw = passed ++ coming ∧ rest = coming ++ outer.rest := by
    refine exists_split ?_ hbefore hlt
    rw [← Opening.eq_raw_append_of_read? houter, ← hpage, hpage']
  have hne : coming ≠ [] := by
    rintro rfl
    simp [hsplit] at hlt
  obtain ⟨hclear, hsame⟩ := Opening.rest_eq_of_overlap hname houter hsplit hne hinner
  -- The earlier tag opens an element with the same closing tag, so some element covers its start.
  rw [hsame] at hclosing
  have her : Element.recognize name (lastBefore none front') rest' = some (_, _) :=
    Element.recognize_eq_some_iff.mpr ⟨outer, closing, houter, hclosing, rfl, rfl⟩
  obtain ⟨other, hother, hole, holt⟩ :=
    Text.exists_mem_occurrences_of_recognized (Element.recognize_isProper name) her
  rw [← hpage'] at hother
  have hstop : other.stop ≤ e.start :=
    Text.stop_le_start_of_mem (Element.recognize_isProper name) hother he (by simp [hstart] at hbefore ⊢; omega)
  -- That element ends with a bracket between the two tags, where there is none.
  have hbetween : other.stop ≤ front'.length + passed.length := by
    simpa [hstart] using hstop
  exact hclear (Element.bracket_mem_of_stop hother (hpage.trans (List.append_assoc _ _ _)) holt hbetween)

/-! ## What is read at the common start -/

/-- The opening tag of an element, at its place. -/
def Element.opening (e : Element) : Tag where
  name := e.name
  raw := e.openTag
  start := e.start

theorem leadingText_natCast (page : Text) (place : Nat) :
    leadingText page place = Text.upTo '<' (page.drop place) := rfl

theorem Element.opening_mem {name : TagName} (hname : name.IsPlain) {page : Text} {e : Element}
    (he : e ∈ Element.findAll name page) :
    e.opening ∈ Tag.findAll name page ∧ leadingText page e.opening.stop = e.text := by
  obtain ⟨eo, heo, rfl⟩ := List.mem_map.mp he
  obtain ⟨tag, htag, hsame⟩ := exists_tag_of_mem_elements hname heo
  obtain ⟨front, rest, hpage, hstart, hr⟩ := Text.exists_of_mem_occurrences heo
  obtain ⟨front', rest', hpage', hstart', hr'⟩ := Text.exists_of_mem_occurrences htag
  obtain ⟨rfl, rfl⟩ : front = front' ∧ rest = rest' :=
    List.append_inj (hpage.symm.trans hpage') (by rw [← hstart, ← hstart', hsame])
  obtain ⟨o, closing, hread, -, hparts, -⟩ := Element.recognize_eq_some_iff.mp hr
  obtain ⟨o', hread', hvalue, hraw⟩ := Tag.recognize_eq_some_iff.mp hr'
  obtain rfl : o = o' := Option.some.inj (hread.symm.trans hread')
  refine ⟨List.mem_map.mpr ⟨tag, htag, ?_⟩, ?_⟩
  · simp [Element.opening, hvalue, hraw, hsame, hparts]
  · have hdrop : page.drop (front.length + o.raw.length) = o.rest := by
      rw [hpage, Opening.eq_raw_append_of_read? hread, ← List.append_assoc, ← List.length_append, List.drop_left]
    rw [leadingText_natCast]
    simp only [Element.opening, Tag.stop, hparts, hstart, hdrop]

theorem Tag.findAll_pairwise_start (name : TagName) (page : Text) :
    (Tag.findAll name page).Pairwise fun a b => a.start < b.start :=
  List.pairwise_map.mpr (Text.occurrences_pairwise_start (Tag.recognize_isProper name) page)

theorem Element.findAll_pairwise_start (name : TagName) (page : Text) :
    (Element.findAll name page).Pairwise fun a b => a.start < b.start :=
  List.pairwise_map.mpr (Text.occurrences_pairwise_start (Element.recognize_isProper name) page)

/-- The opening tags of the elements are some of the opening tags, in the same order. -/
theorem Element.map_opening_sublist {name : TagName} (hname : name.IsPlain) (page : Text) :
    (Element.findAll name page).map Element.opening <+ Tag.findAll name page := by
  have hantisymm : Std.Antisymm fun a b : Tag => a.start < b.start :=
    ⟨fun a b hab hba => absurd (hab.trans hba) (Nat.lt_irrefl _)⟩
  have hsorted : ((Element.findAll name page).map Element.opening).Pairwise fun a b => a.start < b.start :=
    List.pairwise_map.mpr (Element.findAll_pairwise_start name page)
  have hnodup : ((Element.findAll name page).map Element.opening).Nodup := by
    refine hsorted.imp ?_
    rintro a _ hlt rfl
    exact Nat.lt_irrefl _ hlt
  have hsubset : (Element.findAll name page).map Element.opening ⊆ Tag.findAll name page := by
    intro tag htag
    obtain ⟨e, he, rfl⟩ := List.mem_map.mp htag
    exact (Element.opening_mem hname he).1
  exact List.sublist_of_subperm_of_pairwise (List.subperm_of_subset hnodup hsubset) hsorted
    (Tag.findAll_pairwise_start name page)

/-- The elements of a page are a subsequence of its opening tags: the starts increase, and each element starts at a tag
that is its opening and is followed by its text. -/
theorem Element.findAll_embeds {name : TagName} (hname : name.IsPlain) (page : Text) :
    (Element.findAll name page).Pairwise (fun a b => a.start < b.start) ∧
      (Element.findAll name page).map Element.opening <+ Tag.findAll name page ∧
      ∀ e ∈ Element.findAll name page, ∃ tag ∈ Tag.findAll name page,
        tag.start = e.start ∧ tag.name = e.name ∧ tag.raw = e.openTag ∧
          tag.stop = e.start + e.openTag.length ∧ leadingText page tag.stop = e.text := by
  refine ⟨Element.findAll_pairwise_start name page, Element.map_opening_sublist hname page, ?_⟩
  intro e he
  obtain ⟨hmem, htext⟩ := Element.opening_mem hname he
  exact ⟨e.opening, hmem, rfl, rfl, rfl, rfl, htext⟩

/-- A tag that holds another one, and a tag that is not the opening of an element. -/
theorem Element.findAll_embeds_nested :
    (TagName.literal "b".toList).IsPlain ∧
      (Element.findAll (.literal "b".toList) "<b <b>x</b><b><b>y</b>".toList).map (·.start) = [0, 14] ∧
      (Tag.findAll (.literal "b".toList) "<b <b>x</b><b><b>y</b>".toList).map (·.start) = [0, 11, 14] ∧
      (Element.findAll (.literal "b".toList) "<b <b>x</b><b><b>y</b>".toList).map Element.opening <+
        Tag.findAll (.literal "b".toList) "<b <b>x</b><b><b>y</b>".toList := by
  have hname : (TagName.literal "b".toList).IsPlain := ⟨by decide, List.all_eq_true.mp (by decide)⟩
  exact ⟨hname, by decide +kernel, by decide +kernel, (Element.findAll_embeds hname _).2.1⟩

end Accessibility
